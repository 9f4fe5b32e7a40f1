import TokenPumper.Pumpfun.Tokens

namespace TokenPumper.Tokens
open Effect FileTree
set_option autoImplicit true

def textIn : Option Node → Option (List Char)
  | some (.file bytes) => Text.ofUtf8 bytes
  | _ => none

theorem keyLines_joinLines (h : ∀ line ∈ ls, '\n' ∉ line.toList ∧ '\r' ∉ line.toList ∧
    (Text.trim line.toList).isEmpty = false) : keyLines (joinLines ls) = ls := by
  have hread : Text.lines (Text.unlines (ls.map String.toList)) = ls.map String.toList := by
    apply Text.lines_unlines
    intro cs hcs
    obtain ⟨line, hline, rfl⟩ := List.mem_map.1 hcs
    exact ⟨(h line hline).1, (h line hline).2.1⟩
  have hall : (ls.map String.toList).filter (fun line => !(Text.trim line).isEmpty) =
      ls.map String.toList := by
    apply List.filter_eq_self.2
    intro cs hcs
    obtain ⟨line, hline, rfl⟩ := List.mem_map.1 hcs
    rw [(h line hline).2.2]
    rfl
  rw [keyLines, joinLines, hread, hall, List.map_map]
  exact List.map_id'' (fun line => String.ofList_toList) ls

section Rules
variable {env : Env} {D D' : Cond} {E : World → Prop} {path dir : Path}

theorem triple_textIn (hE : ∀ w, on D w → E w) :
    Triple env (on D) (readToString path)
      (fun text => on fun disk log => D disk log ∧ textIn (disk.lookup path) = some text) E := by
  apply (triple_readToString hE).conseq (fun _ h => h) _ fun _ h => h
  intro text w hw
  obtain ⟨hw, bytes, hfile, htext⟩ := hw
  exact ⟨hw, by rw [hfile, textIn, htext]⟩

theorem triple_openFile (hE : ∀ w, on D w → E w) :
    Triple env (on D) (openFile path) (fun _ => on D) E := by
  apply triple_call hE
  intro w hw
  split
  · apply Triple.pure
    rintro s rfl
    exact hw
  · exact Triple.fail_at (hE w hw)

theorem triple_readLines (hE : ∀ w, on D w → E w) :
    Triple env (on D) (readLines path)
      (fun lines => on fun disk log => D disk log ∧
        (textIn (disk.lookup path)).map keyLines = some lines) E := by
  apply Triple.bind (triple_withContext (triple_openFile hE))
  intro _
  apply Triple.bind (triple_withContext (triple_textIn hE))
  intro text
  apply Triple.pure
  exact fun w hw => ⟨hw.1, by rw [hw.2, Option.map_some]⟩

theorem triple_fileExists_not :
    Triple env (on D) (fileExists path)
      (fun there => on fun disk log => D disk log ∧
        (there = false → disk.lookup path = none ∨ ∃ t, env.statFails t = true)) E := by
  intro w hw
  rw [fileExists_run]
  constructor
  · exact hw
  · intro hno
    cases hstat : env.statFails w.tick with
    | true => exact .inr ⟨w.tick, hstat⟩
    | false =>
      rw [hstat] at hno
      exact .inl (Option.isSome_eq_false_iff.1 hno |> Option.isNone_iff_eq_none.1)

theorem triple_writeAtomic (hD : D.Ignores (tmpPath name dir))
    (hwritten : ∀ {disk disk' log}, D disk log → disk'.lookup (name :: dir) = some (.file bytes) →
      (∀ p, p ≠ name :: dir → p ≠ tmpPath name dir → disk'.lookup p = disk.lookup p) →
      D' disk' log)
    (hE : ∀ w, on D w → E w) :
    Triple env (on D) (writeAtomic (name :: dir) bytes) (fun _ => on D') E := by
  apply Triple.bind (triple_withContext (triple_writeFile hD hE))
  intro _
  apply triple_withContext
  apply triple_renameFile
  · exact fun disk log h => h.2
  · exact fun h => hwritten h.1
  · exact fun w hw => hE w hw.1

end Rules

/-- What is at the paths of the roster and of the pool. -/
structure Shelf where
  roster : Option Node
  pool : Option Node

def shelf (cacheDir keysDir : Path) (disk : Tree) : Shelf where
  roster := disk.lookup (tokensCacheFile :: cacheDir)
  pool := disk.lookup (tokensKeyFile :: keysDir)

def At (cacheDir keysDir : Path) (s : Shelf) : Cond := fun disk _ => shelf cacheDir keysDir disk = s

namespace Shelf

/-- The lines that a load would read. -/
def lines (s : Shelf) : List String := ((textIn s.pool).map keyLines).getD []

def withLines (s : Shelf) (lines : List String) : Shelf :=
  { s with pool := some (.file (Text.toUtf8 (joinLines lines))) }

def hydrated (s : Shelf) (tokens : List TokenSpec) : List TokenSpec :=
  assign tokens ((needed tokens).zip (s.lines.take (needed tokens).length))

def drawn (s : Shelf) (tokens : List TokenSpec) : Shelf :=
  s.withLines (s.lines.drop (needed tokens).length)

theorem mem_lines {s : Shelf} (h : line ∈ s.lines) :
    '\n' ∉ line.toList ∧ (Text.trim line.toList).isEmpty = false := by
  rw [lines] at h
  cases htext : textIn s.pool with
  | none =>
    rw [htext] at h
    exact absurd h List.not_mem_nil
  | some text =>
    rw [htext, Option.map_some, Option.getD_some, keyLines, List.mem_map] at h
    obtain ⟨cs, hcs, rfl⟩ := h
    rw [List.mem_filter, Bool.not_eq_true'] at hcs
    rw [String.toList_ofList]
    exact ⟨Text.not_mem_of_mem_lines hcs.1, hcs.2⟩

theorem ne_empty_of_mem_lines {s : Shelf} (h : line ∈ s.lines) : line ≠ "" := by
  intro hempty
  have hblank := (mem_lines h).2
  rw [hempty] at hblank
  cases hblank

theorem lines_withLines (s : Shelf) (h : ∀ line ∈ ls, '\n' ∉ line.toList ∧ '\r' ∉ line.toList ∧
    (Text.trim line.toList).isEmpty = false) : (s.withLines ls).lines = ls := by
  rw [withLines, lines, textIn, Text.ofUtf8_toUtf8, Option.map_some, Option.getD_some]
  exact keyLines_joinLines h

theorem lines_drawn {s : Shelf} (h : ∀ line ∈ s.lines, '\r' ∉ line.toList)
    (tokens : List TokenSpec) :
    (s.drawn tokens).lines = s.lines.drop (needed tokens).length := by
  apply lines_withLines
  intro line hline
  have hmem : line ∈ s.lines := List.mem_of_mem_drop hline
  exact ⟨(mem_lines hmem).1, h line hmem, (mem_lines hmem).2⟩

variable [TokenJson]

/-- The roster, if there is a file that can be read as one. -/
def tokens (s : Shelf) : Option (List TokenSpec) :=
  (textIn s.roster).bind fun text => (TokenJson.parse text).toOption

def withTokens (s : Shelf) (tokens : List TokenSpec) : Shelf :=
  { s with roster := some (.file (rosterBytes tokens)) }

theorem tokens_withTokens (hjson : TokenJson.RoundTrips) (s : Shelf) (tokens : List TokenSpec) :
    (s.withTokens tokens).tokens = some tokens := by
  rw [Shelf.tokens, withTokens, textIn, rosterBytes, Text.ofUtf8_toUtf8, Option.bind_some, hjson]
  rfl

end Shelf

theorem tmpPath_ne (hname : name = tokensCacheFile ∨ name = tokensKeyFile) (dir dir' : Path) :
    tokensCacheFile :: dir' ≠ tmpPath name dir ∧ tokensKeyFile :: dir' ≠ tmpPath name dir := by
  have hheads : tokensCacheFile ≠ s!".{name}.tmp" ∧ tokensKeyFile ≠ s!".{name}.tmp" := by
    rcases hname with rfl | rfl <;> decide
  constructor
  · exact fun h => hheads.1 (List.cons.inj h).1
  · exact fun h => hheads.2 (List.cons.inj h).1

theorem cachePath_ne_keysPath (cacheDir keysDir : Path) :
    tokensCacheFile :: cacheDir ≠ tokensKeyFile :: keysDir := by
  intro h
  have hne : tokensCacheFile ≠ tokensKeyFile := by decide
  exact hne (List.cons.inj h).1

theorem at_ignores (hname : name = tokensCacheFile ∨ name = tokensKeyFile) :
    (At cacheDir keysDir s).Ignores (tmpPath name dir) := by
  intro disk disk' log hsame hs
  rw [At, shelf] at hs ⊢
  rw [hsame _ (tmpPath_ne hname dir cacheDir).1, hsame _ (tmpPath_ne hname dir keysDir).2]
  exact hs

theorem shelf_of_at {w : World} {p : Shelf → Prop} (hw : on (At cacheDir keysDir s) w) (hs : p s) :
    p (shelf cacheDir keysDir w.disk) := by
  obtain rfl : shelf cacheDir keysDir w.disk = s := hw
  exact hs

section Calls
variable {env : Env} {cacheDir keysDir : Path} {s : Shelf}

theorem triple_writePool :
    Triple env (on (At cacheDir keysDir s))
      (writeAtomic (tokensKeyFile :: keysDir) (Text.toUtf8 (joinLines lines)))
      (fun _ => on (At cacheDir keysDir (s.withLines lines))) (on (At cacheDir keysDir s)) := by
  apply triple_writeAtomic (at_ignores (.inr rfl)) _ fun w hw => hw
  intro disk disk' log hs hfile hsame
  obtain rfl : shelf cacheDir keysDir disk = s := hs
  rw [At, shelf, hfile, hsame _ (cachePath_ne_keysPath cacheDir keysDir)
    (tmpPath_ne (.inr rfl) keysDir cacheDir).1]
  rfl

theorem triple_readPool :
    Triple env (on (At cacheDir keysDir s)) (readLines (tokensKeyFile :: keysDir))
      (fun lines w => on (At cacheDir keysDir s) w ∧ s.lines = lines)
      (on (At cacheDir keysDir s)) := by
  apply (triple_readLines fun w hw => hw).conseq (fun w hw => hw) _ fun _ h => h
  intro lines w hw
  obtain ⟨hw, hlines⟩ := hw
  obtain rfl : shelf cacheDir keysDir w.disk = s := hw
  constructor
  · exact rfl
  · rw [Shelf.lines, shelf, hlines, Option.getD_some]

variable [TokenJson]

theorem triple_writeRoster :
    Triple env (on (At cacheDir keysDir s))
      (writeAtomic (tokensCacheFile :: cacheDir) (rosterBytes tokens))
      (fun _ => on (At cacheDir keysDir (s.withTokens tokens))) (on (At cacheDir keysDir s)) := by
  apply triple_writeAtomic (at_ignores (.inl rfl)) _ fun w hw => hw
  intro disk disk' log hs hfile hsame
  obtain rfl : shelf cacheDir keysDir disk = s := hs
  rw [At, shelf, hfile, hsame _ (cachePath_ne_keysPath cacheDir keysDir).symm
    (tmpPath_ne (.inl rfl) cacheDir keysDir).2]
  rfl

/-- What a load that returns found, and what it left. -/
inductive Loads (env : Env) (s : Shelf) : Option (List TokenSpec) → Shelf → Prop
  | missing (h : s.roster = none ∨ ∃ t, env.statFails t = true) : Loads env s none s
  | whole (htokens : s.tokens = some tokens) (hneeded : needed tokens = []) :
      Loads env s (some tokens) s
  | filled (htokens : s.tokens = some tokens) (hlines : (needed tokens).length ≤ s.lines.length) :
      Loads env s (some (s.hydrated tokens)) ((s.drawn tokens).withTokens (s.hydrated tokens))

/-- What a load leaves that fails or is stopped. -/
inductive LoadStops (s : Shelf) : Shelf → Prop
  | before : LoadStops s s
  | between (htokens : s.tokens = some tokens) (hlines : (needed tokens).length ≤ s.lines.length) :
      LoadStops s (s.drawn tokens)

theorem loadStops_of_at (w : World) (hw : on (At cacheDir keysDir s) w) :
    LoadStops s (shelf cacheDir keysDir w.disk) :=
  shelf_of_at hw .before

theorem triple_readTokens :
    Triple env (on (At cacheDir keysDir s)) (readTokens (tokensCacheFile :: cacheDir))
      (fun tokens w => on (At cacheDir keysDir s) w ∧ s.tokens = some tokens)
      (on (At cacheDir keysDir s)) := by
  apply Triple.bind (Q := fun text w => on (At cacheDir keysDir s) w ∧ textIn s.roster = some text)
  · apply triple_withContext
    apply (triple_textIn fun w hw => hw).conseq (fun w hw => hw) _ fun _ h => h
    intro text w hw
    obtain ⟨hw, htext⟩ := hw
    obtain rfl : shelf cacheDir keysDir w.disk = s := hw
    exact ⟨rfl, htext⟩
  intro text
  apply Triple.assume
  intro htext
  apply triple_withContext
  apply Triple.lift _ fun w hw => hw
  intro tokens hparse w hw
  constructor
  · exact hw
  · rw [Shelf.tokens, htext, Option.bind_some, Fallible.mapError_eq_ok hparse]
    rfl

theorem triple_hydrate (htokens : s.tokens = some tokens) :
    Triple env (on (At cacheDir keysDir s))
      (hydrate (tokensCacheFile :: cacheDir) (tokensKeyFile :: keysDir) tokens (needed tokens))
      (fun hydrated => on fun disk _ =>
        Loads env s (some hydrated) (shelf cacheDir keysDir disk))
      (on fun disk _ => LoadStops s (shelf cacheDir keysDir disk)) := by
  apply Triple.bind (triple_readPool.conseq (fun _ h => h) (fun _ _ h => h) loadStops_of_at)
  intro lines
  apply Triple.assume
  intro hlines
  subst hlines
  split
  · exact Triple.fail loadStops_of_at
  rename_i henough
  rw [not_lt] at henough
  rw [List.splitAt_eq]
  apply Triple.bind (triple_writePool.conseq (fun _ h => h) (fun _ _ h => h) loadStops_of_at)
  intro _
  apply Triple.bind (triple_writeRoster.conseq (fun _ h => h) (fun _ _ h => h) _)
  · intro _
    apply Triple.pure
    exact fun w hw => shelf_of_at hw (.filled htokens henough)
  · exact fun w hw => shelf_of_at hw (.between htokens henough)

theorem triple_loadAndHydrate :
    Triple env (on (At cacheDir keysDir s)) (loadAndHydrate cacheDir keysDir)
      (fun res => on fun disk _ => Loads env s res (shelf cacheDir keysDir disk))
      (on fun disk _ => LoadStops s (shelf cacheDir keysDir disk)) := by
  apply Triple.bind triple_fileExists_not
  intro there
  split
  · rename_i hno
    apply Triple.pure
    intro w hw
    obtain ⟨hw, hmissing⟩ := hw
    obtain rfl : shelf cacheDir keysDir w.disk = s := hw
    exact .missing (hmissing (by simpa using hno))
  apply Triple.bind (triple_readTokens.conseq (fun w hw => hw.1) (fun _ _ h => h) loadStops_of_at)
  intro tokens
  apply Triple.assume
  intro htokens
  split
  · rename_i hneeded
    apply Triple.pure
    exact fun w hw => shelf_of_at hw (.whole htokens (List.isEmpty_iff.1 hneeded))
  · apply Triple.bind (triple_hydrate htokens)
    exact fun hydrated => Triple.pure fun w hw => hw

/-- The roster on the disk is the one in hand with its flag, or the one that was there. -/
theorem triple_markUsed :
    Triple env (on (At cacheDir keysDir s)) (markUsed cacheDir tokens idx)
      (fun _ => on fun disk _ => ∃ burnt, burn tokens idx = some burnt ∧
        shelf cacheDir keysDir disk = s.withTokens burnt)
      (on (At cacheDir keysDir s)) := by
  apply Triple.bind (triple_orPanic fun w hw => hw)
  intro burnt
  apply Triple.assume
  intro hburnt
  apply triple_writeRoster.conseq (fun _ h => h) _ fun _ h => h
  exact fun _ w hw => ⟨burnt, hburnt, hw⟩

end Calls

/-- Entries that have a key keep it, the others get the lines in order. -/
inductive Fills : List TokenSpec → List String → List TokenSpec → Prop
  | nil : Fills [] [] []
  | kept (t : TokenSpec) (hkey : t.privatekey ≠ "") (h : Fills ts lines ts') :
      Fills (t :: ts) lines (t :: ts')
  | filled (t : TokenSpec) (line : String) (hkey : t.privatekey = "") (h : Fills ts lines ts') :
      Fills (t :: ts) (line :: lines) (t.withKey line :: ts')

section Slots

theorem modify_append_self (done : List α) (a : α) (as : List α) (f : α → α) :
    (done ++ a :: as).modify done.length f = done ++ f a :: as := by
  induction done with
  | nil => rfl
  | cons b done ih =>
    rw [List.cons_append, List.length_cons, List.modify_succ_cons, ih]
    rfl

/-- The indices of the entries without a key, if the first entry has the index `k`. -/
def neededFrom (k : Nat) (tokens : List TokenSpec) : List Nat :=
  ((tokens.zipIdx k).filter (·.1.privatekey.isEmpty)).map Prod.snd

theorem neededFrom_cons (k : Nat) (t : TokenSpec) (ts : List TokenSpec) :
    neededFrom k (t :: ts) =
      if t.privatekey = "" then k :: neededFrom (k + 1) ts else neededFrom (k + 1) ts := by
  rw [neededFrom, List.zipIdx_cons, List.filter_cons]
  by_cases hkey : t.privatekey = ""
  · rw [if_pos hkey, if_pos (by simpa using hkey)]
    rfl
  · rw [if_neg hkey, if_neg (by simpa using hkey)]
    rfl

theorem assign_cons (tokens : List TokenSpec) (slot : Nat) (line : String)
    (slots : List (Nat × String)) :
    assign tokens ((slot, line) :: slots) = assign (tokens.modify slot (·.withKey line)) slots :=
  rfl

theorem exists_fills (done : List TokenSpec) (ts : List TokenSpec) (lines : List String)
    (hlen : lines.length = (neededFrom done.length ts).length) :
    ∃ ts', assign (done ++ ts) ((neededFrom done.length ts).zip lines) = done ++ ts' ∧
      Fills ts lines ts' := by
  induction ts generalizing done lines with
  | nil =>
    obtain rfl := List.length_eq_zero_iff.1 hlen
    exact ⟨[], rfl, .nil⟩
  | cons t ts ih =>
    rw [neededFrom_cons] at hlen ⊢
    split at hlen
    · rename_i hkey
      cases lines with
      | nil => cases hlen
      | cons line lines =>
        have hnext := ih (done ++ [t.withKey line]) lines
        rw [List.length_append] at hnext
        obtain ⟨ts', hassign, hfills⟩ := hnext (Nat.succ.inj hlen)
        apply Exists.intro (t.withKey line :: ts')
        constructor
        · rw [List.append_assoc, List.append_assoc] at hassign
          rw [if_pos hkey, List.zip_cons_cons, assign_cons, modify_append_self]
          exact hassign
        · exact .filled t line hkey hfills
    · rename_i hkey
      have hnext := ih (done ++ [t]) lines
      rw [List.length_append] at hnext
      obtain ⟨ts', hassign, hfills⟩ := hnext hlen
      apply Exists.intro (t :: ts')
      constructor
      · rw [List.append_assoc, List.append_assoc] at hassign
        rw [if_neg hkey]
        exact hassign
      · exact .kept t hkey hfills

theorem fills_hydrated {s : Shelf} (h : (needed tokens).length ≤ s.lines.length) :
    Fills tokens (s.lines.take (needed tokens).length) (s.hydrated tokens) := by
  obtain ⟨tokens', hassign, hfills⟩ := exists_fills [] tokens
    (s.lines.take (needed tokens).length) (List.length_take_of_le h)
  have heq : s.hydrated tokens = tokens' := hassign
  rw [heq]
  exact hfills

theorem fills_self (h : neededFrom k tokens = []) : Fills tokens [] tokens := by
  induction tokens generalizing k with
  | nil => exact .nil
  | cons t ts ih =>
    rw [neededFrom_cons] at h
    split at h
    · cases h
    · rename_i hkey
      exact .kept t hkey (ih h)

end Slots

end TokenPumper.Tokens
