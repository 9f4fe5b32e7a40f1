import TokenPumper.Pumpfun.TokenText

namespace TokenPumper.Tokens
open Effect FileTree
set_option autoImplicit true

/-- What may become of an entry. -/
structure TokenSpec.Grows (t t' : TokenSpec) : Prop where
  fields : t' = { t with isUsed := t'.isUsed, privatekey := t'.privatekey }
  used : t.isUsed = true → t'.isUsed = true
  key : t.privatekey ≠ "" → t'.privatekey = t.privatekey

/-- What may become of a roster; its last entry is never used up. -/
structure Grows (tokens tokens' : List TokenSpec) : Prop where
  entries : List.Forall₂ TokenSpec.Grows tokens tokens'
  last : tokens.getLast?.map TokenSpec.isUsed = tokens'.getLast?.map TokenSpec.isUsed

theorem TokenSpec.Grows.refl (t : TokenSpec) : t.Grows t := ⟨rfl, id, fun _ => rfl⟩

theorem TokenSpec.Grows.trans {t t' t'' : TokenSpec} (h : t.Grows t') (h' : t'.Grows t'') :
    t.Grows t'' := by
  constructor
  · rw [h'.fields, h.fields]
  · exact fun hused => h'.used (h.used hused)
  · intro hkey
    have hsame := h.key hkey
    rw [← hsame] at hkey
    exact (h'.key hkey).trans hsame

namespace Grows

theorem refl (tokens : List TokenSpec) : Grows tokens tokens :=
  ⟨List.forall₂_same.2 fun t _ => .refl t, rfl⟩

theorem entries_trans (h : List.Forall₂ TokenSpec.Grows tokens tokens')
    (h' : List.Forall₂ TokenSpec.Grows tokens' tokens'') :
    List.Forall₂ TokenSpec.Grows tokens tokens'' := by
  induction h generalizing tokens'' with
  | nil => exact h'
  | cons ht hrest ih =>
    cases h' with
    | cons ht' hrest' => exact .cons (ht.trans ht') (ih hrest')

theorem trans (h : Grows tokens tokens') (h' : Grows tokens' tokens'') : Grows tokens tokens'' :=
  ⟨entries_trans h.entries h'.entries, h.last.trans h'.last⟩

theorem length_eq (h : Grows tokens tokens') : tokens.length = tokens'.length := h.entries.length_eq

end Grows

def flagAt (tokens : List TokenSpec) (idx : Nat) : Option Bool :=
  tokens[idx]?.map TokenSpec.isUsed

theorem flagAt_of_map_eq (h : tokens'.map TokenSpec.isUsed = tokens.map TokenSpec.isUsed)
    (idx : Nat) : flagAt tokens' idx = flagAt tokens idx := by
  rw [flagAt, flagAt, ← List.getElem?_map, h, List.getElem?_map]

theorem Grows.flagAt (h : Grows tokens tokens') (hused : flagAt tokens idx = some true) :
    flagAt tokens' idx = some true := by
  obtain ⟨hentries, -⟩ := h
  induction hentries generalizing idx with
  | nil => exact hused
  | cons ht hrest ih =>
    cases idx with
    | zero => exact congrArg some (ht.used (Option.some.inj hused))
    | succ idx => exact ih hused

theorem Fills.flags (h : Fills ts lines ts') :
    ts'.map TokenSpec.isUsed = ts.map TokenSpec.isUsed := by
  induction h with
  | nil => rfl
  | kept t hkey h ih => rw [List.map_cons, ih, List.map_cons]
  | filled t line hkey h ih =>
    rw [List.map_cons, ih, List.map_cons]
    rfl

theorem Fills.grows (h : Fills ts lines ts') : Grows ts ts' := by
  constructor
  · induction h with
    | nil => exact .nil
    | kept t hkey h ih => exact .cons (.refl t) ih
    | filled t line hkey h ih => exact .cons ⟨rfl, id, fun hne => absurd hkey hne⟩ ih
  · rw [← List.getLast?_map, ← List.getLast?_map, h.flags]

/-- A pick for a real run is the first entry that is not used, and not the last one. -/
theorem pick_eq_ok (h : pick tokens false = .ok idx) : idx + 1 < tokens.length ∧
    flagAt tokens idx = some false ∧ ∀ j < idx, flagAt tokens j = some true := by
  rw [pick] at h
  split at h
  · cases h
  rw [if_neg Bool.false_ne_true] at h
  split at h
  · rename_i i hfind
    obtain rfl := Except.ok.inj h
    obtain ⟨hlt, hunused, hbefore⟩ := List.findIdx?_eq_some_iff_getElem.1 hfind
    rw [List.length_take] at hlt
    rw [List.getElem_take] at hunused
    constructor
    · omega
    constructor
    · rw [flagAt, List.getElem?_eq_getElem (by omega)]
      exact congrArg some (by simpa using hunused)
    · intro j hj
      have hused := hbefore j hj
      rw [List.getElem_take] at hused
      rw [flagAt, List.getElem?_eq_getElem (by omega)]
      exact congrArg some (by simpa using hused)
  · cases h

theorem grows_modify_burnt (tokens : List TokenSpec) (idx : Nat) :
    List.Forall₂ TokenSpec.Grows tokens (tokens.modify idx TokenSpec.burnt) := by
  induction tokens generalizing idx with
  | nil =>
    rw [List.modify_nil]
    exact .nil
  | cons t ts ih =>
    cases idx with
    | zero => exact .cons ⟨rfl, fun _ => rfl, fun _ => rfl⟩ (Grows.refl ts).entries
    | succ idx => exact .cons (.refl t) (ih idx)

theorem grows_burn (hidx : idx + 1 < tokens.length) (h : burn tokens idx = some burnt) :
    Grows tokens burnt := by
  rw [burn, if_pos (by omega)] at h
  obtain rfl := Option.some.inj h
  constructor
  · exact grows_modify_burnt tokens idx
  · rw [List.getLast?_eq_getElem?, List.getLast?_eq_getElem?, List.length_modify,
      List.getElem?_modify_ne _ _ (by omega)]

theorem flagAt_burn (h : burn tokens idx = some burnt) : flagAt burnt idx = some true := by
  rw [burn] at h
  split at h
  · rename_i hidx
    obtain rfl := Option.some.inj h
    rw [flagAt, List.getElem?_modify_eq, List.getElem?_eq_getElem hidx]
    rfl
  · cases h

/-- The first entry that was not used, and not the last one, is used now. -/
structure Marks (tokens : List TokenSpec) (idx : Nat) (tokens' : List TokenSpec) : Prop where
  grows : Grows tokens tokens'
  inside : idx + 1 < tokens.length
  unused : flagAt tokens idx = some false
  before : ∀ j < idx, flagAt tokens j = some true
  used : flagAt tokens' idx = some true

theorem marks_burn (hgrows : Grows tokens loaded)
    (hflags : loaded.map TokenSpec.isUsed = tokens.map TokenSpec.isUsed)
    (hpick : pick loaded false = .ok idx) (hburn : burn loaded idx = some burnt) :
    Marks tokens idx burnt := by
  obtain ⟨hinside, hunused, hbefore⟩ := pick_eq_ok hpick
  constructor
  · exact hgrows.trans (grows_burn hinside hburn)
  · exact hgrows.length_eq ▸ hinside
  · exact (flagAt_of_map_eq hflags idx).symm.trans hunused
  · exact fun j hj => (flagAt_of_map_eq hflags j).symm.trans (hbefore j hj)
  · exact flagAt_burn hburn

/-- What becomes of a roster in a start that marks an entry, or none. -/
def Consumes (tokens : List TokenSpec) : Option Nat → List TokenSpec → Prop
  | none => Grows tokens
  | some idx => Marks tokens idx

theorem Consumes.grows (h : Consumes tokens marked tokens') : Grows tokens tokens' := by
  cases marked with
  | none => exact h
  | some idx => exact Marks.grows h

theorem length_le_of_increasing {ns : List Nat} (h : ns.Pairwise (· < ·)) (hlt : ∀ n ∈ ns, n < m) :
    ns.length ≤ m := by
  have hnodup : ns.Nodup := h.imp Nat.ne_of_lt
  have hsub : ns.Subperm (List.range m) :=
    List.subperm_of_subset hnodup fun n hn => List.mem_range.2 (hlt n hn)
  have hlen := hsub.length_le
  rwa [List.length_range] at hlen

section Program
variable [TokenJson]

/-- What comes of the steps between the pick and the mark, the wallets' and the upload's, is given.
A debug run does not mark. -/
def pickAndMark (cacheDir : Path) (tokens : List TokenSpec) (tokenDebug : Bool)
    (staged : Reply Unit) : Run (Option Nat) := do
  let idx ← lift ((pick tokens tokenDebug).mapError fun message => .error [message])
  lift (staged.mapError .error)
  if tokenDebug then pure none
  else do
    markUsed cacheDir tokens idx
    pure (some idx)

/-- The steps of `main` that are about the roster. -/
def tokenSteps (cacheDir keysDir : Path) (tokenDebug : Bool) (staged : Reply Unit) :
    Run (Option Nat) := do
  match ← loadAndHydrate cacheDir keysDir with
  | none => bail "no tokens.json yet created — exiting.."
  | some tokens => pickAndMark cacheDir tokens tokenDebug staged

/-- A start of the program, in surroundings of its own: with their faults it fails or stops
anywhere. -/
structure Start where
  tokenDebug : Bool
  staged : Reply Unit
  env : Env

/-- The entry that a start marks if it comes to its end, and the disk after it. -/
def Start.run (cacheDir keysDir : Path) (disk : Tree) (start : Start) : Option Nat × Tree :=
  match tokenSteps cacheDir keysDir start.tokenDebug start.staged start.env (.init disk) with
  | (.ok marked, w) => (marked, w.disk)
  | (.error _, w) => (none, w.disk)

def diskAfter (cacheDir keysDir : Path) (disk : Tree) (starts : List Start) : Tree :=
  starts.foldl (fun disk start => (start.run cacheDir keysDir disk).2) disk

/-- The entries that are marked one after the other, each with the disk that its start found. -/
def marks (cacheDir keysDir : Path) : Tree → List Start → List (Tree × Nat)
  | _, [] => []
  | disk, start :: starts =>
    let rest := marks cacheDir keysDir (start.run cacheDir keysDir disk).2 starts
    match (start.run cacheDir keysDir disk).1 with
    | none => rest
    | some idx => (disk, idx) :: rest

section Steps
variable {env : Env} {cacheDir keysDir : Path} {s s' : Shelf}

theorem tokens_of_loads (h : Loads env s (some loaded) s') (hjson : TokenJson.RoundTrips)
    (htokens : s.tokens = some tokens) : s'.tokens = some loaded ∧ Grows tokens loaded ∧
      loaded.map TokenSpec.isUsed = tokens.map TokenSpec.isUsed := by
  cases h with
  | whole h hneeded =>
    obtain rfl := Option.some.inj (htokens.symm.trans h)
    exact ⟨h, .refl tokens, rfl⟩
  | filled h hlines =>
    obtain rfl := Option.some.inj (htokens.symm.trans h)
    have hfills := fills_hydrated hlines
    exact ⟨Shelf.tokens_withTokens hjson _ _, hfills.grows, hfills.flags⟩

theorem eq_of_loads_none (h : Loads env s none s') : s' = s := by
  cases h with
  | missing h => rfl

theorem tokens_of_loadStops (h : LoadStops s s') : s'.tokens = s.tokens := by
  cases h with
  | before => rfl
  | between htokens hlines => rfl

/-- The roster on the disk is one of these. -/
def Holds (cacheDir keysDir : Path) (p : List TokenSpec → Prop) : Cond :=
  fun disk _ => ∃ tokens, (shelf cacheDir keysDir disk).tokens = some tokens ∧ p tokens

theorem holds_of_at {w : World} (hw : on (At cacheDir keysDir s) w)
    (htokens : s.tokens = some tokens) (hp : p tokens) : on (Holds cacheDir keysDir p) w := by
  obtain rfl : shelf cacheDir keysDir w.disk = s := hw
  exact ⟨tokens, htokens, hp⟩

theorem triple_pickAndMark (hjson : TokenJson.RoundTrips) (hloaded : s.tokens = some loaded)
    (hgrows : Grows tokens loaded)
    (hflags : loaded.map TokenSpec.isUsed = tokens.map TokenSpec.isUsed) :
    Triple env (on (At cacheDir keysDir s)) (pickAndMark cacheDir loaded tokenDebug staged)
      (fun marked => on (Holds cacheDir keysDir (Consumes tokens marked)))
      (on (Holds cacheDir keysDir (Grows tokens))) := by
  have hstop : ∀ w, on (At cacheDir keysDir s) w → on (Holds cacheDir keysDir (Grows tokens)) w :=
    fun w hw => holds_of_at hw hloaded hgrows
  apply Triple.bind (Q := fun idx w => on (At cacheDir keysDir s) w ∧
    pick loaded tokenDebug = .ok idx)
  · apply Triple.lift _ hstop
    exact fun idx hpick w hw => ⟨hw, Fallible.mapError_eq_ok hpick⟩
  intro idx
  apply Triple.assume
  intro hpick
  apply Triple.bind (Q := fun _ => on (At cacheDir keysDir s))
  · exact Triple.lift (fun _ _ w hw => hw) hstop
  intro _
  cases tokenDebug with
  | true => exact Triple.pure hstop
  | false =>
    apply Triple.bind (triple_markUsed.conseq (fun _ h => h) (fun _ _ h => h) hstop)
    intro _
    apply Triple.pure
    intro w hw
    obtain ⟨burnt, hburn, hshelf⟩ := hw
    apply holds_of_at (s := s.withTokens burnt) hshelf (Shelf.tokens_withTokens hjson _ _)
    exact marks_burn hgrows hflags hpick hburn

theorem triple_tokenSteps (hjson : TokenJson.RoundTrips) (htokens : s.tokens = some tokens) :
    Triple env (on (At cacheDir keysDir s)) (tokenSteps cacheDir keysDir tokenDebug staged)
      (fun marked => on (Holds cacheDir keysDir (Consumes tokens marked)))
      (on (Holds cacheDir keysDir (Grows tokens))) := by
  apply Triple.bind (triple_loadAndHydrate.conseq (fun _ h => h) (fun _ _ h => h) _)
  · intro loaded
    cases loaded with
    | none =>
      apply Triple.fail
      intro w hw
      exact holds_of_at (eq_of_loads_none hw) htokens (.refl tokens)
    | some loaded =>
      intro w hw
      obtain ⟨hloaded, hgrows, hflags⟩ := tokens_of_loads hw hjson htokens
      exact triple_pickAndMark hjson hloaded hgrows hflags w rfl
  · intro w hw
    exact ⟨tokens, (tokens_of_loadStops hw).trans htokens, .refl tokens⟩

theorem consumes_run (hjson : TokenJson.RoundTrips) {disk : Tree}
    (htokens : (shelf cacheDir keysDir disk).tokens = some tokens) (start : Start) :
    ∃ tokens', (shelf cacheDir keysDir (start.run cacheDir keysDir disk).2).tokens = some tokens' ∧
      Consumes tokens (start.run cacheDir keysDir disk).1 tokens' := by
  have hpost : Post _ _ (tokenSteps cacheDir keysDir start.tokenDebug start.staged start.env
      (.init disk)) := triple_tokenSteps hjson htokens (.init disk) rfl
  rw [Start.run]
  split
  · rename_i hrun
    rw [hrun] at hpost
    exact hpost
  · rename_i hrun
    rw [hrun] at hpost
    exact hpost

theorem grows_diskAfter (hjson : TokenJson.RoundTrips) {disk : Tree}
    (htokens : (shelf cacheDir keysDir disk).tokens = some tokens) (starts : List Start) :
    ∃ tokens', (shelf cacheDir keysDir (diskAfter cacheDir keysDir disk starts)).tokens =
      some tokens' ∧ Grows tokens tokens' := by
  induction starts generalizing disk tokens with
  | nil => exact ⟨tokens, htokens, .refl tokens⟩
  | cons start starts ih =>
    obtain ⟨tokens₁, htokens₁, hconsumes⟩ := consumes_run hjson htokens start
    obtain ⟨tokens₂, htokens₂, hgrows⟩ := ih htokens₁
    exact ⟨tokens₂, htokens₂, hconsumes.grows.trans hgrows⟩

theorem marks_increase (hjson : TokenJson.RoundTrips) {disk : Tree}
    (htokens : (shelf cacheDir keysDir disk).tokens = some tokens) (starts : List Start)
    (hused : ∀ j < n, flagAt tokens j = some true) :
    ((marks cacheDir keysDir disk starts).map Prod.snd).Pairwise (· < ·) ∧
      ∀ found idx, (found, idx) ∈ marks cacheDir keysDir disk starts → n ≤ idx ∧
        idx + 1 < tokens.length ∧ ∃ tokens', (shelf cacheDir keysDir found).tokens = some tokens' ∧
          flagAt tokens' idx = some false := by
  induction starts generalizing disk tokens n with
  | nil => exact ⟨.nil, fun found idx h => absurd h List.not_mem_nil⟩
  | cons start starts ih =>
    obtain ⟨tokens₁, htokens₁, hconsumes⟩ := consumes_run hjson htokens start
    have hlen := hconsumes.grows.length_eq
    cases hmarked : (start.run cacheDir keysDir disk).1 with
    | none =>
      rw [marks, hmarked]
      have hused₁ : ∀ j < n, flagAt tokens₁ j = some true :=
        fun j hj => hconsumes.grows.flagAt (hused j hj)
      rw [hlen]
      exact ih htokens₁ hused₁
    | some idx =>
      rw [marks, hmarked]
      rw [hmarked] at hconsumes
      have hfirst : n ≤ idx := by
        by_contra hlt
        have hflag := hused idx (not_le.1 hlt)
        rw [hconsumes.unused] at hflag
        cases hflag
      have hused₁ : ∀ j < idx + 1, flagAt tokens₁ j = some true := by
        intro j hj
        rcases Nat.lt_succ_iff_lt_or_eq.1 hj with hj | rfl
        · exact hconsumes.grows.flagAt (hconsumes.before j hj)
        · exact hconsumes.used
      obtain ⟨hpairwise, hrest⟩ := ih htokens₁ hused₁
      constructor
      · apply List.pairwise_cons.2
        constructor
        · intro i hi
          obtain ⟨⟨found, i'⟩, hmem, rfl⟩ := List.mem_map.1 hi
          exact (hrest found i' hmem).1
        · exact hpairwise
      · intro found i hmem
        rcases List.mem_cons.1 hmem with heq | hmem
        · obtain ⟨rfl, rfl⟩ := Prod.mk.inj heq
          exact ⟨hfirst, hconsumes.inside, tokens, htokens, hconsumes.unused⟩
        · obtain ⟨hle, hinside, hfound⟩ := hrest found i hmem
          exact ⟨by omega, by omega, hfound⟩

end Steps

/-- What a history of starts makes of a roster. -/
structure Consumed (cacheDir keysDir : Path) (disk : Tree) (tokens : List TokenSpec)
    (starts : List Start) : Prop where
  increasing : ((marks cacheDir keysDir disk starts).map Prod.snd).Pairwise (· < ·)
  inside : ∀ found idx, (found, idx) ∈ marks cacheDir keysDir disk starts → idx + 1 < tokens.length
  unused : ∀ found idx, (found, idx) ∈ marks cacheDir keysDir disk starts →
    ∃ tokens', (shelf cacheDir keysDir found).tokens = some tokens' ∧
      flagAt tokens' idx = some false
  atMost : (marks cacheDir keysDir disk starts).length ≤ tokens.length - 1
  /-- At any two moments of the history. -/
  grows : ∀ before later, starts = before ++ later → ∃ tokens₁ tokens₂,
    (shelf cacheDir keysDir (diskAfter cacheDir keysDir disk before)).tokens = some tokens₁ ∧
    (shelf cacheDir keysDir (diskAfter cacheDir keysDir disk starts)).tokens = some tokens₂ ∧
    Grows tokens tokens₁ ∧ Grows tokens₁ tokens₂

/-- Over any history of starts, stopped ones included: each mark goes to a later entry than the one
before it, to one that its start found unused, and never to the last. No flag is cleared and nothing
else of an entry changes, apart from an empty key. -/
theorem roster_consumed (hjson : TokenJson.RoundTrips) (cacheDir keysDir : Path) (disk : Tree)
    (htokens : (shelf cacheDir keysDir disk).tokens = some tokens) (starts : List Start) :
    Consumed cacheDir keysDir disk tokens starts := by
  have hused : ∀ j < 0, flagAt tokens j = some true := fun j hj => absurd hj (Nat.not_lt_zero j)
  obtain ⟨hpairwise, hmarks⟩ := marks_increase hjson htokens starts hused
  constructor
  · exact hpairwise
  · exact fun found idx h => (hmarks found idx h).2.1
  · exact fun found idx h => (hmarks found idx h).2.2
  · have hlen : ((marks cacheDir keysDir disk starts).map Prod.snd).length =
        (marks cacheDir keysDir disk starts).length := List.length_map _
    rw [← hlen]
    apply length_le_of_increasing hpairwise
    intro idx hidx
    obtain ⟨⟨found, idx'⟩, hmem, rfl⟩ := List.mem_map.1 hidx
    exact Nat.lt_sub_of_add_lt (hmarks found idx' hmem).2.1
  · rintro before later rfl
    obtain ⟨tokens₁, htokens₁, hgrows₁⟩ := grows_diskAfter hjson htokens before
    obtain ⟨tokens₂, htokens₂, hgrows₂⟩ := grows_diskAfter hjson htokens₁ later
    refine ⟨tokens₁, tokens₂, htokens₁, ?_, hgrows₁, hgrows₂⟩
    rw [diskAfter, List.foldl_append]
    exact htokens₂

end Program

/-- A start that goes through, one that is stopped, a debug run, and one that finds nothing left. -/
def sampleStarts : List Start :=
  let calm : Env := .calm 1700000000 (.replicate 32 1)
  [⟨false, .ok (), calm⟩, ⟨false, .ok (), calm.stopAt 9⟩, ⟨true, .ok (), calm⟩,
    ⟨false, .ok (), calm⟩]

theorem roster_consumed_sample :
    @Consumed rosterJson ["cache"] ["keys"] sampleDisk sampleTokens sampleStarts :=
  @roster_consumed rosterJson sampleTokens rosterJson_roundTrips ["cache"] ["keys"] sampleDisk
    tokens_sampleDisk sampleStarts

end TokenPumper.Tokens
