import Mathlib.Data.Multiset.AddSub
import TokenPumper.Lib.Machine
import TokenPumper.Pumpfun.TokenText

namespace TokenPumper.Tokens
open Effect FileTree
set_option autoImplicit true

def keysOf (tokens : List TokenSpec) : List String :=
  (tokens.map TokenSpec.privatekey).filter fun key => decide (key ≠ "")

theorem keysOf_cons (t : TokenSpec) (ts : List TokenSpec) :
    keysOf (t :: ts) = if t.privatekey = "" then keysOf ts else t.privatekey :: keysOf ts := by
  rw [keysOf, List.map_cons, List.filter_cons]
  by_cases hkey : t.privatekey = ""
  · rw [if_pos hkey, if_neg (by simpa using hkey)]
    rfl
  · rw [if_neg hkey, if_pos (by simpa using hkey)]
    rfl

theorem Fills.keys_perm (h : Fills ts lines ts') (hlines : ∀ line ∈ lines, line ≠ "") :
    (keysOf ts').Perm (keysOf ts ++ lines) := by
  induction h with
  | nil => exact List.Perm.refl []
  | kept t hkey h ih =>
    rw [keysOf_cons, keysOf_cons, if_neg hkey, if_neg hkey]
    exact (ih hlines).cons _
  | filled t line hkey h ih =>
    have hline : (t.withKey line).privatekey ≠ "" := hlines line List.mem_cons_self
    rw [keysOf_cons, keysOf_cons, if_neg hline, if_pos hkey]
    have hrest := ih fun l hl => hlines l (List.mem_cons_of_mem line hl)
    exact (hrest.cons line).trans List.perm_middle.symm

theorem Fills.keeps (h : Fills ts lines ts') :
    List.Forall₂ (fun t t' => t.privatekey ≠ "" → t'.privatekey = t.privatekey) ts ts' := by
  induction h with
  | nil => exact .nil
  | kept t hkey h ih => exact .cons (fun _ => rfl) ih
  | filled t line hkey h ih => exact .cons (fun hne => absurd hkey hne) ih

theorem map_privatekey_burn (h : burn tokens idx = some burnt) :
    burnt.map TokenSpec.privatekey = tokens.map TokenSpec.privatekey := by
  rw [burn] at h
  split at h
  · obtain rfl := Option.some.inj h
    apply List.ext_getElem?
    intro i
    rw [List.getElem?_map, List.getElem?_modify, List.getElem?_map]
    cases tokens[i]? with
    | none => rfl
    | some t =>
      change some (TokenSpec.privatekey (if idx = i then t.burnt else t)) = some t.privatekey
      split <;> rfl
  · cases h

theorem map_privatekey_getD_burn (tokens : List TokenSpec) (idx : Nat) :
    ((burn tokens idx).getD tokens).map TokenSpec.privatekey =
      tokens.map TokenSpec.privatekey := by
  cases hburn : burn tokens idx with
  | none => rfl
  | some burnt => exact map_privatekey_burn hburn

theorem returns_drawn {s : Shelf} (hreturns : ∀ line ∈ s.lines, '\r' ∉ line.toList)
    (tokens : List TokenSpec) :
    ∀ line ∈ (s.drawn tokens).lines, '\r' ∉ line.toList := by
  rw [Shelf.lines_drawn hreturns]
  exact fun line hline => hreturns line (List.mem_of_mem_drop hline)

section Program
variable [TokenJson]

/-- Every key once for each place that it is in: an entry of the roster or a line of the pool. -/
def Shelf.keys (s : Shelf) : Multiset String :=
  ↑((s.tokens.map keysOf).getD []) + ↑s.lines

/-- A process with the roster that it has loaded. -/
structure Desk where
  disk : Tree
  tokens : Option (List TokenSpec)

/-- A call, in surroundings of its own: with their faults it fails or stops anywhere. -/
inductive Call
  | loadAndHydrate (env : Env)
  | markUsed (env : Env) (idx : Nat)

/-- What comes of a call, and the desk after it. A load begins a process; a mark is for the roster
that has been loaded, and changes it in hand before it is written. -/
def Call.run (cacheDir keysDir : Path) (d : Desk) : Call → Option (Except Failure Unit × Desk)
  | .loadAndHydrate env =>
    match Tokens.loadAndHydrate cacheDir keysDir env (.init d.disk) with
    | (.ok tokens, w) => some (.ok (), ⟨w.disk, tokens⟩)
    | (.error e, w) => some (.error e, ⟨w.disk, none⟩)
  | .markUsed env idx =>
    match d.tokens with
    | none => none
    | some tokens =>
      let (res, w) := Tokens.markUsed cacheDir tokens idx env (.init d.disk)
      some (res, ⟨w.disk, (burn tokens idx).getD tokens⟩)

def next (cacheDir keysDir : Path) (d : Desk) (call : Call) : Option Desk :=
  (call.run cacheDir keysDir d).map Prod.snd

/-- What a call does to the two files and to the roster in hand. -/
inductive Effects (s : Shelf) : Call → Option (List TokenSpec) → Except Failure Unit → Shelf →
    Option (List TokenSpec) → Prop
  | loaded (h : Loads env s tokens s') :
      Effects s (.loadAndHydrate env) inHand (.ok ()) s' tokens
  | notLoaded (h : LoadStops s s') : Effects s (.loadAndHydrate env) inHand (.error e) s' none
  | marked (h : burn tokens idx = some burnt) :
      Effects s (.markUsed env idx) (some tokens) (.ok ()) (s.withTokens burnt) (some burnt)
  | notMarked (tokens : List TokenSpec) (idx : Nat) :
      Effects s (.markUsed env idx) (some tokens) (.error e) s (some ((burn tokens idx).getD tokens))

theorem effects (h : Call.run cacheDir keysDir d call = some (res, d')) :
    Effects (shelf cacheDir keysDir d.disk) call d.tokens res (shelf cacheDir keysDir d'.disk)
      d'.tokens := by
  cases call with
  | loadAndHydrate env =>
    have hpost : Post _ _ (Tokens.loadAndHydrate cacheDir keysDir env (.init d.disk)) :=
      triple_loadAndHydrate (s := shelf cacheDir keysDir d.disk) (.init d.disk) rfl
    rw [Call.run] at h
    split at h
    · rename_i tokens w hrun
      rw [hrun] at hpost
      obtain ⟨rfl, rfl⟩ := Prod.mk.inj (Option.some.inj h)
      exact .loaded hpost
    · rename_i e w hrun
      rw [hrun] at hpost
      obtain ⟨rfl, rfl⟩ := Prod.mk.inj (Option.some.inj h)
      exact .notLoaded hpost
  | markUsed env idx =>
    rw [Call.run] at h
    cases htokens : d.tokens with
    | none =>
      rw [htokens] at h
      cases h
    | some tokens =>
      have hpost : Post _ _ (Tokens.markUsed cacheDir tokens idx env (.init d.disk)) :=
        triple_markUsed (s := shelf cacheDir keysDir d.disk) (.init d.disk) rfl
      rw [htokens] at h
      cases hrun : Tokens.markUsed cacheDir tokens idx env (.init d.disk) with
      | mk res' w =>
        rw [hrun] at hpost
        simp only [hrun] at h
        obtain ⟨rfl, rfl⟩ := Prod.mk.inj (Option.some.inj h)
        cases res' with
        | ok u =>
          obtain ⟨burnt, hburnt, hshelf⟩ := hpost
          rw [hshelf, hburnt]
          exact .marked hburnt
        | error e =>
          rw [show shelf cacheDir keysDir w.disk = _ from hpost]
          exact .notMarked tokens idx

/-- The roster is still there, and whoever had a key has it. -/
def Shelf.KeysKept (s s' : Shelf) : Prop :=
  ∀ tokens, s.tokens = some tokens → ∃ tokens', s'.tokens = some tokens' ∧
    List.Forall₂ (fun t t' => t.privatekey ≠ "" → t'.privatekey = t.privatekey) tokens tokens'

/-- No returns in the pool, and the roster in hand has the keys of the one on the disk. -/
structure InStep (s : Shelf) (inHand : Option (List TokenSpec)) : Prop where
  returns : ∀ line ∈ s.lines, '\r' ∉ line.toList
  inHand : ∀ tokens, inHand = some tokens → ∃ onDisk, s.tokens = some onDisk ∧
    onDisk.map TokenSpec.privatekey = tokens.map TokenSpec.privatekey

section Conserved
variable {s s' : Shelf}

theorem Shelf.KeysKept.refl (s : Shelf) : s.KeysKept s :=
  fun tokens htokens => ⟨tokens, htokens, List.forall₂_same.2 fun _ _ _ => rfl⟩

theorem keys_of_tokens (h : s.tokens = some tokens) : s.keys = ↑(keysOf tokens) + ↑s.lines := by
  rw [Shelf.keys, h]
  rfl

theorem keys_drawn (hreturns : ∀ line ∈ s.lines, '\r' ∉ line.toList)
    (htokens : s.tokens = some tokens) :
    (s.drawn tokens).keys = ↑(keysOf tokens) + ↑(s.lines.drop (needed tokens).length) := by
  have hdrawn : (s.drawn tokens).tokens = some tokens := htokens
  rw [keys_of_tokens hdrawn, Shelf.lines_drawn hreturns]

theorem keys_filled (hjson : TokenJson.RoundTrips)
    (hreturns : ∀ line ∈ s.lines, '\r' ∉ line.toList) (htokens : s.tokens = some tokens)
    (hlines : (needed tokens).length ≤ s.lines.length) :
    ((s.drawn tokens).withTokens (s.hydrated tokens)).keys = s.keys := by
  have hperm := (fills_hydrated hlines).keys_perm fun line hline =>
    Shelf.ne_empty_of_mem_lines (List.mem_of_mem_take hline)
  have hrest : ((s.drawn tokens).withTokens (s.hydrated tokens)).lines =
      s.lines.drop (needed tokens).length := Shelf.lines_drawn hreturns tokens
  rw [keys_of_tokens (Shelf.tokens_withTokens hjson _ _), hrest, keys_of_tokens htokens,
    Multiset.coe_add, Multiset.coe_add, Multiset.coe_eq_coe]
  have happend := hperm.append_right (s.lines.drop (needed tokens).length)
  rwa [List.append_assoc, List.take_append_drop] at happend

theorem Effects.inStep (h : Effects s call inHand res s' inHand') (hjson : TokenJson.RoundTrips)
    (hs : InStep s inHand) : InStep s' inHand' := by
  cases h with
  | loaded h =>
    cases h with
    | missing h => exact ⟨hs.returns, fun tokens h => by cases h⟩
    | @whole tokens htokens hneeded =>
      exact ⟨hs.returns, fun t h => ⟨tokens, htokens, congrArg _ (Option.some.inj h)⟩⟩
    | @filled tokens htokens hlines =>
      constructor
      · exact returns_drawn hs.returns tokens
      · intro t h
        obtain rfl := Option.some.inj h
        exact ⟨_, Shelf.tokens_withTokens hjson _ _, rfl⟩
  | notLoaded h =>
    cases h with
    | before => exact ⟨hs.returns, fun tokens h => by cases h⟩
    | between htokens hlines => exact ⟨returns_drawn hs.returns _, fun tokens h => by cases h⟩
  | marked hburn =>
    constructor
    · exact hs.returns
    · intro t h
      obtain rfl := Option.some.inj h
      exact ⟨_, Shelf.tokens_withTokens hjson _ _, rfl⟩
  | notMarked tokens idx =>
    constructor
    · exact hs.returns
    · intro t h
      obtain rfl := Option.some.inj h
      obtain ⟨onDisk, htokens, hkeys⟩ := hs.inHand tokens rfl
      exact ⟨onDisk, htokens, hkeys.trans (map_privatekey_getD_burn tokens idx).symm⟩

theorem keys_marked (hjson : TokenJson.RoundTrips) (hs : InStep s (some tokens))
    (hburn : burn tokens idx = some burnt) : (s.withTokens burnt).keys = s.keys := by
  obtain ⟨onDisk, htokens, hkeys⟩ := hs.inHand tokens rfl
  have hsame : keysOf burnt = keysOf onDisk := by
    rw [keysOf, keysOf, map_privatekey_burn hburn, hkeys]
  rw [keys_of_tokens (Shelf.tokens_withTokens hjson _ _), keys_of_tokens htokens, hsame]
  rfl

theorem Effects.keys (h : Effects s call inHand res s' inHand') (hjson : TokenJson.RoundTrips)
    (hs : InStep s inHand) : s'.keys ≤ s.keys ∧ (res = .ok () → s'.keys = s.keys) := by
  cases h with
  | loaded h =>
    have hsame : s'.keys = s.keys := by
      cases h with
      | missing h => rfl
      | whole htokens hneeded => rfl
      | filled htokens hlines => exact keys_filled hjson hs.returns htokens hlines
    exact ⟨le_of_eq hsame, fun _ => hsame⟩
  | notLoaded h =>
    constructor
    · cases h with
      | before => exact le_refl _
      | between htokens hlines =>
        rw [keys_drawn hs.returns htokens, keys_of_tokens htokens]
        apply Multiset.add_le_add_iff_left.2
        exact (List.drop_sublist _ _).subperm
    · intro hok
      cases hok
  | marked hburn =>
    have hsame := keys_marked hjson hs hburn
    exact ⟨le_of_eq hsame, fun _ => hsame⟩
  | notMarked tokens idx => exact ⟨le_refl _, fun _ => rfl⟩

theorem keysKept_filled (hjson : TokenJson.RoundTrips) (htokens : s.tokens = some tokens)
    (hlines : (needed tokens).length ≤ s.lines.length) :
    s.KeysKept ((s.drawn tokens).withTokens (s.hydrated tokens)) := by
  intro t ht
  obtain rfl := Option.some.inj (htokens.symm.trans ht)
  exact ⟨_, Shelf.tokens_withTokens hjson _ _, (fills_hydrated hlines).keeps⟩

theorem keysKept_marked (hjson : TokenJson.RoundTrips) (hs : InStep s (some tokens))
    (hburn : burn tokens idx = some burnt) : s.KeysKept (s.withTokens burnt) := by
  intro onDisk' htokens'
  obtain ⟨onDisk, htokens, hkeys⟩ := hs.inHand tokens rfl
  obtain rfl := Option.some.inj (htokens.symm.trans htokens')
  refine ⟨burnt, Shelf.tokens_withTokens hjson _ _, ?_⟩
  have hsame : List.Forall₂ (· = ·) (onDisk.map TokenSpec.privatekey)
      (burnt.map TokenSpec.privatekey) := by
    rw [hkeys, map_privatekey_burn hburn]
    exact List.forall₂_same.2 fun _ _ => rfl
  rw [List.forall₂_map_left_iff, List.forall₂_map_right_iff] at hsame
  exact hsame.imp fun t t' h _ => h.symm

theorem Effects.keysKept (h : Effects s call inHand res s' inHand')
    (hjson : TokenJson.RoundTrips) (hs : InStep s inHand) : s.KeysKept s' := by
  cases h with
  | loaded h =>
    cases h with
    | missing h => exact .refl s
    | whole htokens hneeded => exact .refl s
    | filled htokens hlines => exact keysKept_filled hjson htokens hlines
  | notLoaded h =>
    cases h with
    | before => exact .refl s
    | between htokens hlines => exact Shelf.KeysKept.refl s
  | marked hburn => exact keysKept_marked hjson hs hburn
  | notMarked tokens idx => exact .refl s

/-- A load that hands a roster out has filled it from the front of the pool. -/
structure Hydrates (s : Shelf) (tokens : List TokenSpec) (s' : Shelf)
    (tokens' : List TokenSpec) : Prop where
  fills : Fills tokens (s.lines.take (needed tokens).length) tokens'
  written : s'.tokens = some tokens'
  rest : s'.lines = s.lines.drop (needed tokens).length

theorem Effects.hydrates (h : Effects s (.loadAndHydrate env) inHand res s' (some tokens'))
    (hjson : TokenJson.RoundTrips) (hs : InStep s inHand) (htokens : s.tokens = some tokens) :
    Hydrates s tokens s' tokens' := by
  cases h with
  | loaded h =>
    cases h with
    | whole h hneeded =>
      obtain rfl := Option.some.inj (htokens.symm.trans h)
      constructor
      · rw [hneeded]
        exact fills_self hneeded
      · exact h
      · rw [hneeded]
        rfl
    | filled h hlines =>
      obtain rfl := Option.some.inj (htokens.symm.trans h)
      exact ⟨fills_hydrated hlines, Shelf.tokens_withTokens hjson _ _,
        Shelf.lines_drawn hs.returns tokens⟩

theorem Effects.too_short (h : Effects s (.loadAndHydrate env) inHand res s' inHand')
    (htokens : s.tokens = some tokens) (hshort : s.lines.length < (needed tokens).length) :
    s' = s ∧ inHand' = none ∧ (res = .ok () → ∃ t, env.statFails t = true) := by
  cases h with
  | loaded h =>
    cases h with
    | missing h =>
      refine ⟨rfl, rfl, fun _ => h.resolve_left ?_⟩
      intro hnone
      rw [Shelf.tokens, hnone] at htokens
      cases htokens
    | whole h hneeded =>
      obtain rfl := Option.some.inj (htokens.symm.trans h)
      rw [hneeded] at hshort
      exact absurd hshort (Nat.not_lt_zero _)
    | filled h hlines =>
      obtain rfl := Option.some.inj (htokens.symm.trans h)
      exact absurd hshort (not_lt.2 hlines)
  | notLoaded h =>
    cases h with
    | before =>
      refine ⟨rfl, rfl, fun hok => ?_⟩
      cases hok
    | between h hlines =>
      obtain rfl := Option.some.inj (htokens.symm.trans h)
      exact absurd hshort (not_lt.2 hlines)

end Conserved

theorem run_inStep (hjson : TokenJson.RoundTrips) {cacheDir keysDir : Path} {disk : Tree}
    (hreturns : ∀ line ∈ (shelf cacheDir keysDir disk).lines, '\r' ∉ line.toList)
    (hrun : Machine.run (next cacheDir keysDir) ⟨disk, none⟩ calls = some d) :
    InStep (shelf cacheDir keysDir d.disk) d.tokens ∧
      (shelf cacheDir keysDir d.disk).keys ≤ (shelf cacheDir keysDir disk).keys := by
  let inv (d : Desk) : Prop := InStep (shelf cacheDir keysDir d.disk) d.tokens ∧
    (shelf cacheDir keysDir d.disk).keys ≤ (shelf cacheDir keysDir disk).keys
  have hstep : ∀ {d call d'}, inv d → next cacheDir keysDir d call = some d' → inv d' := by
    intro d call d' hinv hnext
    obtain ⟨⟨res, d''⟩, hcall, rfl⟩ := Option.map_eq_some_iff.1 hnext
    have heffects := effects hcall
    constructor
    · exact heffects.inStep hjson hinv.1
    · exact (heffects.keys hjson hinv.1).1.trans hinv.2
  have hinit : inv ⟨disk, none⟩ := by
    constructor
    · exact ⟨hreturns, fun tokens h => by cases h⟩
    · exact le_refl _
  exact Machine.run_invariant inv hstep hinit hrun

/-- What a call keeps. -/
structure Conserves (s : Shelf) (call : Call) (res : Except Failure Unit) (s' : Shelf)
    (inHand : Option (List TokenSpec)) : Prop where
  keys : res = .ok () → s'.keys = s.keys
  kept : s.KeysKept s'
  hydrated : ∀ env tokens tokens', call = .loadAndHydrate env → s.tokens = some tokens →
    inHand = some tokens' → Hydrates s tokens s' tokens'
  /-- Without enough lines no roster is loaded and nothing is touched. -/
  tooShort : ∀ env tokens, call = .loadAndHydrate env → s.tokens = some tokens →
    s.lines.length < (needed tokens).length →
    s' = s ∧ inHand = none ∧ (res = .ok () → ∃ t, env.statFails t = true)

/-- A mint key is never in two places: after any calls the keys are among those that were there at
first, and a call that returns has lost none of them. Whoever had a key keeps it, and the others get
the lines of the pool in order, if there are enough. -/
theorem mint_keys_conserved (hjson : TokenJson.RoundTrips) (cacheDir keysDir : Path) (disk : Tree)
    (hreturns : ∀ line ∈ (shelf cacheDir keysDir disk).lines, '\r' ∉ line.toList)
    (hnodup : (shelf cacheDir keysDir disk).keys.Nodup)
    (hrun : Machine.run (next cacheDir keysDir) ⟨disk, none⟩ calls = some d) :
    ((shelf cacheDir keysDir d.disk).keys ≤ (shelf cacheDir keysDir disk).keys ∧
        (shelf cacheDir keysDir d.disk).keys.Nodup) ∧
      ∀ call res d', Call.run cacheDir keysDir d call = some (res, d') →
        Conserves (shelf cacheDir keysDir d.disk) call res (shelf cacheDir keysDir d'.disk)
          d'.tokens := by
  obtain ⟨hin, hkeys⟩ := run_inStep hjson hreturns hrun
  constructor
  · exact ⟨hkeys, Multiset.nodup_of_le hkeys hnodup⟩
  intro call res d' hcall
  have heffects := effects hcall
  constructor
  · exact (heffects.keys hjson hin).2
  · exact heffects.keysKept hjson hin
  · rintro env tokens tokens' rfl htokens hhand
    rw [hhand] at heffects
    exact heffects.hydrates hjson hin htokens
  · rintro env tokens rfl htokens hshort
    exact heffects.too_short htokens hshort

theorem exists_next_load (cacheDir keysDir : Path) (d : Desk) (env : Env) :
    ∃ d', next cacheDir keysDir d (.loadAndHydrate env) = some d' := by
  rw [next, Call.run]
  split <;> exact ⟨_, rfl⟩

theorem exists_run_loads (cacheDir keysDir : Path) (d : Desk) (envs : List Env) :
    ∃ d', Machine.run (next cacheDir keysDir) d (envs.map .loadAndHydrate) = some d' := by
  induction envs generalizing d with
  | nil => exact ⟨d, rfl⟩
  | cons env envs ih =>
    obtain ⟨d₁, hnext⟩ := exists_next_load cacheDir keysDir d env
    obtain ⟨d', hrun⟩ := ih d₁
    exact ⟨d', Option.bind_eq_some_iff.2 ⟨d₁, hnext, hrun⟩⟩

end Program

theorem keys_sampleDisk : @Shelf.keys rosterJson (shelf ["cache"] ["keys"] sampleDisk) =
    ↑(keysOf sampleTokens) + ↑sampleLines := by
  rw [@keys_of_tokens rosterJson _ _ tokens_sampleDisk, lines_sampleDisk]

def sampleLoads : List Env :=
  [(Env.calm 1700000000 (.replicate 32 1)).stopAt 9, .calm 1700000000 (.replicate 32 1)]

theorem mint_keys_conserved_sample :
    ∃ d, Machine.run (@next rosterJson ["cache"] ["keys"]) ⟨sampleDisk, none⟩
        (sampleLoads.map .loadAndHydrate) = some d ∧
      (@Shelf.keys rosterJson (shelf ["cache"] ["keys"] d.disk) ≤
          @Shelf.keys rosterJson (shelf ["cache"] ["keys"] sampleDisk) ∧
        (@Shelf.keys rosterJson (shelf ["cache"] ["keys"] d.disk)).Nodup) ∧
      ∀ call res d', @Call.run rosterJson ["cache"] ["keys"] d call = some (res, d') →
        @Conserves rosterJson (shelf ["cache"] ["keys"] d.disk) call res
          (shelf ["cache"] ["keys"] d'.disk) d'.tokens := by
  obtain ⟨d, hrun⟩ := @exists_run_loads rosterJson ["cache"] ["keys"] ⟨sampleDisk, none⟩ sampleLoads
  refine ⟨d, hrun, @mint_keys_conserved rosterJson _ d rosterJson_roundTrips ["cache"] ["keys"]
    sampleDisk ?_ ?_ hrun⟩
  · rw [lines_sampleDisk]
    decide +kernel
  · rw [keys_sampleDisk]
    decide +kernel

end TokenPumper.Tokens
