import Mathlib.Data.List.Basic

namespace Machine
set_option autoImplicit true

section Outputs
variable (step : σ → ε → Option (σ × List ο))

/-- What each event put out. An event that cannot happen in its state ends the run. -/
def outputs : σ → List ε → List (List ο)
  | _, [] => []
  | s, e :: es =>
    match step s e with
    | none => []
    | some (s', out) => out :: outputs s' es

end Outputs

section Run
variable (next : σ → ε → Option σ)

/-- The state after a sequence of events, if each of them can happen where it does. -/
def run : σ → List ε → Option σ
  | s, [] => some s
  | s, e :: es => (next s e).bind fun s' => run s' es

variable {next} {s s' : σ}

/-- A fact about the past events and the state that every step keeps holds after a run. -/
theorem run_induction (holds : List ε → σ → Prop) (past : List ε)
    (hstep : ∀ {past s e s'}, holds past s → next s e = some s' → holds (past ++ [e]) s')
    (hs : holds past s) (h : run next s es = some s') : holds (past ++ es) s' := by
  induction es generalizing past s with
  | nil =>
    obtain rfl := Option.some.inj h
    rwa [List.append_nil]
  | cons e es ih =>
    obtain ⟨s₁, he, hrun⟩ := Option.bind_eq_some_iff.1 h
    have hrest := ih _ (hstep hs he) hrun
    rwa [List.append_assoc] at hrest

theorem run_invariant (inv : σ → Prop) (hstep : ∀ {s e s'}, inv s → next s e = some s' → inv s')
    (hs : inv s) (h : run next s es = some s') : inv s' :=
  run_induction (fun _ => inv) [] hstep hs h

/-- Every event of the sequence is fine in the state where it happens. -/
def Along (next : σ → ε → Option σ) (fine : σ → ε → Prop) : σ → List ε → Prop
  | _, [] => True
  | s, e :: es => fine s e ∧ ∀ s', next s e = some s' → Along next fine s' es

theorem Along.and {ok : ε → Prop} (h : Along next fine s es) (hall : ∀ e ∈ es, ok e) :
    Along next (fun s e => fine s e ∧ ok e) s es := by
  induction es generalizing s with
  | nil => trivial
  | cons e es ih =>
    constructor
    · exact ⟨h.1, hall e (List.mem_cons_self ..)⟩
    · intro s' he
      exact ih (h.2 s' he) fun e' he' => hall e' (List.mem_cons_of_mem _ he')

theorem run_invariant_along (inv : σ → Prop)
    (hstep : ∀ {s e s'}, inv s → fine s e → next s e = some s' → inv s')
    (hfine : Along next fine s es) (hs : inv s) (h : run next s es = some s') : inv s' := by
  induction es generalizing s with
  | nil =>
    obtain rfl := Option.some.inj h
    exact hs
  | cons e es ih =>
    obtain ⟨s₁, he, hrun⟩ := Option.bind_eq_some_iff.1 h
    exact ih (hfine.2 s₁ he) (hstep hs hfine.1 he) hrun

theorem exists_of_not_along (hnot : ¬ Along next fine s es) (h : run next s es = some s') :
    ∃ before e after s₁ s₂, run next s before = some s₁ ∧ ¬ fine s₁ e ∧ next s₁ e = some s₂ ∧
      run next s₂ after = some s' := by
  induction es generalizing s with
  | nil => exact absurd trivial hnot
  | cons e es ih =>
    obtain ⟨s₁, he, hrun⟩ := Option.bind_eq_some_iff.1 h
    by_cases hfine : fine s e
    · have hrest : ¬ Along next fine s₁ es := by
        intro hrest
        apply hnot
        constructor
        · exact hfine
        · intro s₂ he₂
          obtain rfl := Option.some.inj (he.symm.trans he₂)
          exact hrest
      obtain ⟨before, e', after, s₂, s₃, hbefore, hrest⟩ := ih hrest hrun
      apply Exists.intro (e :: before)
      exact ⟨e', after, s₂, s₃, Option.bind_eq_some_iff.2 ⟨s₁, he, hbefore⟩, hrest⟩
    · exact ⟨[], e, es, s, s₁, rfl, hfine, he, hrun⟩

end Run

variable {step : σ → ε → Option (σ × List ο)}

/-- A fact about the state and the events so far that every step keeps holds at each event of a
run. -/
theorem outputs_getElem? (holds : List ε → σ → Prop) (past : List ε)
    (hstep : ∀ {past s e s' out}, holds past s → step s e = some (s', out) →
      holds (past ++ [e]) s')
    (hs : holds past s) (hi : (outputs step s es)[i]? = some out) :
    ∃ s₁ e s₂, holds (past ++ es.take i) s₁ ∧ es[i]? = some e ∧ step s₁ e = some (s₂, out) := by
  induction es generalizing past s i with
  | nil => simp [outputs] at hi
  | cons e es ih =>
    rw [outputs] at hi
    cases he : step s e with
    | none => simp [he] at hi
    | some res =>
      obtain ⟨s', first⟩ := res
      rw [he] at hi
      cases i with
      | zero =>
        obtain rfl : first = out := by simpa using hi
        exact ⟨s, e, s', by simpa using hs, rfl, he⟩
      | succ i =>
        obtain ⟨s₁, e₁, s₂, h₁, he₁, hout⟩ := ih _ (hstep hs he) (by simpa using hi)
        refine ⟨s₁, e₁, s₂, ?_, by simpa using he₁, hout⟩
        simpa using h₁

/-- What every step keeps true of the state, and lets it put out, holds of the whole run. -/
theorem outputs_forall (holds : σ → Prop) (fine : ο → Prop)
    (hstep : ∀ {s e s' out}, holds s → step s e = some (s', out) →
      holds s' ∧ ∀ o ∈ out, fine o)
    (hs : holds s) : ∀ o ∈ (outputs step s es).flatten, fine o := by
  intro o ho
  obtain ⟨out, hout, ho⟩ := List.mem_flatten.1 ho
  obtain ⟨i, hi⟩ := List.mem_iff_getElem?.1 hout
  obtain ⟨s₁, e, s₂, h₁, -, he⟩ := outputs_getElem? (fun _ => holds) []
    (fun h he => (hstep h he).1) hs hi
  exact (hstep h₁ he).2 o ho

def after (step : σ → ε → Option (σ × List ο)) (s : σ) (e : ε) : Option σ :=
  (step s e).map Prod.fst

/-- Whatever is put out, one of the events has put out in a state with the invariant. -/
theorem exists_of_mem_outputs (holds : σ → Prop)
    (hstep : ∀ {s e s' out}, holds s → step s e = some (s', out) → holds s') (hs : holds s)
    (ho : o ∈ (outputs step s es).flatten) :
    ∃ s₁ e s₂ out, holds s₁ ∧ e ∈ es ∧ step s₁ e = some (s₂, out) ∧ o ∈ out := by
  obtain ⟨out, hout, ho⟩ := List.mem_flatten.1 ho
  obtain ⟨i, hi⟩ := List.mem_iff_getElem?.1 hout
  obtain ⟨s₁, e, s₂, h₁, hei, he⟩ := outputs_getElem? (fun _ => holds) [] hstep hs hi
  exact ⟨s₁, e, s₂, out, h₁, List.mem_of_getElem? hei, he, ho⟩

theorem countP_outputs_le (p : ο → Bool) (budget : σ → Nat)
    (hstep : ∀ {s e s' out}, step s e = some (s', out) → out.countP p + budget s' ≤ budget s) :
    ((outputs step s es).flatten).countP p ≤ budget s := by
  induction es generalizing s with
  | nil => exact Nat.zero_le _
  | cons e es ih =>
    rw [outputs]
    cases he : step s e with
    | none => exact Nat.zero_le _
    | some res =>
      obtain ⟨s', out⟩ := res
      have hout := hstep he
      have hrest := ih (s := s')
      rw [List.flatten_cons, List.countP_append]
      omega

/-- A machine that does step by step what another one does puts out what the other one does, as it
shows in it. -/
theorem outputs_simulation {step' : τ → δ → Option (τ × List π)} (rel : σ → τ → Prop)
    (event : ε → δ) (shown : π → Option ο)
    (hstep : ∀ {s t} e, rel s t → (step s e = none ∧ step' t (event e) = none) ∨
      ∃ s' t' out, step s e = some (s', out.filterMap shown) ∧
        step' t (event e) = some (t', out) ∧ rel s' t')
    (h : rel s t) :
    outputs step s es = (outputs step' t (es.map event)).map (List.filterMap shown) := by
  induction es generalizing s t with
  | nil => rfl
  | cons e es ih =>
    rw [List.map_cons, outputs, outputs]
    rcases hstep e h with ⟨hs, ht⟩ | ⟨s', t', out, hs, ht, hrel⟩
    · rw [hs, ht]
      rfl
    · rw [hs, ht]
      dsimp only
      rw [List.map_cons, ih hrel]

/-- Two machines side by side. An event is for one of them and leaves the other one alone. -/
def beside (left : σ → ε → Option (σ × List ο)) (right : τ → δ → Option (τ × List π)) :
    σ × τ → ε ⊕ δ → Option ((σ × τ) × List (ο ⊕ π))
  | (s, t), .inl e => (left s e).map fun (s', out) => ((s', t), out.map .inl)
  | (s, t), .inr d => (right t d).map fun (t', out) => ((s, t'), out.map .inr)

theorem filterMap_inl (out : List ο) :
    (out.map (.inl : ο → ο ⊕ π)).filterMap Sum.getLeft? = out ∧
      (out.map (.inl : ο → ο ⊕ π)).filterMap Sum.getRight? = [] := by
  rw [List.filterMap_map, List.filterMap_map]
  exact ⟨List.filterMap_some, List.filterMap_none out⟩

theorem filterMap_inr (out : List π) :
    (out.map (.inr : π → ο ⊕ π)).filterMap Sum.getLeft? = [] ∧
      (out.map (.inr : π → ο ⊕ π)).filterMap Sum.getRight? = out := by
  rw [List.filterMap_map, List.filterMap_map]
  exact ⟨List.filterMap_none out, List.filterMap_some⟩

/-- However their events are mixed, each of two machines does what it does on its own. -/
theorem outputs_beside (left : σ → ε → Option (σ × List ο)) (right : τ → δ → Option (τ × List π))
    (es : List (ε ⊕ δ)) (s : σ) (t : τ) :
    ∃ as ds, as <+: es.filterMap Sum.getLeft? ∧ ds <+: es.filterMap Sum.getRight? ∧
      (outputs (beside left right) (s, t) es).flatten.filterMap Sum.getLeft? =
        (outputs left s as).flatten ∧
      (outputs (beside left right) (s, t) es).flatten.filterMap Sum.getRight? =
        (outputs right t ds).flatten := by
  induction es generalizing s t with
  | nil => exact ⟨[], [], List.nil_prefix, List.nil_prefix, rfl, rfl⟩
  | cons e es ih =>
    rw [outputs]
    cases e with
    | inl e =>
      cases he : left s e with
      | none =>
        rw [beside, he]
        exact ⟨[], [], List.nil_prefix, List.nil_prefix, rfl, rfl⟩
      | some res =>
        obtain ⟨s', out⟩ := res
        obtain ⟨as, ds, has, hds, hleft, hright⟩ := ih s' t
        refine ⟨e :: as, ds, ?_, hds, ?_, ?_⟩
        · exact (List.prefix_cons_inj e).2 has
        · rw [beside, he, outputs, he]
          simp only [Option.map_some, List.flatten_cons, List.filterMap_append, hleft,
            (filterMap_inl out).1]
        · rw [beside, he]
          simp only [Option.map_some, List.flatten_cons, List.filterMap_append, hright,
            (filterMap_inl out).2, List.nil_append]
    | inr d =>
      cases hd : right t d with
      | none =>
        rw [beside, hd]
        exact ⟨[], [], List.nil_prefix, List.nil_prefix, rfl, rfl⟩
      | some res =>
        obtain ⟨t', out⟩ := res
        obtain ⟨as, ds, has, hds, hleft, hright⟩ := ih s t'
        refine ⟨as, d :: ds, has, ?_, ?_, ?_⟩
        · exact (List.prefix_cons_inj d).2 hds
        · rw [beside, hd]
          simp only [Option.map_some, List.flatten_cons, List.filterMap_append, hleft,
            (filterMap_inr out).1, List.nil_append]
        · rw [beside, hd, outputs, hd]
          simp only [Option.map_some, List.flatten_cons, List.filterMap_append, hright,
            (filterMap_inr out).2]

end Machine
