import Mathlib.Tactic.Common

namespace Effect
set_option autoImplicit true

/-- What has been changed before a failure stays changed. -/
def Eff (ρ σ ε α : Type) : Type := ρ → σ → Except ε α × σ

instance : Monad (Eff ρ σ ε) where
  pure a := fun _ s => (.ok a, s)
  bind x f := fun r s =>
    match x r s with
    | (.ok a, s') => f a r s'
    | (.error e, s') => (.error e, s')

def fail (e : ε) : Eff ρ σ ε α := fun _ s => (.error e, s)

def lift (x : Except ε α) : Eff ρ σ ε α := fun _ s => (x, s)

def surroundings : Eff ρ σ ε ρ := fun r s => (.ok r, s)

def current : Eff ρ σ ε σ := fun _ s => (.ok s, s)

def update (f : σ → σ) : Eff ρ σ ε Unit := fun _ s => (.ok (), f s)

def mapFailure (f : ε → ε) (x : Eff ρ σ ε α) : Eff ρ σ ε α := fun r s =>
  match x r s with
  | (.ok a, s') => (.ok a, s')
  | (.error e, s') => (.error (f e), s')

def each (f : α → Eff ρ σ ε β) : List α → Eff ρ σ ε (List β)
  | [] => pure []
  | a :: as => do
    let b ← f a
    let bs ← each f as
    pure (b :: bs)

def attempt (x : Eff ρ σ ε α) : Eff ρ σ ε (Except ε α) := fun r s => (.ok (x r s).1, (x r s).2)

/-- A program that is about the first part of the surroundings and of the state. -/
def onFirst (x : Eff ρ σ ε α) : Eff (ρ × ρ') (σ × σ') ε α := fun r s =>
  ((x r.1 s.1).1, ((x r.1 s.1).2, s.2))

/-- A program that is about the second part of the surroundings and of the state. -/
def onSecond (x : Eff ρ' σ' ε α) : Eff (ρ × ρ') (σ × σ') ε α := fun r s =>
  ((x r.2 s.2).1, (s.1, (x r.2 s.2).2))

section Runs
variable {r : ρ} {s s' : σ} {x : Eff ρ σ ε α} {f : α → Eff ρ σ ε β}

@[simp] theorem pure_run (a : α) : (pure a : Eff ρ σ ε α) r s = (.ok a, s) := rfl

theorem run_eq (h : (x r s).1 = res) : x r s = (res, (x r s).2) := by rw [← h]

theorem bind_run_ok (h : x r s = (.ok a, s')) : (x >>= f) r s = f a r s' := by
  change (match x r s with | (.ok a, s') => f a r s' | (.error e, s') => (.error e, s')) = _
  rw [h]

theorem bind_run_error (h : x r s = (.error e, s')) : (x >>= f) r s = (.error e, s') := by
  change (match x r s with | (.ok a, s') => f a r s' | (.error e, s') => (.error e, s')) = _
  rw [h]

theorem bind_run_eq_ok (h : (x >>= f) r s = (.ok b, s')) :
    ∃ a s₁, x r s = (.ok a, s₁) ∧ f a r s₁ = (.ok b, s') := by
  cases hx : x r s with
  | mk res s₁ =>
    cases res with
    | ok a => exact ⟨a, s₁, rfl, (bind_run_ok hx).symm.trans h⟩
    | error e => cases (bind_run_error hx).symm.trans h

theorem bind_assoc (x : Eff ρ σ ε α) (f : α → Eff ρ σ ε β) (g : β → Eff ρ σ ε γ) :
    (x >>= f >>= g) = (x >>= fun a => f a >>= g) := by
  funext r s
  cases hx : x r s with
  | mk res s₁ =>
    cases res with
    | error e => rw [bind_run_error (bind_run_error hx), bind_run_error hx]
    | ok a =>
      rw [bind_run_ok hx]
      cases hf : f a r s₁ with
      | mk res s₂ =>
        cases res with
        | error e => rw [bind_run_error ((bind_run_ok hx).trans hf), bind_run_error hf]
        | ok b => rw [bind_run_ok ((bind_run_ok hx).trans hf), bind_run_ok hf]

end Runs

/-- The program looks at nothing and changes nothing. -/
def Still (x : Eff ρ σ ε α) : Prop := ∃ res, x = lift res

namespace Still
variable {x : Eff ρ σ ε α} {f : α → Eff ρ σ ε β}

theorem pure (a : α) : Still (pure a : Eff ρ σ ε α) := ⟨.ok a, rfl⟩

theorem fail (e : ε) : Still (fail e : Eff ρ σ ε α) := ⟨.error e, rfl⟩

theorem lift (res : Except ε α) : Still (lift res : Eff ρ σ ε α) := ⟨res, rfl⟩

theorem bind (hx : Still x) (hf : ∀ a, Still (f a)) : Still (x >>= f) := by
  obtain ⟨res, rfl⟩ := hx
  cases res with
  | ok a => exact hf a
  | error e => exact ⟨.error e, rfl⟩

theorem run_eq_ok (hx : Still x) (h : x r s = (.ok a, s')) (r₁ : ρ) (s₁ : σ) :
    s' = s ∧ x r₁ s₁ = (.ok a, s₁) := by
  obtain ⟨res, rfl⟩ := hx
  obtain ⟨rfl, rfl⟩ := Prod.mk.inj h
  exact ⟨rfl, rfl⟩

end Still

/-- Of a result and the state that it comes with: one condition for a value, one for a failure. -/
def Post (Q : α → σ → Prop) (E : σ → Prop) : Except ε α × σ → Prop
  | (.ok a, s) => Q a s
  | (.error _, s) => E s

theorem Post.state {I : σ → Prop} {res : Except ε α × σ} (h : Post (fun _ => I) I res) :
    I res.2 := by
  obtain ⟨res, s⟩ := res
  cases res with
  | ok a => exact h
  | error e => exact h

/-- From a state with `P`, the program returns with `Q` or fails with `E`. -/
def Triple (r : ρ) (P : σ → Prop) (x : Eff ρ σ ε α) (Q : α → σ → Prop) (E : σ → Prop) : Prop :=
  ∀ s, P s → Post Q E (x r s)

/-- Whatever comes of it, the program keeps `I`. -/
def Keeps (r : ρ) (I : σ → Prop) (x : Eff ρ σ ε α) : Prop := Triple r I x (fun _ => I) I

section Rules
variable {r : ρ} {P P' I : σ → Prop} {Q Q' : α → σ → Prop} {R : β → σ → Prop} {E E' : σ → Prop}
  {x : Eff ρ σ ε α} {f : α → Eff ρ σ ε β}

theorem Triple.pure (h : ∀ s, P s → Q a s) : Triple r P (pure a : Eff ρ σ ε α) Q E := h

theorem Triple.fail (h : ∀ s, P s → E s) : Triple r P (fail e : Eff ρ σ ε α) Q E := h

theorem Triple.surroundings {Q : ρ → σ → Prop} (h : ∀ s, P s → Q r s) :
    Triple r P (surroundings : Eff ρ σ ε ρ) Q E := h

theorem Triple.update {g : σ → σ} {Q : Unit → σ → Prop} (h : ∀ s, P s → Q () (g s)) :
    Triple r P (update g : Eff ρ σ ε Unit) Q E := h

theorem Triple.lift {y : Except ε α} (hok : ∀ a, y = .ok a → ∀ s, P s → Q a s)
    (herr : ∀ s, P s → E s) : Triple r P (lift y : Eff ρ σ ε α) Q E := by
  intro s hs
  cases y with
  | ok a => exact hok a rfl s hs
  | error e => exact herr s hs

theorem Triple.bind (hx : Triple r P x Q E) (hf : ∀ a, Triple r (Q a) (f a) R E) :
    Triple r P (x >>= f) R E := by
  intro s hs
  have h := hx s hs
  cases hr : x r s with
  | mk res s' =>
    rw [hr] at h
    cases res with
    | ok a =>
      rw [bind_run_ok hr]
      exact hf a s' h
    | error e =>
      rw [bind_run_error hr]
      exact h

theorem Triple.conseq (h : Triple r P x Q E) (hp : ∀ s, P' s → P s)
    (hq : ∀ a s, Q a s → Q' a s) (he : ∀ s, E s → E' s) : Triple r P' x Q' E' := by
  intro s hs
  have hx := h s (hp s hs)
  cases hr : x r s with
  | mk res s' =>
    rw [hr] at hx
    cases res with
    | ok a => exact hq a s' hx
    | error e => exact he s' hx

theorem Triple.and (h : Triple r P x Q E) (h' : Triple r P' x Q' E') :
    Triple r (fun s => P s ∧ P' s) x (fun a s => Q a s ∧ Q' a s) fun s => E s ∧ E' s := by
  intro s hs
  have hx := h s hs.1
  have hx' := h' s hs.2
  cases hr : x r s with
  | mk res s' =>
    rw [hr] at hx hx'
    cases res with
    | ok a => exact ⟨hx, hx'⟩
    | error e => exact ⟨hx, hx'⟩

theorem Triple.mapFailure {g : ε → ε} (h : Triple r P x Q E) :
    Triple r P (mapFailure g x) Q E := by
  intro s hs
  have hx := h s hs
  rw [Effect.mapFailure]
  cases hr : x r s with
  | mk res s' =>
    rw [hr] at hx
    cases res with
    | ok a => exact hx
    | error e => exact hx

theorem Triple.of_always (hq : ∀ a s, Q a s) (he : ∀ s, E s) : Triple r P x Q E := by
  intro s _
  cases hr : x r s with
  | mk res s' =>
    cases res with
    | ok a => exact hq a s'
    | error e => exact he s'

theorem Triple.assume {φ : Prop} (h : φ → Triple r P x Q E) : Triple r (fun s => P s ∧ φ) x Q E :=
  fun s hs => h hs.2 s hs.1

theorem Triple.still (hx : Still x) (h : ∀ s, P s → E s) : Triple r P x (fun _ => P) E := by
  obtain ⟨res, rfl⟩ := hx
  exact Triple.lift (fun _ _ _ hs => hs) h

theorem Triple.attempt {Q : Except ε α → σ → Prop} (h : Triple r P x (fun a => Q (.ok a)) fun s =>
    ∀ e, Q (.error e) s) : Triple r P (attempt x) Q E := by
  intro s hs
  have hx := h s hs
  rw [Effect.attempt]
  cases hr : x r s with
  | mk res s' =>
    rw [hr] at hx
    cases res with
    | ok a => exact hx
    | error e => exact hx e

section Parts
variable {R : τ → Prop} {r : ρ × ρ'}

theorem Triple.onFirst (h : Triple r.1 P x Q E) (R : τ → Prop) :
    Triple r (fun s => P s.1 ∧ R s.2) (onFirst x) (fun a s => Q a s.1 ∧ R s.2)
      (fun s => E s.1 ∧ R s.2) := by
  intro s hs
  have hx := h s.1 hs.1
  rw [Effect.onFirst]
  cases hr : x r.1 s.1 with
  | mk res s' =>
    rw [hr] at hx
    cases res with
    | ok a => exact ⟨hx, hs.2⟩
    | error e => exact ⟨hx, hs.2⟩

theorem Triple.onSecond {r : ρ' × ρ} (h : Triple r.2 P x Q E) (R : τ → Prop) :
    Triple r (fun s => R s.1 ∧ P s.2) (onSecond x) (fun a s => R s.1 ∧ Q a s.2)
      (fun s => R s.1 ∧ E s.2) := by
  intro s hs
  have hx := h s.2 hs.2
  rw [Effect.onSecond]
  cases hr : x r.2 s.2 with
  | mk res s' =>
    rw [hr] at hx
    cases res with
    | ok a => exact ⟨hs.1, hx⟩
    | error e => exact ⟨hs.1, hx⟩

end Parts

theorem Triple.returns (h : Triple r P x Q fun _ => False) (hs : P s) :
    ∃ a s', x r s = (.ok a, s') ∧ Q a s' := by
  have hx := h s hs
  cases hr : x r s with
  | mk res s' =>
    rw [hr] at hx
    cases res with
    | ok a => exact ⟨a, s', rfl, hx⟩
    | error e => exact absurd hx id

theorem Triple.of_run (h : Triple r (· = s) x Q E) :
    Triple r (· = s) x (fun a s' => Q a s' ∧ x r s = (.ok a, s')) E := by
  rintro s rfl
  have hx := h s rfl
  cases hr : x r s with
  | mk res s' =>
    rw [hr] at hx
    cases res with
    | ok a => exact ⟨hx, rfl⟩
    | error e => exact hx

theorem Triple.outcome (h : Triple r P x Q E) :
    Triple r P x (fun a s' => Q a s' ∧ ∃ s, x r s = (.ok a, s')) E := by
  intro s hs
  have hx := h s hs
  cases hr : x r s with
  | mk res s' =>
    rw [hr] at hx
    cases res with
    | ok a => exact ⟨hx, s, hr⟩
    | error e => exact hx

theorem Triple.bind_current {g : σ → Eff ρ σ ε β}
    (h : ∀ s, P s → Triple r (fun s' => s' = s) (g s) R E) :
    Triple r P (Effect.current >>= g) R E :=
  fun s hs => h s hs s rfl

theorem Triple.fail_at {s : σ} (h : E s) :
    Triple r (fun s' => s' = s) (Effect.fail e : Eff ρ σ ε α) Q E := by
  rintro s' rfl
  exact h

theorem Keeps.pure : Keeps r I (pure a : Eff ρ σ ε α) := Triple.pure fun _ h => h

theorem Keeps.fail : Keeps r I (fail e : Eff ρ σ ε α) := Triple.fail fun _ h => h

theorem Keeps.lift {y : Except ε α} : Keeps r I (lift y : Eff ρ σ ε α) :=
  Triple.lift (fun _ _ _ h => h) fun _ h => h

theorem Keeps.bind (hx : Keeps r I x) (hf : ∀ a, Keeps r I (f a)) : Keeps r I (x >>= f) :=
  Triple.bind hx hf

theorem Keeps.mapFailure {g : ε → ε} (h : Keeps r I x) : Keeps r I (mapFailure g x) :=
  Triple.mapFailure h

theorem Triple.each {f : α → Eff ρ σ ε β} (done : List α → List β → σ → Prop)
    (hstep : ∀ as a rest bs, xs = as ++ a :: rest →
      Triple r (done as bs) (f a) (fun b => done (as ++ [a]) (bs ++ [b])) E) :
    Triple r (done [] []) (each f xs) (fun bs => done xs bs) E := by
  have hall : ∀ rest as bs, xs = as ++ rest →
      Triple r (done as bs) (Effect.each f rest) (fun cs => done xs (bs ++ cs)) E := by
    intro rest
    induction rest with
    | nil =>
      rintro as bs rfl
      apply Triple.pure
      intro s hs
      simpa using hs
    | cons a rest ih =>
      intro as bs hxs
      apply Triple.bind (hstep as a rest bs hxs)
      intro b
      apply Triple.bind (ih (as ++ [a]) (bs ++ [b]) (by simpa using hxs))
      intro cs
      apply Triple.pure
      intro s hs
      simpa using hs
  simpa using hall xs [] [] rfl

end Rules

end Effect
