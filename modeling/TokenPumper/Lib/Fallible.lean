import Mathlib.Tactic.Common

namespace Fallible
set_option autoImplicit true

def context (msg : String) : Except String α → Except String α
  | .ok a => .ok a
  | .error cause => .error (msg ++ ": " ++ cause)

theorem context_eq_ok (h : context msg x = .ok a) : x = .ok a := by
  cases x with
  | ok a' => exact h
  | error e => cases h

theorem mapError_eq_ok {x : Except ε α} {g : ε → ε'} (h : x.mapError g = .ok a) : x = .ok a := by
  cases x with
  | ok b => exact congrArg Except.ok (Except.ok.inj h)
  | error e => cases h

theorem bind_eq_ok {x : Except ε α} {f : α → Except ε β} (h : x >>= f = .ok b) :
    ∃ a, x = .ok a ∧ f a = .ok b := by
  cases x with
  | ok a => exact ⟨a, rfl, h⟩
  | error e => cases h

theorem exists_of_isOk {x : Except ε α} (h : x.isOk = true) : ∃ a, x = .ok a := by
  cases x with
  | ok a => exact ⟨a, rfl⟩
  | error e => cases h

theorem bind_isOk {x : Except ε α} {f : α → Except ε β} (hx : ∃ a, x = .ok a)
    (hf : ∀ a, x = .ok a → ∃ b, f a = .ok b) : ∃ b, x >>= f = .ok b := by
  obtain ⟨a, rfl⟩ := hx
  exact hf a rfl

theorem context_isOk {x : Except String α} (h : ∃ a, x = .ok a) : ∃ a, context msg x = .ok a := by
  obtain ⟨a, rfl⟩ := h
  exact ⟨a, rfl⟩

theorem mapM_isOk {as : List α} {f : α → Except ε β} (h : ∀ a ∈ as, ∃ b, f a = .ok b) :
    ∃ bs, as.mapM f = .ok bs := by
  induction as with
  | nil => exact ⟨[], rfl⟩
  | cons a as ih =>
    rw [List.mapM_cons]
    apply bind_isOk (h a List.mem_cons_self)
    intro b _
    apply bind_isOk (ih fun a' ha' => h a' (List.mem_cons_of_mem a ha'))
    intro bs _
    exact ⟨b :: bs, rfl⟩

theorem isOk_of_mapM {as : List α} {f : α → Except ε β} (h : as.mapM f = .ok bs) :
    ∀ a ∈ as, ∃ b, f a = .ok b := by
  induction as generalizing bs with
  | nil => exact fun a ha => absurd ha List.not_mem_nil
  | cons a as ih =>
    rw [List.mapM_cons] at h
    obtain ⟨b, hb, h⟩ := bind_eq_ok h
    obtain ⟨bs', hbs, h⟩ := bind_eq_ok h
    exact List.forall_mem_cons.2 ⟨⟨b, hb⟩, ih hbs⟩

theorem mem_of_mapM {as : List α} {f : α → Option β} (h : as.mapM f = some bs) (hb : b ∈ bs) :
    ∃ a ∈ as, f a = some b := by
  induction as generalizing bs with
  | nil =>
    obtain rfl : [] = bs := Option.some.inj h
    cases hb
  | cons a as ih =>
    rw [List.mapM_cons] at h
    obtain ⟨b', hb', h⟩ := Option.bind_eq_some_iff.1 h
    obtain ⟨bs', hbs', h⟩ := Option.bind_eq_some_iff.1 h
    obtain rfl : b' :: bs' = bs := Option.some.inj h
    rcases List.mem_cons.1 hb with rfl | hmem
    · exact ⟨a, List.mem_cons_self, hb'⟩
    · obtain ⟨x, hx, hfx⟩ := ih hbs' hmem
      exact ⟨x, List.mem_cons_of_mem a hx, hfx⟩

theorem getElem?_of_mapM {as : List α} {f : α → Option β} (h : as.mapM f = some bs) (i : Nat) :
    bs[i]? = as[i]?.bind f := by
  induction as generalizing bs i with
  | nil =>
    obtain rfl : [] = bs := Option.some.inj h
    rfl
  | cons a as ih =>
    rw [List.mapM_cons] at h
    obtain ⟨b, hb, h⟩ := Option.bind_eq_some_iff.1 h
    obtain ⟨bs', hbs', h⟩ := Option.bind_eq_some_iff.1 h
    obtain rfl : b :: bs' = bs := Option.some.inj h
    cases i with
    | zero => exact hb.symm
    | succ i => exact ih hbs' i

theorem isSome_of_mapM {as : List α} {f : α → Option β} (h : as.mapM f = some bs) (ha : a ∈ as) :
    ∃ b, f a = some b := by
  induction as generalizing bs with
  | nil => cases ha
  | cons a' as ih =>
    rw [List.mapM_cons] at h
    obtain ⟨b, hb, h⟩ := Option.bind_eq_some_iff.1 h
    obtain ⟨bs', hbs', -⟩ := Option.bind_eq_some_iff.1 h
    rcases List.mem_cons.1 ha with rfl | hmem
    · exact ⟨b, hb⟩
    · exact ih hbs' hmem

end Fallible
