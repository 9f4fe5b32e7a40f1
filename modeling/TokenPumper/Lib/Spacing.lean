import Mathlib.Data.List.Chain

namespace Spacing
set_option autoImplicit true

/-- Two calls of a trace with no call between them. -/
structure Consecutive (isCall : ε → Bool) (trace : List ε) (a : ε) (mid : List ε) (b : ε) :
    Prop where
  first : isCall a = true
  last : isCall b = true
  between : ∀ e ∈ mid, isCall e = false
  split : ∃ before after, trace = before ++ a :: (mid ++ b :: after)

def Spaced (isCall : ε → Bool) (pause : ε) (fine : ε → Bool) (trace : List ε) : Prop :=
  ∀ a mid b, Consecutive isCall trace a mid b → pause ∈ mid ∨ fine a = true

/-- Two neighbours in a trace, as a relation that a chain can have. -/
def Apart (isCall : ε → Bool) (fine : ε → Bool) (a b : ε) : Prop :=
  isCall a = true → isCall b = true → fine a = true

variable {isCall fine : ε → Bool} {pause : ε} {trace : List ε}

theorem spaced_iff_isChain (hpause : ∀ e ∈ trace, isCall e = false → e = pause) :
    Spaced isCall pause fine trace ↔ trace.IsChain (Apart isCall fine) := by
  constructor
  · intro h
    rw [List.isChain_iff_forall_rel_of_append_cons_cons]
    intro a b before after heq ha hb
    have hcons : Consecutive isCall trace a [] b :=
      ⟨ha, hb, fun e he => absurd he List.not_mem_nil, before, after, heq⟩
    exact (h a [] b hcons).resolve_left List.not_mem_nil
  · intro h a mid b hcons
    obtain ⟨before, after, heq⟩ := hcons.split
    cases mid with
    | nil =>
      rw [List.isChain_iff_forall_rel_of_append_cons_cons] at h
      exact .inr (h heq hcons.first hcons.last)
    | cons m mid =>
      have hm : m ∈ trace := by
        rw [heq]
        simp
      have hm' := hpause m hm (hcons.between m List.mem_cons_self)
      exact .inl (hm' ▸ List.mem_cons_self)

end Spacing
