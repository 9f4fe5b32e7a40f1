import Mathlib.Data.List.Basic

namespace Streak
set_option autoImplicit true

theorem shift_injective {α : Type} :
    Function.Injective (fun (i, a) => (i + k, a) : Nat × α → Nat × α) := by
  intro ⟨i, a⟩ ⟨j, b⟩ heq
  obtain ⟨hij, rfl⟩ := Prod.mk.inj heq
  rw [Nat.add_right_cancel hij]

theorem shift_shift {α : Type} (k : Nat) (r : Option (Nat × α)) :
    (r.map fun (i, a) => (i + 1, a)).map (fun (i, a) => (i + k, a)) =
      r.map fun (i, a) => (i + (k + 1), a) := by
  rw [Option.map_map]
  apply Option.map_congr
  intro p _
  obtain ⟨i, a⟩ := p
  simp only [Function.comp_apply, Prod.mk.injEq, and_true]
  omega

variable {α : Type} [DecidableEq α]

/-- How often a value stands at the end of a list, without another one in between. -/
def streak (a : α) (xs : List α) : Nat := (xs.reverse.takeWhile fun b => decide (b = a)).length

@[simp] theorem streak_nil (a : α) : streak a [] = 0 := rfl

theorem streak_concat_self (a : α) (xs : List α) : streak a (xs ++ [a]) = streak a xs + 1 := by
  simp [streak]

theorem streak_concat_of_ne {a b : α} (h : b ≠ a) (xs : List α) : streak a (xs ++ [b]) = 0 := by
  simp [streak, h]

theorem replicate_prefix_iff (a : α) (xs : List α) :
    List.replicate n a <+: xs ↔ n ≤ (xs.takeWhile fun b => decide (b = a)).length := by
  induction xs generalizing n with
  | nil =>
    rw [List.takeWhile_nil, List.prefix_nil, List.replicate_eq_nil_iff]
    exact Nat.le_zero.symm
  | cons b xs ih =>
    cases n with
    | zero => simp
    | succ n =>
      rw [List.replicate_succ, List.cons_prefix_cons, ih]
      by_cases hb : b = a
      · subst hb
        simp
      · have hb' : ¬a = b := fun h => hb h.symm
        simp [hb, hb']

theorem replicate_suffix_iff (a : α) (xs : List α) :
    List.replicate n a <:+ xs ↔ n ≤ streak a xs := by
  rw [← List.reverse_prefix, List.reverse_replicate, replicate_prefix_iff, streak]

theorem replicate_infix_concat_iff (a b : α) (xs : List α) :
    List.replicate n a <:+: xs ++ [b] ↔
      List.replicate n a <:+: xs ∨ n ≤ streak a (xs ++ [b]) := by
  rw [List.infix_concat_iff, replicate_suffix_iff, or_comm]

theorem replicate_infix_of_le_streak {a : α} {xs : List α} (h : n ≤ streak a xs) :
    List.replicate n a <:+: xs :=
  ((replicate_suffix_iff a xs).2 h).isInfix

theorem eq_of_streak_concat_pos {a b : α} {xs : List α} (h : 0 < streak a (xs ++ [b])) : b = a := by
  by_contra hb
  rw [streak_concat_of_ne hb] at h
  exact Nat.lt_irrefl 0 h

/-- How often a value stands at the head of a list, without another one in between. -/
def lead (a : α) (xs : List α) : Nat := (xs.takeWhile fun b => decide (b = a)).length

@[simp] theorem lead_nil (a : α) : lead a [] = 0 := rfl

theorem lead_cons_self (a : α) (xs : List α) : lead a (a :: xs) = lead a xs + 1 := by
  simp [lead]

theorem lead_cons_of_ne {a b : α} (h : b ≠ a) (xs : List α) : lead a (b :: xs) = 0 := by
  simp [lead, h]

def push (f : α → Nat) (a : α) : α → Nat := fun b => if b = a then f a + 1 else 0

theorem push_self (f : α → Nat) (a : α) : push f a a = f a + 1 := if_pos rfl

theorem push_of_ne {a b : α} (h : b ≠ a) (f : α → Nat) : push f a b = 0 := if_neg h

theorem push_streak (xs : List α) (a : α) :
    push (fun b => streak b xs) a = fun b => streak b (xs ++ [a]) := by
  funext b
  by_cases hb : b = a
  · rw [hb, push_self, streak_concat_self]
  · rw [push_of_ne hb, streak_concat_of_ne (Ne.symm hb)]

theorem foldl_push_streak (xs ys : List α) :
    ys.foldl push (fun b => streak b xs) = fun b => streak b (xs ++ ys) := by
  induction ys generalizing xs with
  | nil => rw [List.foldl_nil, List.append_nil]
  | cons y ys ih => rw [List.foldl_cons, push_streak, ih, List.append_assoc, List.singleton_append]

/-- Where the streak of a wanted value first gets to `n`, and which value that is. The streaks so
far are given, and there are gaps between the values. -/
def firstRun (wanted : α → Bool) (n : Nat) : (α → Nat) → List (Option α) → Option (Nat × α)
  | _, [] => none
  | f, none :: xs => (firstRun wanted n f xs).map fun (i, a) => (i + 1, a)
  | f, some a :: xs =>
    if wanted a = true ∧ n ≤ f a + 1 then some (0, a)
    else (firstRun wanted n (push f a) xs).map fun (i, a) => (i + 1, a)

variable {wanted : α → Bool} {f g : α → Nat}

theorem firstRun_lt (h : firstRun wanted n f xs = some r) : r.1 < xs.length := by
  induction xs generalizing f r with
  | nil => cases h
  | cons x xs ih =>
    cases x with
    | none =>
      obtain ⟨r', hr', rfl⟩ := Option.map_eq_some_iff.1 h
      exact Nat.succ_lt_succ (ih hr')
    | some x =>
      rw [firstRun] at h
      split at h
      · obtain rfl := Option.some.inj h
        exact Nat.succ_pos _
      · obtain ⟨r', hr', rfl⟩ := Option.map_eq_some_iff.1 h
        exact Nat.succ_lt_succ (ih hr')

theorem firstRun_append_of_some (h : firstRun wanted n f xs = some r) (ys : List (Option α)) :
    firstRun wanted n f (xs ++ ys) = some r := by
  induction xs generalizing f r with
  | nil => cases h
  | cons x xs ih =>
    cases x with
    | none =>
      obtain ⟨r', hr', rfl⟩ := Option.map_eq_some_iff.1 h
      rw [List.cons_append, firstRun, ih hr']
      rfl
    | some x =>
      rw [firstRun] at h
      rw [List.cons_append, firstRun]
      split at h
      · rename_i hx
        rw [if_pos hx, h]
      · rename_i hx
        obtain ⟨r', hr', rfl⟩ := Option.map_eq_some_iff.1 h
        rw [if_neg hx, ih hr']
        rfl

/-- Without a run in the front part, the search goes on behind it with the streaks it leaves. -/
theorem firstRun_append_of_none (h : firstRun wanted n f xs = none) (ys : List (Option α)) :
    firstRun wanted n f (xs ++ ys) =
      (firstRun wanted n ((xs.filterMap id).foldl push f) ys).map
        fun (i, a) => (i + xs.length, a) := by
  induction xs generalizing f with
  | nil => exact Option.map_id'.symm
  | cons x xs ih =>
    have hadd (r : Option (Nat × α)) : (r.map fun (i, a) => (i + xs.length, a)).map
        (fun (i, a) => (i + 1, a)) = r.map fun (i, a) => (i + (xs.length + 1), a) := by
      rw [Option.map_map]
      rfl
    cases x with
    | none =>
      rw [firstRun, Option.map_eq_none_iff] at h
      rw [List.cons_append, firstRun, ih h, hadd]
      rfl
    | some x =>
      rw [firstRun] at h
      split at h
      · cases h
      · rename_i hx
        rw [Option.map_eq_none_iff] at h
        rw [List.cons_append, firstRun, if_neg hx, ih h, hadd]
        rfl

theorem push_lt (hf : ∀ a, wanted a = true → f a < n) (hx : ¬(wanted x = true ∧ n ≤ f x + 1)) :
    ∀ a, wanted a = true → push f x a < n := by
  intro a ha
  by_cases hax : a = x
  · subst hax
    rw [push_self]
    exact Nat.lt_of_not_le fun hle => hx ⟨ha, hle⟩
  · rw [push_of_ne hax]
    exact Nat.lt_of_le_of_lt (Nat.zero_le _) (hf a ha)

theorem foldl_push_lt (h : firstRun wanted n f xs = none) (hf : ∀ a, wanted a = true → f a < n) :
    ∀ a, wanted a = true → (xs.filterMap id).foldl push f a < n := by
  induction xs generalizing f with
  | nil => exact hf
  | cons x xs ih =>
    cases x with
    | none =>
      rw [firstRun, Option.map_eq_none_iff] at h
      exact ih h hf
    | some x =>
      rw [firstRun] at h
      split at h
      · cases h
      · rename_i hx
        rw [Option.map_eq_none_iff] at h
        exact ih h (push_lt hf hx)

/-- Two pasts disagree about a streak that the head of the list makes long enough. -/
def Disagree (wanted : α → Bool) (n : Nat) (f g : α → Nat) (xs : List α) : Prop :=
  ∃ a, wanted a = true ∧ f a ≠ g a ∧ n ≤ max (f a) (g a) + lead a xs

theorem disagree_cons (hf : ∀ a, wanted a = true → f a < n) (hg : ∀ a, wanted a = true → g a < n) :
    Disagree wanted n f g (x :: xs) ↔
      wanted x = true ∧ f x ≠ g x ∧ n ≤ max (f x) (g x) + (lead x xs + 1) := by
  constructor
  · intro ⟨a, ha, hne, hle⟩
    by_cases hax : a = x
    · subst hax
      rw [lead_cons_self] at hle
      exact ⟨ha, hne, hle⟩
    · have h1 := hf a ha
      have h2 := hg a ha
      rw [lead_cons_of_ne (Ne.symm hax)] at hle
      omega
  · intro ⟨hx, hne, hle⟩
    exact ⟨x, hx, hne, by rwa [lead_cons_self]⟩

theorem disagree_push :
    Disagree wanted n (push f x) (push g x) xs ↔
      wanted x = true ∧ f x ≠ g x ∧ n ≤ max (f x) (g x) + (lead x xs + 1) := by
  constructor
  · intro ⟨a, ha, hne, hle⟩
    by_cases hax : a = x
    · subst hax
      rw [push_self, push_self] at hne hle
      exact ⟨ha, by omega, by omega⟩
    · exact absurd ((push_of_ne hax f).trans (push_of_ne hax g).symm) hne
  · intro ⟨hx, hne, hle⟩
    refine ⟨x, hx, ?_, ?_⟩
    · rw [push_self, push_self]
      omega
    · rw [push_self, push_self]
      omega

theorem firstRun_eq_iff (hf : ∀ a, wanted a = true → f a < n)
    (hg : ∀ a, wanted a = true → g a < n) :
    firstRun wanted n f xs = firstRun wanted n g xs ↔
      ¬Disagree wanted n f g (xs.filterMap id) := by
  induction xs generalizing f g with
  | nil =>
    apply iff_of_true rfl
    intro ⟨a, ha, _, hle⟩
    have h1 := hf a ha
    have h2 := hg a ha
    rw [List.filterMap_nil, lead_nil] at hle
    omega
  | cons x xs ih =>
    cases x with
    | none =>
      rw [firstRun, firstRun, (Option.map_injective shift_injective).eq_iff, ih hf hg]
      rfl
    | some x =>
      have hne0 (r : Option (Nat × α)) : some (0, x) ≠ r.map fun (i, a) => (i + 1, a) := by
        intro h
        obtain ⟨⟨j, b⟩, -, hj⟩ := Option.map_eq_some_iff.1 h.symm
        cases hj
      have hcons : Disagree wanted n f g ((some x :: xs).filterMap id) ↔ _ := disagree_cons hf hg
      rw [hcons, firstRun, firstRun]
      by_cases hfx : wanted x = true ∧ n ≤ f x + 1
      · have hflt := hf x hfx.1
        have hglt := hg x hfx.1
        by_cases hgx : wanted x = true ∧ n ≤ g x + 1
        · rw [if_pos hfx, if_pos hgx]
          apply iff_of_true rfl
          intro h
          exact h.2.1 (by omega)
        · rw [if_pos hfx, if_neg hgx]
          apply iff_of_false (hne0 _)
          intro h
          apply h
          refine ⟨hfx.1, fun heq => hgx (heq ▸ hfx), by omega⟩
      · by_cases hgx : wanted x = true ∧ n ≤ g x + 1
        · rw [if_neg hfx, if_pos hgx]
          apply iff_of_false fun h => hne0 _ h.symm
          intro h
          apply h
          refine ⟨hgx.1, fun heq => hfx (heq ▸ hgx), by omega⟩
        · rw [if_neg hfx, if_neg hgx, (Option.map_injective shift_injective).eq_iff,
            ih (push_lt hf hfx) (push_lt hg hgx), disagree_push]

end Streak
