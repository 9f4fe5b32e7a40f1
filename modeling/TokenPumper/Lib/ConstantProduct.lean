import Mathlib.Tactic.Common
import Mathlib.Order.Bounds.Defs

namespace ConstantProduct
set_option autoImplicit true

/-- What `s` of the first asset buys, rounded down. -/
def amountOut (x y s : Nat) : Nat := s * y / (x + s)

/-- What an amount of the second asset costs, rounded to a whole unit above. -/
def costOf (x y t : Nat) : Nat := t * x / (y - t) + 1

theorem amountOut_lt (hx : 0 < x) (hy : 0 < y) : amountOut x y s < y := by
  apply Nat.div_lt_of_lt_mul
  have h : s * y < (x + s) * y := Nat.mul_lt_mul_of_pos_right (by omega) hy
  exact h

theorem amountOut_le_amountOut (hx : 0 < x) (h : s ≤ s') : amountOut x y s ≤ amountOut x y s' := by
  have hq : amountOut x y s * (x + s) ≤ s * y := Nat.div_mul_le_self _ _
  have hy : amountOut x y s * s ≤ y * s := by
    apply Nat.mul_le_mul_right
    apply Nat.div_le_of_le_mul
    apply Nat.mul_le_mul_right
    exact Nat.le_add_left s x
  have hd : amountOut x y s ≤ y ∨ s = 0 := by
    rcases Nat.eq_zero_or_pos s with h0 | h0
    · exact .inr h0
    · exact .inl (Nat.le_of_mul_le_mul_right hy h0)
  apply (Nat.le_div_iff_mul_le (Nat.add_pos_left hx s')).2
  obtain ⟨k, rfl⟩ := Nat.exists_eq_add_of_le h
  rcases hd with hd | rfl
  · have hk : amountOut x y s * k ≤ y * k := Nat.mul_le_mul_right k hd
    calc amountOut x y s * (x + (s + k))
        = amountOut x y s * (x + s) + amountOut x y s * k := by rw [← Nat.add_assoc, Nat.mul_add]
      _ ≤ s * y + y * k := Nat.add_le_add hq hk
      _ = (s + k) * y := by rw [Nat.add_mul, Nat.mul_comm y k]
  · rw [amountOut, Nat.zero_mul, Nat.zero_div, Nat.zero_mul]
    exact Nat.zero_le _

theorem costOf_amountOut_le (hx : 0 < x) (hy : 0 < y) :
    costOf x y (amountOut x y s) ≤ s + 1 := by
  have hlt := amountOut_lt (s := s) hx hy
  have hq : amountOut x y s * (x + s) ≤ s * y := Nat.div_mul_le_self _ _
  have hs : amountOut x y s * x ≤ s * (y - amountOut x y s) := by
    rw [Nat.mul_sub, Nat.mul_comm s (amountOut x y s)]
    rw [Nat.mul_add] at hq
    omega
  have hd : amountOut x y s * x / (y - amountOut x y s) ≤ s := by
    apply Nat.div_le_of_le_mul
    rwa [Nat.mul_comm (y - amountOut x y s) s]
  exact Nat.succ_le_succ hd

def ceilDiv (a b : Nat) : Nat := (a + (b - 1)) / b

theorem ceilDiv_le_ceilDiv (h : a ≤ a') : ceilDiv a b ≤ ceilDiv a' b :=
  Nat.div_le_div_right (by omega)

def fee (amount bps : Nat) : Nat := ceilDiv (amount * bps) 10000

theorem fee_le_fee (h : a ≤ a') : fee a bps ≤ fee a' bps :=
  ceilDiv_le_ceilDiv (Nat.mul_le_mul_right bps h)

theorem fee_zero (bps : Nat) : fee 0 bps = 0 := by
  rw [fee, Nat.zero_mul]
  rfl

theorem fee_le (h : bps ≤ 10000) : fee a bps ≤ a := by
  have hm : a * bps ≤ a * 10000 := Nat.mul_le_mul_left a h
  simp only [fee, ceilDiv]
  omega

def withFees (p c amount : Nat) : Nat := amount + fee amount p + fee amount c

theorem withFees_le_withFees (h : a ≤ a') : withFees p c a ≤ withFees p c a' := by
  have hp : fee a p ≤ fee a' p := fee_le_fee h
  have hc : fee a c ≤ fee a' c := fee_le_fee h
  simp only [withFees]
  omega

theorem withFees_lt_withFees (h : a < a') : withFees p c a < withFees p c a' := by
  have hp : fee a p ≤ fee a' p := fee_le_fee (Nat.le_of_lt h)
  have hc : fee a c ≤ fee a' c := fee_le_fee (Nat.le_of_lt h)
  simp only [withFees]
  omega

theorem withFees_bounds (p c a : Nat) :
    a * (10000 + p + c) ≤ withFees p c a * 10000 ∧
      withFees p c a * 10000 < a * (10000 + p + c) + 20000 := by
  have he : a * (10000 + p + c) = a * 10000 + a * p + a * c := by
    rw [Nat.mul_add, Nat.mul_add]
  rw [he]
  simp only [withFees, fee, ceilDiv]
  omega

/-- The budget without its fees, before the rounding of the fees is looked at. -/
def netGuess (p c budget : Nat) : Nat := budget * 10000 / (10000 + p + c)

theorem withFees_netGuess_le : withFees p c (netGuess p c b) ≤ b + 1 := by
  have hq : netGuess p c b * (10000 + p + c) ≤ b * 10000 := Nat.div_mul_le_self _ _
  have hw := (withFees_bounds p c (netGuess p c b)).2
  omega

theorem lt_withFees_netGuess_succ : b < withFees p c (netGuess p c b + 1) := by
  have hq : b * 10000 < (netGuess p c b + 1) * (10000 + p + c) := by
    rw [Nat.mul_comm (netGuess p c b + 1)]
    apply Nat.lt_mul_div_succ
    omega
  have hw := (withFees_bounds p c (netGuess p c b + 1)).1
  omega

/-- The guess, less what it and its fees are over the budget. -/
def netOf (p c budget : Nat) : Nat :=
  netGuess p c budget - (withFees p c (netGuess p c budget) - budget)

theorem withFees_netOf_le : withFees p c (netOf p c b) ≤ b := by
  by_cases hover : withFees p c (netGuess p c b) ≤ b
  · rw [netOf, Nat.sub_eq_zero_of_le hover]
    exact hover
  · have h1 : withFees p c (netGuess p c b) = b + 1 := by
      have hle := withFees_netGuess_le (p := p) (c := c) (b := b)
      omega
    have hpos : 0 < netGuess p c b := by
      apply Nat.pos_of_ne_zero
      intro h0
      rw [h0] at hover
      apply hover
      simp [withFees, fee, ceilDiv]
    have hlt : withFees p c (netOf p c b) < withFees p c (netGuess p c b) := by
      apply withFees_lt_withFees
      rw [netOf]
      omega
    omega

theorem netOf_isGreatest (p c b : Nat) : IsGreatest {n | withFees p c n ≤ b} (netOf p c b) := by
  constructor
  · exact withFees_netOf_le
  · intro n hn
    change withFees p c n ≤ b at hn
    by_contra hlt
    by_cases hover : withFees p c (netGuess p c b) ≤ b
    · have hge : netGuess p c b + 1 ≤ n := by
        rw [netOf] at hlt
        omega
      have hm := withFees_le_withFees (p := p) (c := c) hge
      have hs := lt_withFees_netGuess_succ (p := p) (c := c) (b := b)
      omega
    · have hle := withFees_netGuess_le (p := p) (c := c) (b := b)
      have hge : netGuess p c b ≤ n := by
        rw [netOf] at hlt
        omega
      have hm := withFees_le_withFees (p := p) (c := c) hge
      omega

theorem netOf_le_netOf (h : b ≤ b') : netOf p c b ≤ netOf p c b' := by
  apply (netOf_isGreatest p c b').2
  exact Nat.le_trans withFees_netOf_le h

end ConstantProduct
