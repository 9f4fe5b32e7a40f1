import Mathlib.Data.List.Basic
import Mathlib.Tactic.Common

namespace BitStream
set_option autoImplicit true

/-- The bits past the end are zeros. -/
def bit (words : List (BitVec w)) (i : Nat) : Bool := (words.getD (i / w) 0#w).getLsbD (i % w)

theorem bit_replicate_zero (n i : Nat) : bit (List.replicate n 0#w) i = false := by
  rw [bit, List.getD_eq_getElem?_getD, List.getElem?_replicate]
  split <;> simp

theorem bit_modify {words : List (BitVec w)} (hw : 0 < w) (hi : i / w < words.length) (hit : Bool) :
    bit (words.modify (i / w) (· ||| (BitVec.ofBool hit).setWidth w <<< (i % w))) j =
      (bit words j || (decide (j = i) && hit)) := by
  simp only [bit, List.getD_eq_getElem?_getD, List.getElem?_modify]
  by_cases hword : i / w = j / w
  · have hj : j / w < words.length := hword ▸ hi
    have hlt : j % w < w := Nat.mod_lt j hw
    have hmod : j % w = i % w ↔ j = i := by
      constructor
      · intro hm
        rw [← Nat.div_add_mod j w, ← Nat.div_add_mod i w, hword, hm]
      · exact fun h => h ▸ rfl
    simp only [hword, List.getElem?_eq_getElem hj, ↓reduceIte, Option.map_eq_map, Option.map_some,
      Option.getD_some, BitVec.getLsbD_or, BitVec.getLsbD_shiftLeft, BitVec.getLsbD_setWidth,
      BitVec.getLsbD_ofBool, hlt, decide_true, Bool.true_and]
    congr 1
    by_cases heq : j = i
    · subst heq
      simp [hw]
    · have hne : j % w ≠ i % w := fun h => heq (hmod.1 h)
      simp only [heq, decide_false, Bool.false_and]
      by_cases hbelow : j % w < i % w
      · simp [hbelow]
      · have hpos : j % w - i % w ≠ 0 := by omega
        simp [hpos]
  · have hne : j ≠ i := fun h => hword (h ▸ rfl)
    simp [hword, hne]

theorem getLsbD_joined (words : List (BitVec w)) (off : Nat) (hi : i < w) :
    (words.getD (off / w) 0#w >>> (off % w) |||
      words.getD (off / w + 1) 0#w <<< (w - off % w)).getLsbD i = bit words (off + i) := by
  have hw : 0 < w := Nat.zero_lt_of_lt hi
  have hs : off % w < w := Nat.mod_lt off hw
  have hoff := Nat.div_add_mod off w
  rw [BitVec.getLsbD_or, BitVec.getLsbD_ushiftRight, BitVec.getLsbD_shiftLeft, bit]
  by_cases hlow : off % w + i < w
  · have hsum : off + i = off % w + i + w * (off / w) := by omega
    have hdiv : (off + i) / w = off / w := by
      rw [hsum, Nat.add_mul_div_left _ _ hw, Nat.div_eq_of_lt hlow, Nat.zero_add]
    have hmod : (off + i) % w = off % w + i := by
      rw [hsum, Nat.add_mul_mod_self_left, Nat.mod_eq_of_lt hlow]
    have hbelow : i < w - off % w := by omega
    simp [hdiv, hmod, hbelow]
  · have hsum : off + i = (off % w + i - w) + w * (off / w + 1) := by
      rw [Nat.mul_add]
      omega
    have hrest : off % w + i - w < w := by omega
    have hdiv : (off + i) / w = off / w + 1 := by
      rw [hsum, Nat.add_mul_div_left _ _ hw, Nat.div_eq_of_lt hrest, Nat.zero_add]
    have hmod : (off + i) % w = off % w + i - w := by
      rw [hsum, Nat.add_mul_mod_self_left, Nat.mod_eq_of_lt hrest]
    have habove : ¬i < w - off % w := by omega
    have hpast : (words.getD (off / w) 0#w).getLsbD (off % w + i) = false :=
      BitVec.getLsbD_of_ge _ _ (Nat.le_of_not_lt hlow)
    have hshift : i - (w - off % w) = off % w + i - w := by omega
    simp only [hpast, hdiv, hmod, habove, hi, hshift, decide_true, decide_false, Bool.not_false,
      Bool.true_and, Bool.false_or]

end BitStream
