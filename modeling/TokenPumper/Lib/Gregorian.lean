import Mathlib.Tactic.Common

namespace Gregorian
set_option autoImplicit true

def IsLeap (y : Int) : Prop := 4 ∣ y ∧ ¬100 ∣ y ∨ 400 ∣ y

instance (y : Int) : Decidable (IsLeap y) := inferInstanceAs (Decidable (_ ∨ _))

def yearLength (y : Int) : Nat := if IsLeap y then 366 else 365

def monthLength (y : Int) : Nat → Nat
  | 2 => if IsLeap y then 29 else 28
  | 4 | 6 | 9 | 11 => 30
  | _ => 31

/-- The days from the first day of year one to the first of a year. -/
def daysBeforeYear (y : Int) : Int := 365 * (y - 1) + (y - 1) / 4 - (y - 1) / 100 + (y - 1) / 400

def daysOfMonths (y : Int) : Nat → Nat
  | 0 => 0
  | m + 1 => daysOfMonths y m + monthLength y (m + 1)

theorem daysBeforeYear_succ (y : Int) :
    daysBeforeYear (y + 1) = daysBeforeYear y + yearLength y := by
  rw [daysBeforeYear, daysBeforeYear, yearLength, Int.add_sub_cancel]
  have h4 : y / 4 = (y - 1) / 4 + if 4 ∣ y then 1 else 0 := by
    split <;> omega
  have h100 : y / 100 = (y - 1) / 100 + if 100 ∣ y then 1 else 0 := by
    split <;> omega
  have h400 : y / 400 = (y - 1) / 400 + if 400 ∣ y then 1 else 0 := by
    split <;> omega
  rw [h4, h100, h400]
  by_cases hleap : IsLeap y
  · rw [if_pos hleap]
    rcases hleap with ⟨hfour, hnot⟩ | hfour
    · have hnot' : ¬400 ∣ y := by omega
      rw [if_pos hfour, if_neg hnot, if_neg hnot']
      omega
    · rw [if_pos (by omega : 4 ∣ y), if_pos (by omega : 100 ∣ y), if_pos hfour]
      omega
  · rw [if_neg hleap]
    have hnot : ¬400 ∣ y := fun h => hleap (.inr h)
    rw [if_neg hnot]
    by_cases hfour : 4 ∣ y
    · have hhundred : 100 ∣ y := by
        by_contra h
        exact hleap (.inl ⟨hfour, h⟩)
      rw [if_pos hfour, if_pos hhundred]
      omega
    · rw [if_neg hfour, if_neg (by omega : ¬100 ∣ y)]
      omega

theorem daysBeforeYear_le (h : y ≤ y') : daysBeforeYear y ≤ daysBeforeYear y' := by
  rw [daysBeforeYear, daysBeforeYear]
  omega

theorem monthLength_le (y : Int) (m : Nat) : monthLength y m ≤ 31 := by
  unfold monthLength
  split
  · split <;> decide
  all_goals decide

theorem daysOfMonths_twelve (y : Int) : daysOfMonths y 12 = yearLength y := by
  simp only [daysOfMonths, monthLength, yearLength]
  split <;> rfl

theorem daysOfMonths_le (y : Int) (h : m ≤ m') : daysOfMonths y m ≤ daysOfMonths y m' := by
  induction h with
  | refl => exact Nat.le_refl _
  | step _ ih => exact Nat.le_trans ih (Nat.le_add_right _ _)

@[ext]
structure Date where
  year : Int
  month : Nat
  day : Nat
  monthIn : 1 ≤ month ∧ month ≤ 12
  dayIn : 1 ≤ day ∧ day ≤ monthLength year month

namespace Date

def yearDay (d : Date) : Nat := daysOfMonths d.year (d.month - 1) + (d.day - 1)

def number (d : Date) : Int := daysBeforeYear d.year + d.yearDay

def epoch : Date := ⟨1970, 1, 1, by decide, by decide⟩

def sinceEpoch (d : Date) : Int := d.number - epoch.number

variable {d d' : Date}

theorem yearDay_lt_month (d : Date) : d.yearDay < daysOfMonths d.year d.month := by
  obtain ⟨m, hm⟩ := Nat.exists_eq_add_one.2 d.monthIn.1
  have hday := d.dayIn
  rw [yearDay, hm, Nat.add_sub_cancel, daysOfMonths, ← hm]
  omega

theorem yearDay_lt (d : Date) : d.yearDay < yearLength d.year := by
  rw [← daysOfMonths_twelve]
  exact Nat.lt_of_lt_of_le d.yearDay_lt_month (daysOfMonths_le d.year d.monthIn.2)

theorem number_lt (d : Date) : d.number < daysBeforeYear (d.year + 1) := by
  have h := d.yearDay_lt
  rw [number, daysBeforeYear_succ]
  omega

theorem year_le (h : d.number ≤ d'.number) : d.year ≤ d'.year := by
  by_contra hlt
  have hyear := daysBeforeYear_le (Int.add_one_le_iff.2 (Int.not_le.1 hlt))
  have hnumber := d'.number_lt
  rw [number] at h
  omega

theorem month_le (hy : d.year = d'.year) (h : d.yearDay ≤ d'.yearDay) : d.month ≤ d'.month := by
  by_contra hlt
  have hmonth := daysOfMonths_le d.year (Nat.le_sub_one_of_lt (Nat.not_le.1 hlt))
  have hday := d'.yearDay_lt_month
  rw [← hy] at hday
  rw [yearDay] at h
  omega

theorem number_inj (h : d.number = d'.number) : d = d' := by
  have hyear : d.year = d'.year := Int.le_antisymm (year_le (Int.le_of_eq h))
    (year_le (Int.le_of_eq h.symm))
  have hyearDay : d.yearDay = d'.yearDay := by
    rw [number, number, hyear] at h
    omega
  have hmonth : d.month = d'.month := Nat.le_antisymm (month_le hyear (Nat.le_of_eq hyearDay))
    (month_le hyear.symm (Nat.le_of_eq hyearDay.symm))
  have hday : d.day = d'.day := by
    have hd := d.dayIn.1
    have hd' := d'.dayIn.1
    rw [yearDay, yearDay, hyear, hmonth] at hyearDay
    omega
  exact Date.ext hyear hmonth hday

end Date

end Gregorian
