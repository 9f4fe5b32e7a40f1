import Mathlib.Tactic.IntervalCases
import TokenPumper.Keys.Batch
import TokenPumper.Lib.Gregorian

namespace TokenPumper
open Effect FileTree Gregorian
set_option autoImplicit true

theorem isLeap_iff {y : Int} : isLeap y = true ↔ IsLeap y := by
  simp only [isLeap, IsLeap, Bool.or_eq_true, Bool.and_eq_true, decide_eq_true_iff]
  omega

theorem walkedYear (y : Int) : (if isLeap y then 366 else 365) = yearLength y := by
  simp only [yearLength, isLeap_iff]

theorem walkedMonth (y : Int) (hm : m < daysInMonth.length) :
    (if m = 1 && isLeap y then 29 else daysInMonth[m]) = monthLength y (m + 1) := by
  have hm' : m < 12 := hm
  by_cases hfeb : m = 1
  · subst hfeb
    simp only [decide_true, Bool.true_and, isLeap_iff]
    rfl
  · simp only [hfeb, decide_false, Bool.false_and, Bool.false_eq_true, if_false]
    interval_cases m <;> first | rfl | exact absurd rfl hfeb

theorem walkYears_stops (y : Int) (days : Nat) (hfuel : days < 365 * fuel) :
    ∃ y' rest, walkYears fuel y days = (y', rest) ∧ y ≤ y' ∧ 365 * (y' - y) ≤ days ∧
      rest < yearLength y' ∧ daysBeforeYear y' + rest = daysBeforeYear y + days := by
  induction fuel generalizing y days with
  | zero => exact absurd hfuel (Nat.not_lt_zero _)
  | succ fuel ih =>
    simp only [walkYears, walkedYear]
    split
    · rename_i hlt
      exact ⟨y, days, rfl, Int.le_refl y, by omega, hlt, rfl⟩
    · rename_i hge
      have hlong : 365 ≤ yearLength y := by
        rw [yearLength]
        split <;> omega
      obtain ⟨y', rest, hwalk, hy, hspan, hrest, hsum⟩ :=
        ih (y + 1) (days - yearLength y) (by omega)
      rw [daysBeforeYear_succ] at hsum
      exact ⟨y', rest, hwalk, by omega, by omega, hrest, by omega⟩

theorem walkYears_fuel (h : days < 365 * fuel) (h' : days < 365 * fuel') :
    walkYears fuel y days = walkYears fuel' y days := by
  induction fuel generalizing fuel' y days with
  | zero => exact absurd h (Nat.not_lt_zero _)
  | succ fuel ih =>
    obtain ⟨more, rfl⟩ := Nat.exists_eq_add_one.2 (by omega : 0 < fuel')
    simp only [walkYears, walkedYear]
    split
    · rfl
    · have hlong : 365 ≤ yearLength y := by
        rw [yearLength]
        split <;> omega
      exact ih (by omega) (by omega)

theorem walkMonths_stops (y : Int) (m days : Nat) (hmds : mds = daysInMonth.drop m)
    (hdays : daysOfMonths y m + days < yearLength y) :
    ∃ m' rest, walkMonths y mds m days = some (m', rest) ∧ m' < 12 ∧
      rest < monthLength y (m' + 1) ∧ daysOfMonths y m' + rest = daysOfMonths y m + days := by
  induction mds generalizing m days with
  | nil =>
    have hm : 12 ≤ m := List.drop_eq_nil_iff.1 hmds.symm
    have hyear := daysOfMonths_le y hm
    rw [daysOfMonths_twelve] at hyear
    omega
  | cons md mds ih =>
    have hm : m < daysInMonth.length := by
      by_contra hge
      rw [List.drop_eq_nil_iff.2 (Nat.not_lt.1 hge)] at hmds
      cases hmds
    rw [List.drop_eq_getElem_cons hm] at hmds
    obtain ⟨rfl, hrest⟩ := List.cons.inj hmds
    simp only [walkMonths, walkedMonth y hm]
    split
    · rename_i hlt
      exact ⟨m, days, rfl, hm, hlt, rfl⟩
    · rename_i hge
      have hsucc : daysOfMonths y (m + 1) = daysOfMonths y m + monthLength y (m + 1) := rfl
      obtain ⟨m', rest, hwalk, hm', hlt, hsum⟩ :=
        ih (m + 1) (days - monthLength y (m + 1)) hrest (by omega)
      exact ⟨m', rest, hwalk, hm', hlt, by omega⟩

theorem ymdFromDays_eq (days : Nat) :
    ∃ date : Date, ymdFromDays days = some (date.year, date.month, date.day) ∧
      date.sinceEpoch = days ∧ 1970 ≤ date.year ∧ 365 * (date.year - 1970) ≤ days ∧
      ∀ fuel, days / 365 < fuel → walkYears fuel 1970 days = (date.year, date.yearDay) := by
  obtain ⟨y, rest, hyears, hy, hspan, hrest, hnumber⟩ :=
    walkYears_stops 1970 days (by omega : days < 365 * (days / 365 + 1))
  obtain ⟨m, day, hmonths, hm, hday, hyearDay⟩ :=
    walkMonths_stops y 0 rest (rfl : daysInMonth = daysInMonth.drop 0)
      (by rw [daysOfMonths]; omega)
  rw [daysOfMonths, Nat.zero_add] at hyearDay
  refine ⟨⟨y, m + 1, day + 1, by omega, by omega⟩, ?_, ?_, hy, hspan, ?_⟩
  · rw [ymdFromDays, hyears, Option.bind_eq_bind]
    dsimp only
    rw [hmonths]
    rfl
  · have hepoch : Date.epoch.number = daysBeforeYear 1970 := by decide
    rw [Date.sinceEpoch, hepoch, Date.number, Date.yearDay]
    simp only [Nat.add_sub_cancel, hyearDay]
    omega
  · intro fuel hfuel
    have henough : walkYears fuel 1970 days = walkYears (days / 365 + 1) 1970 days :=
      walkYears_fuel (by omega) (by omega)
    rw [henough, hyears, Date.yearDay]
    simp only [Nat.add_sub_cancel, hyearDay]

theorem ofDigitChars_padded (width n : Nat) :
    Nat.ofDigitChars 10 (padded width n).toList 0 = n := by
  rw [padded, String.toList_ofList, Nat.ofDigitChars_append, Nat.ofDigitChars_replicate_zero,
    Nat.mul_zero]
  exact Nat.ofDigitChars_ten_toDigits

theorem padded_inj (h : (padded width n).toList = (padded width n').toList) : n = n' := by
  rw [← ofDigitChars_padded width n, h, ofDigitChars_padded]

theorem length_padded (hwidth : 0 < width) (h : n < 10 ^ width) :
    (padded width n).toList.length = width := by
  have hle : (Text.decimal n).length ≤ width :=
    (Nat.length_toDigits_le_iff (by decide) hwidth).2 h
  rw [padded, String.toList_ofList, List.length_append, List.length_replicate]
  omega

theorem formatYmd_eq (days : Nat) :
    ∃ date : Date, date.sinceEpoch = days ∧ 1970 ≤ date.year ∧
      formatYmd days = some (padded 4 date.year.toNat ++ "-" ++ padded 2 date.month ++ "-" ++
        padded 2 date.day) := by
  obtain ⟨date, hdate, hdays, hyear, -, -⟩ := ymdFromDays_eq days
  refine ⟨date, hdays, hyear, ?_⟩
  rw [formatYmd, hdate]
  rfl

theorem month_lt (date : Date) : date.month < 10 ^ 2 := by
  have hmonth := date.monthIn.2
  omega

theorem day_lt (date : Date) : date.day < 10 ^ 2 := by
  have hday := date.dayIn.2
  have hmonth := monthLength_le date.year date.month
  omega

theorem formatYmd_inj (h : formatYmd days = formatYmd days') : days = days' := by
  obtain ⟨date, hdays, hyear, hformat⟩ := formatYmd_eq days
  obtain ⟨date', hdays', hyear', hformat'⟩ := formatYmd_eq days'
  rw [hformat, hformat'] at h
  have htext := congrArg String.toList (Option.some.inj h)
  simp only [String.toList_append, List.append_assoc] at htext
  have hmonth := length_padded (by decide) (month_lt date)
  have hmonth' := length_padded (by decide) (month_lt date')
  have hday := length_padded (by decide) (day_lt date)
  have hday' := length_padded (by decide) (day_lt date')
  obtain ⟨hy, hrest⟩ := List.append_inj' htext (by simp only [List.length_append]; omega)
  obtain ⟨-, hrest⟩ := List.append_inj hrest rfl
  obtain ⟨hm, hrest⟩ := List.append_inj hrest (by omega)
  obtain ⟨-, hd⟩ := List.append_inj hrest rfl
  have hyears : date.year = date'.year := by
    have := padded_inj hy
    omega
  have hsame : date = date' := Date.ext hyears (padded_inj hm) (padded_inj hd)
  rw [hsame] at hdays
  omega

theorem today_run {env : Env} {w : World} (h : env.clock w.tick = some secs)
    (hday : formatYmd (secs.toNat / 86400) = some day) : ∃ w', today env w = (.ok day, w') := by
  have hask : ask (·.clock) env w = (.ok (some secs), { w with tick := w.tick + 1 }) := by
    rw [ask_run, h]
  rw [today, bind_run_ok hask]
  simp only [hday]
  exact ⟨_, rfl⟩

theorem todayDir_run (keysDir : Path) {env : Env} {w : World} (h : env.clock w.tick = some secs) :
    ∃ day, formatYmd (secs.toNat / 86400) = some day ∧
      (Batch.todayDir keysDir env w).1 = .ok (day :: keysDir) := by
  obtain ⟨date, -, -, hday⟩ := formatYmd_eq (secs.toNat / 86400)
  obtain ⟨w', htoday⟩ := today_run h hday
  refine ⟨_, hday, ?_⟩
  rw [Batch.todayDir, bind_run_ok htoday]
  rfl

/-- The loops turn every day count into the one Gregorian date that lies so many days after the
epoch; no two days have one text, and the batch directories of two moments are the same just in
case the moments are of one UTC day. -/
theorem calendar_is_gregorian :
    (∀ days : UInt64, ∃ date : Date,
      ymdFromDays days.toNat = some (date.year, date.month, date.day) ∧ date.year < 2 ^ 63 ∧
      date.sinceEpoch = days.toNat ∧
      (∀ other : Date, other.sinceEpoch = days.toNat → other = date) ∧
      ∀ fuel, days.toNat / 365 < fuel →
        walkYears fuel 1970 days.toNat = (date.year, date.yearDay)) ∧
    (Function.Injective fun days : UInt64 => formatYmd days.toNat) ∧
    ∀ (keysDir : Path) (env env' : Env) (w w' : World) (secs secs' : UInt64),
      env.clock w.tick = some secs → env'.clock w'.tick = some secs' →
        ((Batch.todayDir keysDir env w).1 = (Batch.todayDir keysDir env' w').1 ↔
          secs.toNat / 86400 = secs'.toNat / 86400) := by
  refine ⟨?_, ?_, ?_⟩
  · intro days
    obtain ⟨date, hdate, hdays, hyear, hspan, hwalk⟩ := ymdFromDays_eq days.toNat
    have hlt := days.toNat_lt
    refine ⟨date, hdate, by omega, hdays, ?_, hwalk⟩
    intro other hother
    apply Date.number_inj
    rw [Date.sinceEpoch] at hdays hother
    omega
  · intro days days' h
    exact UInt64.toNat_inj.1 (formatYmd_inj h)
  · intro keysDir env env' w w' secs secs' h h'
    obtain ⟨day, hday, hdir⟩ := todayDir_run keysDir h
    obtain ⟨day', hday', hdir'⟩ := todayDir_run keysDir h'
    rw [hdir, hdir']
    constructor
    · intro hsame
      obtain ⟨rfl, -⟩ := List.cons.inj (Except.ok.inj hsame)
      exact formatYmd_inj (hday.trans hday'.symm)
    · intro hsame
      rw [hsame] at hday
      obtain rfl := Option.some.inj (hday.symm.trans hday')
      rfl

/-- The last second of a leap day and the first of the next. -/
theorem calendar_is_gregorian_sample :
    (Batch.todayDir ["keys"] (.calm 1709251199 (.replicate 32 1)) (.init Tree.empty)).1 ≠
      (Batch.todayDir ["keys"] (.calm 1709251200 (.replicate 32 1)) (.init Tree.empty)).1 := by
  intro hsame
  have hdays := (calendar_is_gregorian.2.2 ["keys"] _ _ _ _ 1709251199 1709251200 rfl rfl).1 hsame
  exact absurd hdays (by decide)

end TokenPumper
