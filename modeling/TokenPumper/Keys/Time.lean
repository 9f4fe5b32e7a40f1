import TokenPumper.Keys.World

namespace TokenPumper
open Effect
set_option autoImplicit true

def isLeap (y : Int) : Bool := (y % 4 = 0 && y % 100 ≠ 0) || y % 400 = 0

def daysInMonth : List Nat := [31, 28, 31, 30, 31, 30, 31, 31, 30, 31, 30, 31]

/-- The years of a day count; there are at most as many as times 365 days. -/
def walkYears : Nat → Int → Nat → Int × Nat
  | 0, y, days => (y, days)
  | fuel + 1, y, days =>
    let yearDays := if isLeap y then 366 else 365
    if days < yearDays then (y, days) else walkYears fuel (y + 1) (days - yearDays)

/-- The months of a day count within a year; an index past December is a panic. -/
def walkMonths (y : Int) : List Nat → Nat → Nat → Option (Nat × Nat)
  | [], _, _ => none
  | md :: mds, m, days =>
    let md := if m = 1 && isLeap y then 29 else md
    if days < md then some (m, days) else walkMonths y mds (m + 1) (days - md)

def ymdFromDays (days : Nat) : Option (Int × Nat × Nat) := do
  let (y, days) := walkYears (days / 365 + 1) 1970 days
  let (m, days) ← walkMonths y daysInMonth 0 days
  pure (y, m + 1, days + 1)

def padded (width n : Nat) : String :=
  String.ofList (List.replicate (width - (Text.decimal n).length) '0' ++ Text.decimal n)

def formatYmd (daysSinceEpoch : Nat) : Option String := do
  let (y, m, d) ← ymdFromDays daysSinceEpoch
  pure (padded 4 y.toNat ++ "-" ++ padded 2 m ++ "-" ++ padded 2 d)

theorem dash_mem_formatYmd (h : formatYmd n = some day) : '-' ∈ day.toList := by
  obtain ⟨⟨y, m, d⟩, -, hday⟩ := Option.bind_eq_some_iff.1 h
  obtain rfl := Option.some.inj hday
  simp

def today : Run String := do
  match ← ask (·.clock) with
  | none => fail (.error
      ["system clock is before UNIX epoch", "second time provided was later than self"])
  | some secs => do
    let day ← orPanic (formatYmd (secs.toNat / 86400))
    record (.today day)
    pure day

example : formatYmd 19782 = some "2024-02-29" := by decide +kernel

end TokenPumper
