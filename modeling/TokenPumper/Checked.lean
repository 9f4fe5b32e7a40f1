import TokenPumper.Lib.LittleEndian

namespace TokenPumper
set_option autoImplicit true

/-- A result that must fit `u128`. -/
def u128 (n : Nat) : Option Nat := if n < 2 ^ 128 then some n else none

/-- A cast to `u64` that must not lose anything. -/
def narrow (n : Nat) : Option UInt64 := if n < 2 ^ 64 then some (UInt64.ofNat n) else none

def checkedAdd (a b : UInt64) : Option UInt64 := narrow (a.toNat + b.toNat)

def checkedSub (a b : UInt64) : Option UInt64 := if b ≤ a then some (a - b) else none

/-- The divisor must not be zero. -/
def checkedRem (a b : UInt64) : Option UInt64 := if b = 0 then none else some (a % b)

def checkedDiv (n d : Nat) : Option Nat := if d = 0 then none else some (n / d)

theorem u128_eq (h : n < 2 ^ 128) : u128 n = some n := if_pos h

theorem narrow_eq (h : n < 2 ^ 64) : narrow n = some (UInt64.ofNat n) := if_pos h

theorem toNat_ofNat (h : n < 2 ^ 64) : (UInt64.ofNat n).toNat = n := UInt64.toNat_ofNat_of_lt' h

theorem checkedAdd_eq {a b : UInt64} (h : a.toNat + b.toNat < 2 ^ 64) :
    checkedAdd a b = some (a + b) := by
  rw [checkedAdd, narrow_eq h, UInt64.ofNat_add, UInt64.ofNat_toNat, UInt64.ofNat_toNat]

theorem checkedSub_eq {a b : UInt64} (h : b ≤ a) : checkedSub a b = some (a - b) := if_pos h

theorem checkedRem_eq {a b : UInt64} (h : b ≠ 0) : checkedRem a b = some (a % b) := if_neg h

theorem checkedDiv_eq {n d : Nat} (h : d ≠ 0) : checkedDiv n d = some (n / d) := if_neg h

end TokenPumper
