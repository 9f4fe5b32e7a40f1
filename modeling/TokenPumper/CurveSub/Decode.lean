import TokenPumper.Lib.ByteCursor

namespace TokenPumper
open LittleEndian ByteCursor
set_option autoImplicit true

def sliceTotalLen : Nat := 40

structure Reserves where
  vTok : UInt64
  vSol : UInt64
  rTok : UInt64
  rSol : UInt64
deriving DecidableEq, Repr

def Reserves.default : Reserves := ⟨0, 0, 0, 0⟩

def Reserves.fromSlice (data : Bytes sliceTotalLen) : Reserves where
  vTok := toU64 (slice data.toList 0 8)
  vSol := toU64 (slice data.toList 8 16)
  rTok := toU64 (slice data.toList 16 24)
  rSol := toU64 (slice data.toList 24 32)

def tokenAmount (data : Bytes sliceTotalLen) : UInt64 := toU64 (slice data.toList 32 40)

/-- `try_into` an array of a fixed length. -/
def exactly (n : Nat) (bs : List UInt8) : Option (Bytes n) :=
  if h : bs.length = n then some (ofList bs h) else none

theorem exactly_isSome : (exactly n bs).isSome ↔ bs.length = n := by
  rw [exactly]
  split <;> simp [*]

theorem toList_of_exactly (h : exactly n bs = some v) : v.toList = bs := by
  rw [exactly] at h
  split at h
  · obtain rfl := Option.some.inj h
    exact toList_ofList bs _
  · cases h

end TokenPumper
