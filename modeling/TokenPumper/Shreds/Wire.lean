import TokenPumper.Lib.ByteCursor

namespace TokenPumper
open LittleEndian ByteCursor
set_option autoImplicit true

def sizeOfSignature : Nat := 64

def sizeOfDataShredHeaders : Nat := 88

def sizeOfMerkleRoot : Nat := 32

def sizeOfMerkleProofEntry : Nat := 20

def shredDataPayloadSize : Nat := 1203

inductive VariantClass where
  | invalid
  | coding
  | data (proofSize : UInt8) (resigned : Bool) (capacity : UInt16)
deriving DecidableEq, Repr

/-- The entry-data bytes that headers, proof and an optional second signature leave. -/
def dataCapacity (proofSize : UInt8) (resigned : Bool) : Option Nat :=
  let used := sizeOfDataShredHeaders + sizeOfMerkleRoot + proofSize.toNat * sizeOfMerkleProofEntry +
    if resigned then sizeOfSignature else 0
  if used > shredDataPayloadSize then none else some (shredDataPayloadSize - used)

def classifyVariant (byte : UInt8) : VariantClass :=
  let proofSize := byte &&& 0x0F
  let data (resigned : Bool) : VariantClass :=
    match dataCapacity proofSize resigned with
    | some c => .data proofSize resigned (UInt16.ofNat c)
    | none => .invalid
  match byte &&& 0xF0 with
  | 0x60 => .coding
  | 0x70 => .coding
  | 0x90 => data false
  | 0xB0 => data true
  | _ => .invalid

def variantTable : Vector VariantClass 256 :=
  Vector.ofFn fun b => classifyVariant (UInt8.ofNat b.val)

/-- `VARIANT_TABLE[byte as usize]`. -/
def variantOf (byte : UInt8) : VariantClass :=
  have h : byte.toNat < 256 := byte.toNat_lt
  variantTable[byte.toNat]

theorem variantOf_eq (byte : UInt8) : variantOf byte = classifyVariant byte := by
  simp only [variantOf, variantTable, Vector.getElem_ofFn, UInt8.ofNat_toNat]

def getSlot (buf : List UInt8) : Option UInt64 :=
  if 73 ≤ buf.length then some (toU64 (slice buf 65 73)) else none

end TokenPumper
