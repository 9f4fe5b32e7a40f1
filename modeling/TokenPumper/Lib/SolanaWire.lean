import TokenPumper.Lib.ByteParser

namespace SolanaWire
open LittleEndian ByteParser
set_option autoImplicit true

/-- A compact-u16 length: seven bits a byte, least significant group first. -/
def compactU16 (n : Nat) : List UInt8 :=
  if n < 128 then [UInt8.ofNat n]
  else if n < 16384 then [UInt8.ofNat (n % 128 + 128), UInt8.ofNat (n / 128)]
  else [UInt8.ofNat (n % 128 + 128), UInt8.ofNat (n / 128 % 128 + 128), UInt8.ofNat (n / 16384)]

theorem length_compactU16_of_lt (h : n < 128) : (compactU16 n).length = 1 := by
  rw [compactU16, if_pos h]
  rfl

/-- The strict reader: a length in more bytes than it needs, or above `u16::MAX`, is refused. -/
def length : Parser Nat := do
  let b₀ ← byte
  if b₀.toNat < 128 then pure b₀.toNat else do
    let b₁ ← byte
    if b₁.toNat = 0 then failure
    else if b₁.toNat < 128 then pure (b₀.toNat % 128 + 128 * b₁.toNat) else do
      let b₂ ← byte
      if b₂.toNat = 0 ∨ 3 < b₂.toNat then failure
      else pure (b₀.toNat % 128 + 128 * (b₁.toNat % 128) + 16384 * b₂.toNat)

theorem toNat_ofNat_low (h : n < 256) : (UInt8.ofNat n).toNat = n := UInt8.toNat_ofNat_of_lt' h

theorem consumes_length (h : n < 65536) : Consumes length (compactU16 n) n := by
  unfold compactU16 length
  split
  · rename_i h₁
    refine (consumes_byte _).bind ?_
    rw [toNat_ofNat_low (by omega), if_pos h₁]
    exact .pure n
  · rename_i h₁
    split
    · rename_i h₂
      refine (consumes_byte _).bind ?_
      rw [toNat_ofNat_low (n := n % 128 + 128) (by omega), if_neg (by omega)]
      refine (consumes_byte _).bind ?_
      rw [toNat_ofNat_low (n := n / 128) (by omega), if_neg (by omega), if_pos (by omega)]
      have he : (n % 128 + 128) % 128 + 128 * (n / 128) = n := by omega
      rw [he]
      exact .pure n
    · rename_i h₂
      refine (consumes_byte _).bind ?_
      rw [toNat_ofNat_low (n := n % 128 + 128) (by omega), if_neg (by omega)]
      refine (consumes_byte _).bind ?_
      rw [toNat_ofNat_low (n := n / 128 % 128 + 128) (by omega), if_neg (by omega),
        if_neg (by omega)]
      refine (consumes_byte _).bind ?_
      rw [toNat_ofNat_low (n := n / 16384) (by omega), if_neg (by omega)]
      have he : (n % 128 + 128) % 128 + 128 * ((n / 128 % 128 + 128) % 128) +
          16384 * (n / 16384) = n := by omega
      rw [he]
      exact .pure n

def vec (enc : α → List UInt8) (xs : List α) : List UInt8 :=
  compactU16 xs.length ++ xs.flatMap enc

def vecOf (p : Parser α) : Parser (List α) := do
  let n ← length
  count p n

theorem consumes_vec {p : Parser α} {enc : α → List UInt8} (xs : List α)
    (hn : xs.length < 65536) (h : ∀ x ∈ xs, Consumes p (enc x) x) :
    Consumes (vecOf p) (vec enc xs) xs :=
  (consumes_length hn).bind (consumes_count xs h)

def byteVec (bs : List UInt8) : List UInt8 := compactU16 bs.length ++ bs

def byteVecOf : Parser (List UInt8) := do
  let n ← length
  take n

theorem consumes_byteVec (bs : List UInt8) (hn : bs.length < 65536) :
    Consumes byteVecOf (byteVec bs) bs :=
  (consumes_length hn).bind (consumes_take bs)

structure CompiledInstruction where
  programIdIndex : UInt8
  accounts : List UInt8
  data : List UInt8
deriving DecidableEq, Repr

def CompiledInstruction.encode (i : CompiledInstruction) : List UInt8 :=
  [i.programIdIndex] ++ (byteVec i.accounts ++ byteVec i.data)

def compiledInstruction : Parser CompiledInstruction := do
  let programIdIndex ← byte
  let accounts ← byteVecOf
  let data ← byteVecOf
  pure ⟨programIdIndex, accounts, data⟩

def CompiledInstruction.Fits (i : CompiledInstruction) : Prop :=
  i.accounts.length < 65536 ∧ i.data.length < 65536

theorem consumes_compiledInstruction (i : CompiledInstruction) (h : i.Fits) :
    Consumes compiledInstruction i.encode i :=
  (consumes_byte i.programIdIndex).bind
    ((consumes_byteVec i.accounts h.1).bind (consumes_byteVec i.data h.2).bind_pure)

structure AddressTableLookup where
  accountKey : Bytes 32
  writableIndexes : List UInt8
  readonlyIndexes : List UInt8
deriving DecidableEq, Repr

def AddressTableLookup.encode (l : AddressTableLookup) : List UInt8 :=
  l.accountKey.toList ++ (byteVec l.writableIndexes ++ byteVec l.readonlyIndexes)

def addressTableLookup : Parser AddressTableLookup := do
  let accountKey ← array 32
  let writableIndexes ← byteVecOf
  let readonlyIndexes ← byteVecOf
  pure ⟨accountKey, writableIndexes, readonlyIndexes⟩

def AddressTableLookup.Fits (l : AddressTableLookup) : Prop :=
  l.writableIndexes.length < 65536 ∧ l.readonlyIndexes.length < 65536

theorem consumes_addressTableLookup (l : AddressTableLookup) (h : l.Fits) :
    Consumes addressTableLookup l.encode l :=
  (consumes_array l.accountKey).bind
    ((consumes_byteVec l.writableIndexes h.1).bind
      (consumes_byteVec l.readonlyIndexes h.2).bind_pure)

structure MessageHeader where
  numRequiredSignatures : UInt8
  numReadonlySigned : UInt8
  numReadonlyUnsigned : UInt8
deriving DecidableEq, Repr

/-- What the two message versions share. -/
structure MessageBody where
  header : MessageHeader
  accountKeys : List (Bytes 32)
  recentBlockhash : Bytes 32
  instructions : List CompiledInstruction
deriving DecidableEq, Repr

def MessageBody.encode (m : MessageBody) : List UInt8 :=
  [m.header.numRequiredSignatures] ++ ([m.header.numReadonlySigned] ++
    ([m.header.numReadonlyUnsigned] ++ (vec Vector.toList m.accountKeys ++
      (m.recentBlockhash.toList ++ vec CompiledInstruction.encode m.instructions))))

def messageBody : Parser MessageBody := do
  let numRequiredSignatures ← byte
  let numReadonlySigned ← byte
  let numReadonlyUnsigned ← byte
  let accountKeys ← vecOf (array 32)
  let recentBlockhash ← array 32
  let instructions ← vecOf compiledInstruction
  pure ⟨⟨numRequiredSignatures, numReadonlySigned, numReadonlyUnsigned⟩, accountKeys,
    recentBlockhash, instructions⟩

structure MessageBody.Fits (m : MessageBody) : Prop where
  keys : m.accountKeys.length < 65536
  instructions : m.instructions.length < 65536
  each : ∀ i ∈ m.instructions, i.Fits

theorem consumes_messageBody (m : MessageBody) (h : m.Fits) :
    Consumes messageBody m.encode m := by
  have hk := consumes_vec m.accountKeys h.keys (fun k _ => consumes_array k)
  have hi := consumes_vec m.instructions h.instructions
    (fun i hi => consumes_compiledInstruction i (h.each i hi))
  exact (consumes_byte _).bind ((consumes_byte _).bind ((consumes_byte _).bind
    (hk.bind ((consumes_array m.recentBlockhash).bind hi.bind_pure))))

inductive Message where
  | legacy (body : MessageBody)
  | v0 (body : MessageBody) (lookups : List AddressTableLookup)
deriving DecidableEq, Repr

def Message.body : Message → MessageBody
  | .legacy body => body
  | .v0 body _ => body

def Message.lookups : Message → List AddressTableLookup
  | .legacy _ => []
  | .v0 _ lookups => lookups

/-- A set high bit in the first byte announces a versioned message. -/
def Message.encode : Message → List UInt8
  | .legacy body => body.encode
  | .v0 body lookups => [0x80] ++ (body.encode ++ vec AddressTableLookup.encode lookups)

def message : Parser Message := do
  let b ← peek
  if b.toNat < 128 then do
    let body ← messageBody
    pure (.legacy body)
  else if b = 0x80 then do
    let _ ← byte
    let body ← messageBody
    let lookups ← vecOf addressTableLookup
    pure (.v0 body lookups)
  else failure

/-- A message whose lengths and version bit survive the encoding. -/
structure Message.Fits (m : Message) : Prop where
  body : m.body.Fits
  lookups : m.lookups.length < 65536
  each : ∀ l ∈ m.lookups, l.Fits
  signatures : m.body.header.numRequiredSignatures.toNat < 128

theorem consumes_message (m : Message) (h : m.Fits) : Consumes message m.encode m := by
  cases m with
  | legacy body =>
    have hv : body.header.numRequiredSignatures.toNat < 128 := h.signatures
    refine Consumes.peek_bind ?_
    rw [if_pos hv]
    exact (consumes_messageBody body h.body).bind_pure
  | v0 body lookups =>
    refine Consumes.peek_bind ?_
    rw [if_neg (by decide), if_pos rfl]
    have hl := consumes_vec lookups h.lookups
      (fun l hl => consumes_addressTableLookup l (h.each l hl))
    exact (consumes_byte _).bind ((consumes_messageBody body h.body).bind hl.bind_pure)

/-- A decoded transaction keeps the bytes its signatures are about. -/
structure Transaction where
  signatures : List (Bytes 64)
  signedBytes : List UInt8
  message : Message
deriving DecidableEq, Repr

def encodeTransaction (signatures : List (Bytes 64)) (m : Message) : List UInt8 :=
  vec Vector.toList signatures ++ m.encode

def decodeTransaction (bs : List UInt8) : Option Transaction := do
  let (signatures, signedBytes) ← (vecOf (array 64)).run bs
  let m ← runAll message signedBytes
  pure ⟨signatures, signedBytes, m⟩

theorem decodeTransaction_encode (signatures : List (Bytes 64)) (m : Message)
    (hs : signatures.length < 65536) (hm : m.Fits) :
    decodeTransaction (encodeTransaction signatures m) = some ⟨signatures, m.encode, m⟩ := by
  have h := consumes_vec signatures hs (fun s _ => consumes_array s) m.encode
  rw [decodeTransaction, encodeTransaction, h]
  simp only [Option.bind_eq_bind, Option.bind_some, (consumes_message m hm).runAll]
  rfl

/-- An account as an instruction sees it. -/
structure AccountMeta where
  pubkey : Bytes 32
  isSigner : Bool
  isWritable : Bool
deriving DecidableEq, Repr

/-- The header orders the static keys: writable signers, readonly signers, writable, readonly. -/
def MessageBody.staticMeta (m : MessageBody) (i : Nat) (key : Bytes 32) : AccountMeta where
  pubkey := key
  isSigner := i < m.header.numRequiredSignatures.toNat
  isWritable :=
    if i < m.header.numRequiredSignatures.toNat then
      i < m.header.numRequiredSignatures.toNat - m.header.numReadonlySigned.toNat
    else i < m.accountKeys.length - m.header.numReadonlyUnsigned.toNat

def loadAddresses (table : List (Bytes 32)) (writable : Bool) (indexes : List UInt8) :
    Option (List AccountMeta) :=
  indexes.mapM fun i => (table[i.toNat]?).map fun key => ⟨key, false, writable⟩

/-- All accounts of a message: static keys, then loaded writable, then loaded readonly entries. -/
def Message.accounts (m : Message) (tables : Bytes 32 → Option (List (Bytes 32))) :
    Option (List AccountMeta) := do
  let loaded (writable : Bool) (indexes : AddressTableLookup → List UInt8) :=
    m.lookups.mapM fun l => do
      let table ← tables l.accountKey
      loadAddresses table writable (indexes l)
  let writable ← loaded true (·.writableIndexes)
  let readonly ← loaded false (·.readonlyIndexes)
  pure (m.body.accountKeys.mapIdx m.body.staticMeta ++ (writable.flatten ++ readonly.flatten))

/-- An instruction with its indexes resolved. -/
structure Instruction where
  programId : Bytes 32
  accounts : List AccountMeta
  data : List UInt8
deriving DecidableEq, Repr

def CompiledInstruction.resolve (accounts : List AccountMeta) (i : CompiledInstruction) :
    Option Instruction := do
  let program ← accounts[i.programIdIndex.toNat]?
  let metas ← i.accounts.mapM fun a => accounts[a.toNat]?
  pure ⟨program.pubkey, metas, i.data⟩

def Message.resolve (m : Message) (tables : Bytes 32 → Option (List (Bytes 32))) :
    Option (List Instruction) := do
  let accounts ← m.accounts tables
  m.body.instructions.mapM fun i => i.resolve accounts

end SolanaWire
