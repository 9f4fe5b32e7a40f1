import TokenPumper.Lib.ByteCursor
import TokenPumper.Lib.SolanaWire
import TokenPumper.Ed25519
import TokenPumper.Pumpfun.Constants

namespace TokenPumper
open LittleEndian ByteCursor SolanaWire
set_option autoImplicit true

/-- A reused transaction buffer; its wire-format slice is the first `len` bytes. -/
structure BuiltTx where
  buf : Bytes maxTxSize
  len : Nat

def BuiltTx.new : BuiltTx := ⟨Vector.replicate maxTxSize 0, 0⟩

def BuiltTx.asBytes (tx : BuiltTx) : List UInt8 := tx.buf.toList.take tx.len

theorem length_flatMap_toList (vs : List (Bytes k)) :
    (vs.flatMap Vector.toList).length = k * vs.length := by
  induction vs with
  | nil => rfl
  | cons v vs ih =>
    rw [List.flatMap_cons, List.length_append, v.length_toList, ih, List.length_cons,
      Nat.mul_succ, Nat.add_comm]

variable [Ed25519]

/-- Write the message behind the signature section, sign it with each key in turn, and fill
the section in. A panic of any write is `none`. -/
def buildSigned (sigSectionLen : Nat) (writer : CursorWriter maxTxSize Unit)
    (signers : List SigningKey) (out : BuiltTx) : Option BuiltTx := do
  let (_, written) ← writer.run ⟨out.buf, sigSectionLen⟩
  let msg := slice written.buf.toList sigSectionLen written.pos
  let sigs := signers.map (Ed25519.sign · msg)
  let (_, signed) ← (do
    put [UInt8.ofNat signers.length]
    forM sigs (fun sig => put sig.toList) : CursorWriter maxTxSize Unit).run ⟨written.buf, 0⟩
  pure ⟨signed.buf, written.pos⟩

/-- The wire bytes of a signed message: they do not mention the buffer. -/
def signedBytes (signers : List SigningKey) (msg : List UInt8) : List UInt8 :=
  [UInt8.ofNat signers.length] ++ (signers.map (Ed25519.sign · msg)).flatMap Vector.toList ++ msg

theorem buildSigned_eq (signers : List SigningKey) (msg : List UInt8) (out : BuiltTx)
    (hs : sigSectionLen = 1 + 64 * signers.length) (hw : writer = put msg)
    (hl : sigSectionLen + msg.length ≤ maxTxSize) :
    ∃ out', buildSigned sigSectionLen writer signers out = some out' ∧
      out'.asBytes = signedBytes signers msg := by
  subst hw
  have hb : sigSectionLen + msg.length ≤ out.buf.toList.length := by rwa [out.buf.length_toList]
  let head := [UInt8.ofNat signers.length] ++
    (signers.map (Ed25519.sign · msg)).flatMap Vector.toList
  have hh : head.length = sigSectionLen := by
    rw [hs, List.length_append, length_flatMap_toList, List.length_map, List.length_singleton]
  have hfit : 0 + head.length ≤ maxTxSize := by omega
  refine ⟨⟨overwrite (overwrite out.buf sigSectionLen msg hl) 0 head hfit,
    sigSectionLen + msg.length⟩, ?_, ?_⟩
  · have hm : slice (splice out.buf.toList sigSectionLen msg) sigSectionLen
        (sigSectionLen + msg.length) = msg := slice_splice hb
    simp only [buildSigned, put_run out.buf hl, put_forM, Option.bind_eq_bind, Option.bind_some,
      toList_overwrite, hm]
    rw [put_run _ hfit]
    rfl
  · exact take_splice_head hb hh

theorem buildSigned_panics (signers : List SigningKey) (msg : List UInt8) (out : BuiltTx)
    (hw : writer = put msg) (hl : ¬sigSectionLen + msg.length ≤ maxTxSize) :
    buildSigned sigSectionLen writer signers out = none := by
  subst hw
  simp only [buildSigned, put_panics out.buf hl, Option.bind_eq_bind, Option.bind_none]

/-- Signatures and message decode again, each signature being over the message bytes. -/
theorem decodeTransaction_signedBytes (signers : List SigningKey) (m : Message)
    (hn : signers.length < 128) (hm : m.Fits) :
    decodeTransaction (signedBytes signers m.encode) =
      some ⟨signers.map (Ed25519.sign · m.encode), m.encode, m⟩ := by
  rw [← decodeTransaction_encode _ m (by rw [List.length_map]; omega) hm]
  congr 1
  simp only [signedBytes, encodeTransaction, vec, compactU16, List.length_map, hn, ↓reduceIte]

theorem length_signedBytes (signers : List SigningKey) (msg : List UInt8) :
    (signedBytes signers msg).length = 1 + 64 * signers.length + msg.length := by
  rw [signedBytes, List.length_append, List.length_append, length_flatMap_toList, List.length_map,
    List.length_singleton]

end TokenPumper
