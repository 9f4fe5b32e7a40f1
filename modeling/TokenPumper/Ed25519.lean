import TokenPumper.Lib.LittleEndian

namespace TokenPumper
open LittleEndian
set_option autoImplicit true

/-- A signing key is its 32 secret bytes. -/
abbrev SigningKey := Bytes 32

abbrev Pubkey := Bytes 32

/-- The two functions of `ed25519_dalek` that the program calls on a signing key, and the text of
its error for a keypair whose halves do not belong together. -/
class Ed25519 where
  verifyingKey : SigningKey → Pubkey
  sign : SigningKey → List UInt8 → Bytes 64
  keypairError : Bytes 64 → String

variable [Ed25519]

/-- `SigningKey::to_keypair_bytes`: the secret half, then the public half. -/
def toKeypairBytes (kp : SigningKey) : List UInt8 :=
  kp.toList ++ (Ed25519.verifyingKey kp).toList

/-- `SigningKey::from_keypair_bytes` refuses a public half that is not the secret half's. -/
def fromKeypairBytes (bytes : Bytes 64) : Option SigningKey :=
  let kp : SigningKey := ofList (bytes.toList.take 32) (by simp)
  if (Ed25519.verifyingKey kp).toList = bytes.toList.drop 32 then some kp else none

@[simp] theorem length_toKeypairBytes (kp : SigningKey) : (toKeypairBytes kp).length = 64 := by
  rw [toKeypairBytes, List.length_append, Vector.length_toList, Vector.length_toList]

theorem fromKeypairBytes_toKeypairBytes (kp : SigningKey) (bytes : Bytes 64)
    (h : bytes.toList = toKeypairBytes kp) : fromKeypairBytes bytes = some kp := by
  have hk : (ofList (bytes.toList.take 32) (by simp) : SigningKey) = kp := by
    apply Vector.toList_inj.1
    rw [toList_ofList, h, toKeypairBytes, List.take_left' kp.length_toList]
  have hd : (Ed25519.verifyingKey kp).toList = bytes.toList.drop 32 := by
    rw [h, toKeypairBytes, List.drop_left' kp.length_toList]
  simp only [fromKeypairBytes, hk, hd, ↓reduceIte]

abbrev Ed25519.ofVectors (publics : List (SigningKey × Pubkey))
    (signatures : List (SigningKey × Bytes 64)) : Ed25519 where
  verifyingKey kp := (publics.lookup kp).getD (Vector.replicate 32 0)
  sign kp _ := (signatures.lookup kp).getD (Vector.replicate 64 0)
  keypairError _ := "signature error: Mismatched Keypair detected"

def samplePublic1 : Pubkey := #v[
  138, 136, 227, 221, 116, 9, 241, 149, 253, 82, 219, 45, 60, 186, 93, 114, 202, 103, 9, 191, 29,
  148, 18, 27, 243, 116, 136, 1, 180, 15, 111, 92]

def samplePublic2 : Pubkey := #v[
  129, 57, 119, 14, 168, 125, 23, 95, 86, 163, 84, 102, 195, 76, 126, 204, 203, 141, 138, 145,
  180, 238, 55, 162, 93, 246, 15, 91, 143, 201, 179, 148]

def samplePublic3 : Pubkey := #v[
  237, 73, 40, 198, 40, 209, 194, 198, 234, 233, 3, 56, 144, 89, 149, 97, 41, 89, 39, 58, 92, 99,
  249, 54, 54, 193, 70, 20, 172, 135, 55, 209]

def samplePublics : List (SigningKey × Pubkey) :=
  [(Vector.replicate 32 1, samplePublic1), (Vector.replicate 32 2, samplePublic2),
    (Vector.replicate 32 3, samplePublic3)]

abbrev Ed25519.sample : Ed25519 := .ofVectors samplePublics []

end TokenPumper
