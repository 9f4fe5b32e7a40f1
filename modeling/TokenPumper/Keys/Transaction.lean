import TokenPumper.Ed25519
import TokenPumper.Lib.LittleEndian

namespace TokenPumper
open LittleEndian
set_option autoImplicit true

namespace Transaction

def systemProgram : Pubkey := Vector.replicate 32 0

def lamportsPerSignature : UInt64 := 5000

def rentExemptMinLamports : UInt64 := 890880

def maxChildrenPerSweepTx : Nat := 9

/-- Seven bits a byte; a `u16` has at most three such groups. -/
def pushGroups : Nat → Nat → List UInt8
  | 0, _ => []
  | groups + 1, n =>
    if n / 128 = 0 then [UInt8.ofNat (n % 128)]
    else UInt8.ofNat (n % 128 + 128) :: pushGroups groups (n / 128)

/-- A length goes through `as u16`. -/
def shortvec (n : Nat) : List UInt8 := pushGroups 3 (n % 65536)

/-- A transfer instruction; indices go through `as u8`. -/
def transferIx (program source target : Nat) (amount : UInt64) : List UInt8 :=
  [UInt8.ofNat program] ++ shortvec 2 ++ [UInt8.ofNat source, UInt8.ofNat target] ++ shortvec 12 ++
    u32 2 ++ u64 amount

/-- A legacy message of the system program's transfers only. -/
def transfersMessage (header : List UInt8) (accountKeys : List Pubkey) (recentBlockhash : Bytes 32)
    (ixs : List (List UInt8)) : List UInt8 :=
  header ++ shortvec accountKeys.length ++ accountKeys.flatMap Vector.toList ++
    recentBlockhash.toList ++ shortvec ixs.length ++ ixs.flatten

variable [Ed25519]

/-- Lists of different lengths fail the assertion, a panic. -/
def buildConsolidatedSweep (eater : SigningKey) (children : List SigningKey)
    (amounts : List UInt64) (recentBlockhash : Bytes 32) : Option (List UInt8) :=
  if children.length = amounts.length then
    let n := children.length
    let accountKeys := Ed25519.verifyingKey eater ::
      (children.map Ed25519.verifyingKey ++ [systemProgram])
    let ixs := amounts.zipIdx.map fun (amount, i) => transferIx (n + 1) (i + 1) 0 amount
    let message := transfersMessage [UInt8.ofNat (n + 1), 0, 1] accountKeys recentBlockhash ixs
    some (shortvec (n + 1) ++ (Ed25519.sign eater message).toList ++
      children.flatMap (fun c => (Ed25519.sign c message).toList) ++ message)
  else none

def buildDistribute (sender : SigningKey) (recipients : List (Pubkey × UInt64))
    (recentBlockhash : Bytes 32) : List UInt8 :=
  let n := recipients.length
  let accountKeys := Ed25519.verifyingKey sender ::
    (recipients.map Prod.fst ++ [systemProgram])
  let ixs := recipients.zipIdx.map fun ((_, amount), i) => transferIx (n + 1) 0 (i + 1) amount
  let message := transfersMessage [1, 0, 1] accountKeys recentBlockhash ixs
  shortvec 1 ++ (Ed25519.sign sender message).toList ++ message

end Transaction

end TokenPumper
