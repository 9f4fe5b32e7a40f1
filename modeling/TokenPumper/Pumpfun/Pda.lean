import TokenPumper.Pumpfun.Constants
import TokenPumper.Ed25519
import TokenPumper.Lib.Borsh

namespace TokenPumper
open LittleEndian Borsh
set_option autoImplicit true

/-- The two things that `find_program_address` takes from outside: the digest, and whether
`VerifyingKey::from_bytes` decompresses it. -/
class AddressHash where
  sha256 : List UInt8 → Bytes 32
  onCurve : Bytes 32 → Bool

variable [AddressHash]

def pdaMarker : List UInt8 := utf8 "ProgramDerivedAddress"

def maxSeedLen : Nat := 32

def createProgramAddress (seeds : List (List UInt8)) (bump : List UInt8) (programId : Pubkey) :
    Option Pubkey :=
  if seeds.any (maxSeedLen < ·.length) then none
  else
    let hash := AddressHash.sha256 (seeds.flatten ++ bump ++ programId.toList ++ pdaMarker)
    if AddressHash.onCurve hash then none else some hash

/-- The first bump from 255 downward whose address is off the curve; without one it panics. -/
def findProgramAddress (seeds : List (List UInt8)) (programId : Pubkey) :
    Option (Pubkey × UInt8) :=
  (List.range 256).reverse.findSome? fun bump =>
    (createProgramAddress seeds [UInt8.ofNat bump] programId).map fun addr =>
      (addr, UInt8.ofNat bump)

def associatedTokenAddress (wallet mint tokenProgram : Pubkey) : Option Pubkey :=
  (findProgramAddress [wallet.toList, tokenProgram.toList, mint.toList] ataProgramId).map Prod.fst

structure LaunchPdas where
  bondingCurve : Pubkey
  associatedBondingCurve : Pubkey
  mayhemState : Pubkey
  mayhemTokenVault : Pubkey
  associatedUser : Pubkey
  creatorVault : Pubkey
  userVolumeAccumulator : Pubkey
  bondingCurveV2 : Pubkey

def LaunchPdas.derive (mint user : Pubkey) : Option LaunchPdas := do
  let bondingCurve ← (findProgramAddress [utf8 "bonding-curve", mint.toList] pumpProgramId).map
    Prod.fst
  pure {
    bondingCurve
    associatedBondingCurve := ← associatedTokenAddress bondingCurve mint token2022ProgramId
    mayhemState :=
      ← (findProgramAddress [utf8 "mayhem-state", mint.toList] mayhemProgramId).map Prod.fst
    mayhemTokenVault := ← associatedTokenAddress solVaultPda mint token2022ProgramId
    associatedUser := ← associatedTokenAddress user mint token2022ProgramId
    creatorVault :=
      ← (findProgramAddress [utf8 "creator-vault", user.toList] pumpProgramId).map Prod.fst
    userVolumeAccumulator :=
      ← (findProgramAddress [utf8 "user_volume_accumulator", user.toList] pumpProgramId).map
        Prod.fst
    bondingCurveV2 :=
      ← (findProgramAddress [utf8 "bonding-curve-v2", mint.toList] pumpProgramId).map Prod.fst }

end TokenPumper
