import TokenPumper.Pumpfun.Alt
import TokenPumper.Pumpfun.Idl
import TokenPumper.Pumpfun.Tx

namespace TokenPumper.LaunchIx
open LittleEndian ByteCursor ByteParser SolanaWire Fallible
set_option autoImplicit true

def accUser : UInt8 := 0
def accMint : UInt8 := 1
def accBondingCurve : UInt8 := 2
def accAssociatedBondingCurve : UInt8 := 3
def accMayhemState : UInt8 := 4
def accMayhemTokenVault : UInt8 := 5
def accFeeRecipient : UInt8 := 6
def accCreatorVault : UInt8 := 7
def accUserVolumeAccumulator : UInt8 := 8
def accAssociatedUser : UInt8 := 9
def accTipRecipient : UInt8 := 10
def accBuybackFeeRecipient : UInt8 := 11
def accBondingCurveV2 : UInt8 := 12
def accSystemProgram : UInt8 := 13
def accAtaProgram : UInt8 := 14
def accComputeBudgetProgram : UInt8 := 15
def accPumpProgram : UInt8 := 16
def accMayhemProgram : UInt8 := 17
def accSolVault : UInt8 := 18
def accMintAuthority : UInt8 := 19
def accGlobal : UInt8 := 20
def accToken2022Program : UInt8 := 21
def accGlobalParams : UInt8 := 22
def accEventAuthority : UInt8 := 23
def accGlobalVolumeAccumulator : UInt8 := 24
def accFeeConfig : UInt8 := 25
def accPumpFeeProgram : UInt8 := 26

def numStaticKeys : UInt8 := 17
def numRequiredSigs : UInt8 := 2
def numReadonlySigned : UInt8 := 0
def numReadonlyUnsignedStatic : UInt8 := 5
def numInstructions : UInt8 := 6
def numAltWritable : UInt8 := 2
def numAltReadonly : UInt8 := 8

def createV2Accounts : List UInt8 :=
  [accMint, accMintAuthority, accBondingCurve, accAssociatedBondingCurve, accGlobal, accUser,
    accSystemProgram, accToken2022Program, accAtaProgram, accMayhemProgram, accGlobalParams,
    accSolVault, accMayhemState, accMayhemTokenVault, accEventAuthority, accPumpProgram]

def ataIdempotentAccounts : List UInt8 :=
  [accUser, accAssociatedUser, accUser, accMint, accSystemProgram, accToken2022Program]

def buyAccounts : List UInt8 :=
  [accGlobal, accFeeRecipient, accMint, accBondingCurve, accAssociatedBondingCurve,
    accAssociatedUser, accUser, accSystemProgram, accToken2022Program, accCreatorVault,
    accEventAuthority, accPumpProgram, accGlobalVolumeAccumulator, accUserVolumeAccumulator,
    accFeeConfig, accPumpFeeProgram, accBondingCurveV2, accBuybackFeeRecipient]

def messageVersionPrefixV0 : UInt8 := 0x80

structure LaunchInputs where
  user : Pubkey
  mint : Pubkey
  bondingCurve : Pubkey
  associatedBondingCurve : Pubkey
  mayhemState : Pubkey
  mayhemTokenVault : Pubkey
  feeRecipient : Pubkey
  creatorVault : Pubkey
  userVolumeAccumulator : Pubkey
  associatedUser : Pubkey
  tipRecipient : Pubkey
  buybackFeeRecipient : Pubkey
  bondingCurveV2 : Pubkey
  recentBlockhash : Bytes 32
  alt : AltIndices
  name : String
  symbol : String
  uri : String
  buyAmountTokens : UInt64
  buyMaxSolCost : UInt64
  trackVolume : Bool
  tipLamports : UInt64
  cuLimit : UInt32
  cuPriceMicroLamports : UInt64

def LaunchInputs.keys (inp : LaunchInputs) : List Pubkey :=
  [inp.user, inp.mint, inp.bondingCurve, inp.associatedBondingCurve, inp.mayhemState,
    inp.mayhemTokenVault, inp.feeRecipient, inp.creatorVault, inp.userVolumeAccumulator,
    inp.associatedUser, inp.tipRecipient, inp.buybackFeeRecipient, inp.bondingCurveV2,
    systemProgramId, ataProgramId, computeBudgetProgramId, pumpProgramId]

def sigSectionLen : Nat := 1 + 2 * 64

/-- Borsh string: its length as a `u32`, then its bytes. -/
def writeStr (s : String) : CursorWriter n Unit := do
  put (LittleEndian.u32 (UInt32.ofNat s.utf8ByteSize))
  put (Borsh.utf8 s)

def writeShortvec (k : Nat) : CursorWriter n Unit :=
  if k / 128 = 0 then put [UInt8.ofNat (k % 128)]
  else do
    put [UInt8.ofNat (k % 128 + 128)]
    writeShortvec (k / 128)

def LaunchInputs.createV2DataLen (inp : LaunchInputs) : Nat :=
  8 + 4 + inp.name.utf8ByteSize + 4 + inp.symbol.utf8ByteSize + 4 + inp.uri.utf8ByteSize +
    32 + 1 + 1

def buyDataLen : UInt8 := 8 + 8 + 8 + 1

def transferDataLen : UInt8 := 4 + 8

def systemTransferTag : UInt32 := 2

def writeCreateV2AndBuyMessage (inp : LaunchInputs) : CursorWriter n Unit := do
  put [messageVersionPrefixV0]
  put [numRequiredSigs]
  put [numReadonlySigned]
  put [numReadonlyUnsignedStatic]
  put [numStaticKeys]
  forM inp.keys fun k => put k.toList
  put inp.recentBlockhash.toList
  put [numInstructions]
  -- SetComputeUnitPrice
  put [accComputeBudgetProgram]
  put [0]
  put [cuPriceDataLen]
  put [cbSetComputeUnitPrice]
  put (LittleEndian.u64 inp.cuPriceMicroLamports)
  -- SetComputeUnitLimit
  put [accComputeBudgetProgram]
  put [0]
  put [cuLimitDataLen]
  put [cbSetComputeUnitLimit]
  put (LittleEndian.u32 inp.cuLimit)
  -- create_v2; the length is cut to a `u16` first
  put [accPumpProgram]
  put [UInt8.ofNat createV2Accounts.length]
  put createV2Accounts
  writeShortvec (inp.createV2DataLen % 65536)
  put Discriminators.createV2.toList
  writeStr inp.name
  writeStr inp.symbol
  writeStr inp.uri
  put inp.user.toList
  put [0]
  put [0]
  -- CreateIdempotent
  put [accAtaProgram]
  put [UInt8.ofNat ataIdempotentAccounts.length]
  put ataIdempotentAccounts
  put [1]
  put [0x01]
  -- buy
  put [accPumpProgram]
  put [UInt8.ofNat buyAccounts.length]
  put buyAccounts
  put [buyDataLen]
  put Discriminators.buy.toList
  put (LittleEndian.u64 inp.buyAmountTokens)
  put (LittleEndian.u64 inp.buyMaxSolCost)
  put [if inp.trackVolume then 1 else 0]
  -- the tip
  put [accSystemProgram]
  put [2]
  put [accUser]
  put [accTipRecipient]
  put [transferDataLen]
  put (LittleEndian.u32 systemTransferTag)
  put (LittleEndian.u64 inp.tipLamports)
  -- the lookup table footer
  put [1]
  put inp.alt.altPubkey.toList
  put [numAltWritable]
  put [inp.alt.mayhemProgram]
  put [inp.alt.solVault]
  put [numAltReadonly]
  put [inp.alt.mintAuthority]
  put [inp.alt.global]
  put [inp.alt.token2022Program]
  put [inp.alt.globalParams]
  put [inp.alt.eventAuthority]
  put [inp.alt.globalVolumeAccumulator]
  put [inp.alt.feeConfig]
  put [inp.alt.pumpFeeProgram]

def buildSignedLaunchTx [Ed25519] (inp : LaunchInputs) (funder mint : SigningKey)
    (out : BuiltTx) : Option BuiltTx :=
  buildSigned sigSectionLen (writeCreateV2AndBuyMessage inp) [funder, mint] out

theorem writeShortvec_eq (h : k < 65536) :
    (writeShortvec k : CursorWriter n Unit) = put (compactU16 k) := by
  unfold writeShortvec compactU16
  split
  · rename_i h₁
    have hm : k % 128 = k := by omega
    rw [if_pos (by omega), hm]
  · rename_i h₁
    rw [if_neg (by omega), writeShortvec]
    split
    · rename_i h₂
      have hm : k / 128 % 128 = k / 128 := by omega
      rw [if_pos (by omega), put_seq, hm]
      rfl
    · rename_i h₂
      have hm : k / 128 / 128 % 128 = k / 16384 := by omega
      rw [if_neg (by omega), writeShortvec, if_pos (by omega), put_seq, put_seq, hm]
      rfl

def LaunchInputs.createV2Data (inp : LaunchInputs) : List UInt8 :=
  Discriminators.createV2.toList ++
    (LittleEndian.u32 (UInt32.ofNat inp.name.utf8ByteSize) ++ Borsh.utf8 inp.name ++
      (LittleEndian.u32 (UInt32.ofNat inp.symbol.utf8ByteSize) ++ Borsh.utf8 inp.symbol ++
        (LittleEndian.u32 (UInt32.ofNat inp.uri.utf8ByteSize) ++ Borsh.utf8 inp.uri ++
          (inp.user.toList ++ ([0] ++ [0])))))

def LaunchInputs.buyData (inp : LaunchInputs) : List UInt8 :=
  Discriminators.buy.toList ++ (LittleEndian.u64 inp.buyAmountTokens ++
    (LittleEndian.u64 inp.buyMaxSolCost ++ [if inp.trackVolume then 1 else 0]))

def LaunchInputs.message (inp : LaunchInputs) : Message :=
  .v0 {
    header := ⟨numRequiredSigs, numReadonlySigned, numReadonlyUnsignedStatic⟩
    accountKeys := inp.keys
    recentBlockhash := inp.recentBlockhash
    instructions := [
      ⟨accComputeBudgetProgram, [],
        [cbSetComputeUnitPrice] ++ LittleEndian.u64 inp.cuPriceMicroLamports⟩,
      ⟨accComputeBudgetProgram, [], [cbSetComputeUnitLimit] ++ LittleEndian.u32 inp.cuLimit⟩,
      ⟨accPumpProgram, createV2Accounts, inp.createV2Data⟩,
      ⟨accAtaProgram, ataIdempotentAccounts, [0x01]⟩,
      ⟨accPumpProgram, buyAccounts, inp.buyData⟩,
      ⟨accSystemProgram, [accUser, accTipRecipient],
        LittleEndian.u32 systemTransferTag ++ LittleEndian.u64 inp.tipLamports⟩]
  } [⟨inp.alt.altPubkey, [inp.alt.mayhemProgram, inp.alt.solVault],
      [inp.alt.mintAuthority, inp.alt.global, inp.alt.token2022Program, inp.alt.globalParams,
        inp.alt.eventAuthority, inp.alt.globalVolumeAccumulator, inp.alt.feeConfig,
        inp.alt.pumpFeeProgram]⟩]

def LaunchInputs.textLen (inp : LaunchInputs) : Nat :=
  inp.name.utf8ByteSize + inp.symbol.utf8ByteSize + inp.uri.utf8ByteSize

theorem length_createV2Data (inp : LaunchInputs) : inp.createV2Data.length = inp.textLen + 54 := by
  simp only [LaunchInputs.createV2Data, LaunchInputs.textLen, List.length_append, length_u32,
    Borsh.length_utf8, Vector.length_toList, List.length_singleton]
  omega

theorem length_buyData (inp : LaunchInputs) : inp.buyData.length = 25 := by
  simp only [LaunchInputs.buyData, List.length_append, length_u64, Vector.length_toList,
    List.length_singleton]

theorem writeCreateV2AndBuyMessage_eq (inp : LaunchInputs) (h : inp.textLen < 65536 - 54) :
    (writeCreateV2AndBuyMessage inp : CursorWriter n Unit) = put inp.message.encode := by
  have hd : inp.createV2DataLen % 65536 = inp.createV2Data.length := by
    rw [length_createV2Data]
    simp only [LaunchInputs.createV2DataLen, LaunchInputs.textLen] at *
    omega
  simp only [writeCreateV2AndBuyMessage, writeStr, hd,
    writeShortvec_eq (k := inp.createV2Data.length) (by rw [length_createV2Data]; omega),
    put_seq, put_forM_bind]
  have hb : compactU16 inp.buyData.length = [buyDataLen] := by
    rw [length_buyData]
    rfl
  have hk : compactU16 inp.keys.length = [numStaticKeys] := rfl
  simp only [Message.encode, MessageBody.encode, LaunchInputs.message, vec, byteVec,
    CompiledInstruction.encode, AddressTableLookup.encode, List.flatMap_cons, List.flatMap_nil,
    hb, hk]
  simp only [LaunchInputs.createV2Data, LaunchInputs.buyData, List.append_assoc, List.cons_append,
    List.nil_append, List.append_nil, List.length_cons, List.length_nil, length_u32, length_u64]
  rfl

end TokenPumper.LaunchIx
