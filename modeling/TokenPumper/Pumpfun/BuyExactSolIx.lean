import TokenPumper.Pumpfun.Idl
import TokenPumper.Pumpfun.Tx

namespace TokenPumper.BuyExactSolIx
open LittleEndian ByteCursor ByteParser SolanaWire Idl
set_option autoImplicit true

def accUser : UInt8 := 0
def accBondingCurve : UInt8 := 1
def accAssociatedBondingCurve : UInt8 := 2
def accAssociatedUser : UInt8 := 3
def accFeeRecipient : UInt8 := 4
def accCreatorVault : UInt8 := 5
def accUserVolumeAccumulator : UInt8 := 6
def accBuybackFeeRecipient : UInt8 := 7
def accTipRecipient : UInt8 := 8
def accMint : UInt8 := 9
def accGlobal : UInt8 := 10
def accSystemProgram : UInt8 := 11
def accToken2022Program : UInt8 := 12
def accEventAuthority : UInt8 := 13
def accPumpProgram : UInt8 := 14
def accFeeConfig : UInt8 := 15
def accPumpFeeProgram : UInt8 := 16
def accBondingCurveV2 : UInt8 := 17
def accGlobalVolumeAccumulator : UInt8 := 18
def accAtaProgram : UInt8 := 19
def accComputeBudgetProgram : UInt8 := 20

def numKeys : UInt8 := 21
def numRequiredSigs : UInt8 := 1
def numReadonlySigned : UInt8 := 0
def numReadonlyUnsigned : UInt8 := 12
def numInstructions : UInt8 := 5

def buyExactSolAccounts : List UInt8 :=
  [accGlobal, accFeeRecipient, accMint, accBondingCurve, accAssociatedBondingCurve,
    accAssociatedUser, accUser, accSystemProgram, accToken2022Program, accCreatorVault,
    accEventAuthority, accPumpProgram, accGlobalVolumeAccumulator, accUserVolumeAccumulator,
    accFeeConfig, accPumpFeeProgram, accBondingCurveV2, accBuybackFeeRecipient]

def ataIdempotentAccounts : List UInt8 :=
  [accUser, accAssociatedUser, accUser, accMint, accSystemProgram, accToken2022Program]

def sigSectionLen : Nat := 1 + 64

structure BuyExactSolInputs where
  user : Pubkey
  mint : Pubkey
  bondingCurve : Pubkey
  associatedBondingCurve : Pubkey
  associatedUser : Pubkey
  feeRecipient : Pubkey
  creatorVault : Pubkey
  userVolumeAccumulator : Pubkey
  buybackFeeRecipient : Pubkey
  bondingCurveV2 : Pubkey
  tipRecipient : Pubkey
  recentBlockhash : Bytes 32
  spendableSolIn : UInt64
  minTokensOut : UInt64
  tipLamports : UInt64
  cuLimit : UInt32
  cuPriceMicroLamports : UInt64

def BuyExactSolInputs.keys (inp : BuyExactSolInputs) : List Pubkey :=
  [inp.user, inp.bondingCurve, inp.associatedBondingCurve, inp.associatedUser, inp.feeRecipient,
    inp.creatorVault, inp.userVolumeAccumulator, inp.buybackFeeRecipient, inp.tipRecipient,
    inp.mint, globalPda, systemProgramId, token2022ProgramId, eventAuthorityPda, pumpProgramId,
    feeConfigPda, pumpFeeProgramId, inp.bondingCurveV2, globalVolumeAccumulatorPda, ataProgramId,
    computeBudgetProgramId]

def buyDataLen : UInt8 := 8 + 8 + 8 + 1

def transferDataLen : UInt8 := 4 + 8

def systemTransferTag : UInt32 := 2

def writeBuyMessage (inp : BuyExactSolInputs) : CursorWriter n Unit := do
  put [numRequiredSigs]
  put [numReadonlySigned]
  put [numReadonlyUnsigned]
  put [numKeys]
  forM inp.keys fun k => put k.toList
  put inp.recentBlockhash.toList
  put [numInstructions]
  -- SetComputeUnitPrice
  put [accComputeBudgetProgram]
  put [0]
  put [cuPriceDataLen]
  put [cbSetComputeUnitPrice]
  put (LittleEndian.u64 inp.cuPriceMicroLamports)
  -- SetComputeUnitLimit
  put [accComputeBudgetProgram]
  put [0]
  put [cuLimitDataLen]
  put [cbSetComputeUnitLimit]
  put (LittleEndian.u32 inp.cuLimit)
  -- CreateIdempotent
  put [accAtaProgram]
  put [UInt8.ofNat ataIdempotentAccounts.length]
  put ataIdempotentAccounts
  put [1]
  put [0x01]
  -- buy_exact_sol_in
  put [accPumpProgram]
  put [UInt8.ofNat buyExactSolAccounts.length]
  put buyExactSolAccounts
  put [buyDataLen]
  put Discriminators.buyExactSolIn.toList
  put (LittleEndian.u64 inp.spendableSolIn)
  put (LittleEndian.u64 inp.minTokensOut)
  put [0]
  -- the tip
  put [accSystemProgram]
  put [2]
  put [accUser]
  put [accTipRecipient]
  put [transferDataLen]
  put (LittleEndian.u32 systemTransferTag)
  put (LittleEndian.u64 inp.tipLamports)

def buildSignedBuyTx [Ed25519] (inp : BuyExactSolInputs) (signer : SigningKey) (out : BuiltTx) :
    Option BuiltTx :=
  buildSigned sigSectionLen (writeBuyMessage inp) [signer] out

def BuyExactSolInputs.buyData (inp : BuyExactSolInputs) : List UInt8 :=
  Discriminators.buyExactSolIn.toList ++ (LittleEndian.u64 inp.spendableSolIn ++
    (LittleEndian.u64 inp.minTokensOut ++ [0]))

def BuyExactSolInputs.message (inp : BuyExactSolInputs) : Message :=
  .legacy {
    header := ⟨numRequiredSigs, numReadonlySigned, numReadonlyUnsigned⟩
    accountKeys := inp.keys
    recentBlockhash := inp.recentBlockhash
    instructions := [
      ⟨accComputeBudgetProgram, [],
        [cbSetComputeUnitPrice] ++ LittleEndian.u64 inp.cuPriceMicroLamports⟩,
      ⟨accComputeBudgetProgram, [], [cbSetComputeUnitLimit] ++ LittleEndian.u32 inp.cuLimit⟩,
      ⟨accAtaProgram, ataIdempotentAccounts, [0x01]⟩,
      ⟨accPumpProgram, buyExactSolAccounts, inp.buyData⟩,
      ⟨accSystemProgram, [accUser, accTipRecipient],
        LittleEndian.u32 systemTransferTag ++ LittleEndian.u64 inp.tipLamports⟩]
  }

theorem length_buyData (inp : BuyExactSolInputs) : inp.buyData.length = 25 := by
  simp only [BuyExactSolInputs.buyData, List.length_append, length_u64, Vector.length_toList,
    List.length_singleton]

theorem writeBuyMessage_eq (inp : BuyExactSolInputs) :
    (writeBuyMessage inp : CursorWriter n Unit) = put inp.message.encode := by
  simp only [writeBuyMessage, put_seq, put_forM_bind]
  rfl

theorem length_message (inp : BuyExactSolInputs) : inp.message.encode.length = 802 := by
  have hk : inp.keys.length = 21 := rfl
  have ha : ataIdempotentAccounts.length = 6 := rfl
  have hb : buyExactSolAccounts.length = 18 := rfl
  simp only [BuyExactSolInputs.message, Message.encode, MessageBody.encode, vec, byteVec,
    CompiledInstruction.encode, List.flatMap_cons, List.flatMap_nil, List.length_append,
    List.length_cons, List.length_nil, length_buyData, length_u64, length_u32,
    Vector.length_toList, length_flatMap_toList, hk, ha, hb]
  simp (disch := omega) only [length_compactU16_of_lt]

theorem fits_message (inp : BuyExactSolInputs) : inp.message.Fits where
  body := {
    keys := by
      change 21 < 65536
      omega
    instructions := by
      change 5 < 65536
      omega
    each := by
      have hb := length_buyData inp
      have ha : ataIdempotentAccounts.length = 6 := rfl
      have hu : buyExactSolAccounts.length = 18 := rfl
      simp only [BuyExactSolInputs.message, Message.body, List.forall_mem_cons,
        CompiledInstruction.Fits, List.length_cons, List.length_nil, List.length_append,
        length_u64, length_u32, hb, ha, hu, List.not_mem_nil, false_imp_iff, implies_true,
        and_true]
      omega
  }
  lookups := by
    change 0 < 65536
    omega
  each := fun l hl => absurd hl List.not_mem_nil
  signatures := by
    change 1 < 128
    omega

def BuyExactSolInputs.accountMetas (inp : BuyExactSolInputs) : List AccountMeta :=
  [⟨inp.user, true, true⟩, ⟨inp.bondingCurve, false, true⟩,
    ⟨inp.associatedBondingCurve, false, true⟩, ⟨inp.associatedUser, false, true⟩,
    ⟨inp.feeRecipient, false, true⟩, ⟨inp.creatorVault, false, true⟩,
    ⟨inp.userVolumeAccumulator, false, true⟩, ⟨inp.buybackFeeRecipient, false, true⟩,
    ⟨inp.tipRecipient, false, true⟩, ⟨inp.mint, false, false⟩, ⟨globalPda, false, false⟩,
    ⟨systemProgramId, false, false⟩, ⟨token2022ProgramId, false, false⟩,
    ⟨eventAuthorityPda, false, false⟩, ⟨pumpProgramId, false, false⟩,
    ⟨feeConfigPda, false, false⟩, ⟨pumpFeeProgramId, false, false⟩,
    ⟨inp.bondingCurveV2, false, false⟩, ⟨globalVolumeAccumulatorPda, false, false⟩,
    ⟨ataProgramId, false, false⟩, ⟨computeBudgetProgramId, false, false⟩]

theorem accounts_message (inp : BuyExactSolInputs) (tables : Pubkey → Option (List Pubkey)) :
    inp.message.accounts tables = some inp.accountMetas := by
  simp [Message.accounts, Message.lookups, BuyExactSolInputs.message, Message.body,
    BuyExactSolInputs.keys, MessageBody.staticMeta, numRequiredSigs, numReadonlySigned,
    numReadonlyUnsigned, BuyExactSolInputs.accountMetas]

def BuyExactSolInputs.ataNamed (inp : BuyExactSolInputs) : CreateIdempotentAccounts where
  funder := inp.user
  associatedToken := inp.associatedUser
  wallet := inp.user
  mint := inp.mint
  systemProgram := systemProgramId
  tokenProgram := token2022ProgramId

/-- The accounts of `buy_exact_sol_in` by their names. -/
def BuyExactSolInputs.buyNamed (inp : BuyExactSolInputs) : BuyAccounts where
  global := globalPda
  feeRecipient := inp.feeRecipient
  mint := inp.mint
  bondingCurve := inp.bondingCurve
  associatedBondingCurve := inp.associatedBondingCurve
  associatedUser := inp.associatedUser
  user := inp.user
  systemProgram := systemProgramId
  tokenProgram := token2022ProgramId
  creatorVault := inp.creatorVault
  eventAuthority := eventAuthorityPda
  program := pumpProgramId
  globalVolumeAccumulator := globalVolumeAccumulatorPda
  userVolumeAccumulator := inp.userVolumeAccumulator
  feeConfig := feeConfigPda
  feeProgram := pumpFeeProgramId

def BuyExactSolInputs.buyArgs (inp : BuyExactSolInputs) : BuyExactSolInArgs where
  spendableSolIn := inp.spendableSolIn
  minTokensOut := inp.minTokensOut
  trackVolume := false

def BuyExactSolInputs.remaining (inp : BuyExactSolInputs) : List AccountMeta :=
  [⟨inp.bondingCurveV2, false, false⟩, ⟨inp.buybackFeeRecipient, false, true⟩]

def BuyExactSolInputs.meanings (inp : BuyExactSolInputs) : List Meaning :=
  [.setComputeUnitPrice inp.cuPriceMicroLamports, .setComputeUnitLimit inp.cuLimit,
    .createIdempotent inp.ataNamed, .buyExactSolIn inp.buyNamed inp.buyArgs inp.remaining,
    .transfer ⟨inp.user, inp.tipRecipient⟩ inp.tipLamports]

def BuyExactSolInputs.ataMetas (inp : BuyExactSolInputs) : List AccountMeta :=
  [⟨inp.user, true, true⟩, ⟨inp.associatedUser, false, true⟩, ⟨inp.user, true, true⟩,
    ⟨inp.mint, false, false⟩, ⟨systemProgramId, false, false⟩, ⟨token2022ProgramId, false, false⟩]

def BuyExactSolInputs.buyMetas (inp : BuyExactSolInputs) : List AccountMeta :=
  [⟨globalPda, false, false⟩, ⟨inp.feeRecipient, false, true⟩, ⟨inp.mint, false, false⟩,
    ⟨inp.bondingCurve, false, true⟩, ⟨inp.associatedBondingCurve, false, true⟩,
    ⟨inp.associatedUser, false, true⟩, ⟨inp.user, true, true⟩, ⟨systemProgramId, false, false⟩,
    ⟨token2022ProgramId, false, false⟩, ⟨inp.creatorVault, false, true⟩,
    ⟨eventAuthorityPda, false, false⟩, ⟨pumpProgramId, false, false⟩,
    ⟨globalVolumeAccumulatorPda, false, false⟩, ⟨inp.userVolumeAccumulator, false, true⟩,
    ⟨feeConfigPda, false, false⟩, ⟨pumpFeeProgramId, false, false⟩] ++ inp.remaining

def BuyExactSolInputs.transferMetas (inp : BuyExactSolInputs) : List AccountMeta :=
  [⟨inp.user, true, true⟩, ⟨inp.tipRecipient, false, true⟩]

theorem resolve_message (inp : BuyExactSolInputs) (tables : Pubkey → Option (List Pubkey)) :
    inp.message.resolve tables = some [
      ⟨computeBudgetProgramId, [],
        [cbSetComputeUnitPrice] ++ LittleEndian.u64 inp.cuPriceMicroLamports⟩,
      ⟨computeBudgetProgramId, [], [cbSetComputeUnitLimit] ++ LittleEndian.u32 inp.cuLimit⟩,
      ⟨ataProgramId, inp.ataMetas, [0x01]⟩,
      ⟨pumpProgramId, inp.buyMetas, inp.buyData⟩,
      ⟨systemProgramId, inp.transferMetas,
        LittleEndian.u32 systemTransferTag ++ LittleEndian.u64 inp.tipLamports⟩] := by
  rw [Message.resolve, accounts_message inp tables]
  rfl

theorem interpret_buyData (inp : BuyExactSolInputs) :
    interpret ⟨pumpProgramId, inp.buyMetas, inp.buyData⟩ =
      some (.buyExactSolIn inp.buyNamed inp.buyArgs inp.remaining) :=
  interpret_buyExactSolIn rfl rfl (consumes_buyExactSolInArgs inp.buyArgs)

theorem interpretAll_message (inp : BuyExactSolInputs)
    (tables : Pubkey → Option (List Pubkey)) :
    (inp.message.resolve tables).bind interpretAll = some inp.meanings := by
  have hp := interpret_setComputeUnitPrice [] inp.cuPriceMicroLamports
  have hl := interpret_setComputeUnitLimit [] inp.cuLimit
  have ha : interpret ⟨ataProgramId, inp.ataMetas, [1]⟩ = some (.createIdempotent inp.ataNamed) :=
    interpret_createIdempotent rfl rfl
  have hb := interpret_buyData inp
  have ht : interpret ⟨systemProgramId, inp.transferMetas,
      LittleEndian.u32 2 ++ LittleEndian.u64 inp.tipLamports⟩ =
        some (.transfer ⟨inp.user, inp.tipRecipient⟩ inp.tipLamports) :=
    interpret_transfer inp.tipLamports rfl rfl
  rw [resolve_message inp tables]
  simp only [interpretAll, List.mapM_cons, List.mapM_nil, cbSetComputeUnitPrice,
    cbSetComputeUnitLimit, systemTransferTag, hp, hl, ha, hb, ht, Option.bind_eq_bind,
    Option.bind_some]
  rfl

end TokenPumper.BuyExactSolIx
