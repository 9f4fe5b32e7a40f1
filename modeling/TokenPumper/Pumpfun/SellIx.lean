import TokenPumper.Pumpfun.Idl
import TokenPumper.Pumpfun.Tx

namespace TokenPumper.SellIx
open LittleEndian ByteCursor ByteParser SolanaWire Idl
set_option autoImplicit true

def accUser : UInt8 := 0
def accBondingCurve : UInt8 := 1
def accAssociatedBondingCurve : UInt8 := 2
def accAssociatedUser : UInt8 := 3
def accFeeRecipient : UInt8 := 4
def accCreatorVault : UInt8 := 5
def accBuybackFeeRecipient : UInt8 := 6
def accTipRecipient : UInt8 := 7
def accMint : UInt8 := 8
def accGlobal : UInt8 := 9
def accSystemProgram : UInt8 := 10
def accToken2022Program : UInt8 := 11
def accEventAuthority : UInt8 := 12
def accPumpProgram : UInt8 := 13
def accFeeConfig : UInt8 := 14
def accPumpFeeProgram : UInt8 := 15
def accBondingCurveV2 : UInt8 := 16
def accComputeBudgetProgram : UInt8 := 17

def numKeys : UInt8 := 18
def numRequiredSigs : UInt8 := 1
def numReadonlySigned : UInt8 := 0
def numReadonlyUnsigned : UInt8 := 10
def numInstructions : UInt8 := 4

def sellAccounts : List UInt8 :=
  [accGlobal, accFeeRecipient, accMint, accBondingCurve, accAssociatedBondingCurve,
    accAssociatedUser, accUser, accSystemProgram, accCreatorVault, accToken2022Program,
    accEventAuthority, accPumpProgram, accFeeConfig, accPumpFeeProgram, accBondingCurveV2,
    accBuybackFeeRecipient]

def sigSectionLen : Nat := 1 + 64

structure SellInputs where
  user : Pubkey
  mint : Pubkey
  bondingCurve : Pubkey
  associatedBondingCurve : Pubkey
  associatedUser : Pubkey
  feeRecipient : Pubkey
  creatorVault : Pubkey
  buybackFeeRecipient : Pubkey
  bondingCurveV2 : Pubkey
  tipRecipient : Pubkey
  recentBlockhash : Bytes 32
  amountTokens : UInt64
  minSolOutput : UInt64
  tipLamports : UInt64
  cuLimit : UInt32
  cuPriceMicroLamports : UInt64

def SellInputs.keys (inp : SellInputs) : List Pubkey :=
  [inp.user, inp.bondingCurve, inp.associatedBondingCurve, inp.associatedUser, inp.feeRecipient,
    inp.creatorVault, inp.buybackFeeRecipient, inp.tipRecipient, inp.mint, globalPda,
    systemProgramId, token2022ProgramId, eventAuthorityPda, pumpProgramId, feeConfigPda,
    pumpFeeProgramId, inp.bondingCurveV2, computeBudgetProgramId]

def sellDataLen : UInt8 := 8 + 8 + 8

def transferDataLen : UInt8 := 4 + 8

def systemTransferTag : UInt32 := 2

def writeSellMessage (inp : SellInputs) : CursorWriter n Unit := do
  put [numRequiredSigs]
  put [numReadonlySigned]
  put [numReadonlyUnsigned]
  put [numKeys]
  forM inp.keys fun k => put k.toList
  put inp.recentBlockhash.toList
  put [numInstructions]
  -- SetComputeUnitPrice
  put [accComputeBudgetProgram]
  put [0]
  put [cuPriceDataLen]
  put [cbSetComputeUnitPrice]
  put (LittleEndian.u64 inp.cuPriceMicroLamports)
  -- SetComputeUnitLimit
  put [accComputeBudgetProgram]
  put [0]
  put [cuLimitDataLen]
  put [cbSetComputeUnitLimit]
  put (LittleEndian.u32 inp.cuLimit)
  -- sell
  put [accPumpProgram]
  put [UInt8.ofNat sellAccounts.length]
  put sellAccounts
  put [sellDataLen]
  put Discriminators.sell.toList
  put (LittleEndian.u64 inp.amountTokens)
  put (LittleEndian.u64 inp.minSolOutput)
  -- the tip
  put [accSystemProgram]
  put [2]
  put [accUser]
  put [accTipRecipient]
  put [transferDataLen]
  put (LittleEndian.u32 systemTransferTag)
  put (LittleEndian.u64 inp.tipLamports)

def buildSignedSellTx [Ed25519] (inp : SellInputs) (signer : SigningKey) (out : BuiltTx) :
    Option BuiltTx :=
  buildSigned sigSectionLen (writeSellMessage inp) [signer] out

def SellInputs.sellData (inp : SellInputs) : List UInt8 :=
  Discriminators.sell.toList ++
    (LittleEndian.u64 inp.amountTokens ++ LittleEndian.u64 inp.minSolOutput)

def SellInputs.message (inp : SellInputs) : Message :=
  .legacy {
    header := ⟨numRequiredSigs, numReadonlySigned, numReadonlyUnsigned⟩
    accountKeys := inp.keys
    recentBlockhash := inp.recentBlockhash
    instructions := [
      ⟨accComputeBudgetProgram, [],
        [cbSetComputeUnitPrice] ++ LittleEndian.u64 inp.cuPriceMicroLamports⟩,
      ⟨accComputeBudgetProgram, [], [cbSetComputeUnitLimit] ++ LittleEndian.u32 inp.cuLimit⟩,
      ⟨accPumpProgram, sellAccounts, inp.sellData⟩,
      ⟨accSystemProgram, [accUser, accTipRecipient],
        LittleEndian.u32 systemTransferTag ++ LittleEndian.u64 inp.tipLamports⟩]
  }

theorem length_sellData (inp : SellInputs) : inp.sellData.length = 24 := by
  simp only [SellInputs.sellData, List.length_append, length_u64, Vector.length_toList]

theorem writeSellMessage_eq (inp : SellInputs) :
    (writeSellMessage inp : CursorWriter n Unit) = put inp.message.encode := by
  simp only [writeSellMessage, put_seq, put_forM_bind]
  rfl

theorem length_message (inp : SellInputs) : inp.message.encode.length = 693 := by
  have hk : inp.keys.length = 18 := rfl
  have hb : sellAccounts.length = 16 := rfl
  simp only [SellInputs.message, Message.encode, MessageBody.encode, vec, byteVec,
    CompiledInstruction.encode, List.flatMap_cons, List.flatMap_nil, List.length_append,
    List.length_cons, List.length_nil, length_sellData, length_u64, length_u32,
    Vector.length_toList, length_flatMap_toList, hk, hb]
  simp (disch := omega) only [length_compactU16_of_lt]

theorem fits_message (inp : SellInputs) : inp.message.Fits where
  body := {
    keys := by
      change 18 < 65536
      omega
    instructions := by
      change 4 < 65536
      omega
    each := by
      have hb := length_sellData inp
      have hu : sellAccounts.length = 16 := rfl
      simp only [SellInputs.message, Message.body, List.forall_mem_cons,
        CompiledInstruction.Fits, List.length_cons, List.length_nil, List.length_append,
        length_u64, length_u32, hb, hu, List.not_mem_nil, false_imp_iff, implies_true,
        and_true]
      omega
  }
  lookups := by
    change 0 < 65536
    omega
  each := fun l hl => absurd hl List.not_mem_nil
  signatures := by
    change 1 < 128
    omega

def SellInputs.accountMetas (inp : SellInputs) : List AccountMeta :=
  [⟨inp.user, true, true⟩, ⟨inp.bondingCurve, false, true⟩,
    ⟨inp.associatedBondingCurve, false, true⟩, ⟨inp.associatedUser, false, true⟩,
    ⟨inp.feeRecipient, false, true⟩, ⟨inp.creatorVault, false, true⟩,
    ⟨inp.buybackFeeRecipient, false, true⟩, ⟨inp.tipRecipient, false, true⟩,
    ⟨inp.mint, false, false⟩, ⟨globalPda, false, false⟩, ⟨systemProgramId, false, false⟩,
    ⟨token2022ProgramId, false, false⟩, ⟨eventAuthorityPda, false, false⟩,
    ⟨pumpProgramId, false, false⟩, ⟨feeConfigPda, false, false⟩,
    ⟨pumpFeeProgramId, false, false⟩, ⟨inp.bondingCurveV2, false, false⟩,
    ⟨computeBudgetProgramId, false, false⟩]

theorem accounts_message (inp : SellInputs) (tables : Pubkey → Option (List Pubkey)) :
    inp.message.accounts tables = some inp.accountMetas := by
  simp [Message.accounts, Message.lookups, SellInputs.message, Message.body,
    SellInputs.keys, MessageBody.staticMeta, numRequiredSigs, numReadonlySigned,
    numReadonlyUnsigned, SellInputs.accountMetas]

/-- The accounts of `sell` by their names. -/
def SellInputs.sellNamed (inp : SellInputs) : SellAccounts where
  global := globalPda
  feeRecipient := inp.feeRecipient
  mint := inp.mint
  bondingCurve := inp.bondingCurve
  associatedBondingCurve := inp.associatedBondingCurve
  associatedUser := inp.associatedUser
  user := inp.user
  systemProgram := systemProgramId
  creatorVault := inp.creatorVault
  tokenProgram := token2022ProgramId
  eventAuthority := eventAuthorityPda
  program := pumpProgramId
  feeConfig := feeConfigPda
  feeProgram := pumpFeeProgramId

def SellInputs.sellArgs (inp : SellInputs) : SellArgs where
  amount := inp.amountTokens
  minSolOutput := inp.minSolOutput

def SellInputs.remaining (inp : SellInputs) : List AccountMeta :=
  [⟨inp.bondingCurveV2, false, false⟩, ⟨inp.buybackFeeRecipient, false, true⟩]

def SellInputs.meanings (inp : SellInputs) : List Meaning :=
  [.setComputeUnitPrice inp.cuPriceMicroLamports, .setComputeUnitLimit inp.cuLimit,
    .sell inp.sellNamed inp.sellArgs inp.remaining,
    .transfer ⟨inp.user, inp.tipRecipient⟩ inp.tipLamports]

def SellInputs.sellMetas (inp : SellInputs) : List AccountMeta :=
  [⟨globalPda, false, false⟩, ⟨inp.feeRecipient, false, true⟩, ⟨inp.mint, false, false⟩,
    ⟨inp.bondingCurve, false, true⟩, ⟨inp.associatedBondingCurve, false, true⟩,
    ⟨inp.associatedUser, false, true⟩, ⟨inp.user, true, true⟩, ⟨systemProgramId, false, false⟩,
    ⟨inp.creatorVault, false, true⟩, ⟨token2022ProgramId, false, false⟩,
    ⟨eventAuthorityPda, false, false⟩, ⟨pumpProgramId, false, false⟩,
    ⟨feeConfigPda, false, false⟩, ⟨pumpFeeProgramId, false, false⟩] ++ inp.remaining

def SellInputs.transferMetas (inp : SellInputs) : List AccountMeta :=
  [⟨inp.user, true, true⟩, ⟨inp.tipRecipient, false, true⟩]

theorem resolve_message (inp : SellInputs) (tables : Pubkey → Option (List Pubkey)) :
    inp.message.resolve tables = some [
      ⟨computeBudgetProgramId, [],
        [cbSetComputeUnitPrice] ++ LittleEndian.u64 inp.cuPriceMicroLamports⟩,
      ⟨computeBudgetProgramId, [], [cbSetComputeUnitLimit] ++ LittleEndian.u32 inp.cuLimit⟩,
      ⟨pumpProgramId, inp.sellMetas, inp.sellData⟩,
      ⟨systemProgramId, inp.transferMetas,
        LittleEndian.u32 systemTransferTag ++ LittleEndian.u64 inp.tipLamports⟩] := by
  rw [Message.resolve, accounts_message inp tables]
  rfl

theorem interpret_sellData (inp : SellInputs) :
    interpret ⟨pumpProgramId, inp.sellMetas, inp.sellData⟩ =
      some (.sell inp.sellNamed inp.sellArgs inp.remaining) :=
  interpret_sell rfl rfl (consumes_sellArgs inp.sellArgs)

theorem interpretAll_message (inp : SellInputs)
    (tables : Pubkey → Option (List Pubkey)) :
    (inp.message.resolve tables).bind interpretAll = some inp.meanings := by
  have hp := interpret_setComputeUnitPrice [] inp.cuPriceMicroLamports
  have hl := interpret_setComputeUnitLimit [] inp.cuLimit
  have hb := interpret_sellData inp
  have ht : interpret ⟨systemProgramId, inp.transferMetas,
      LittleEndian.u32 2 ++ LittleEndian.u64 inp.tipLamports⟩ =
        some (.transfer ⟨inp.user, inp.tipRecipient⟩ inp.tipLamports) :=
    interpret_transfer inp.tipLamports rfl rfl
  rw [resolve_message inp tables]
  simp only [interpretAll, List.mapM_cons, List.mapM_nil, cbSetComputeUnitPrice,
    cbSetComputeUnitLimit, systemTransferTag, hp, hl, hb, ht, Option.bind_eq_bind,
    Option.bind_some]
  rfl

end TokenPumper.SellIx
