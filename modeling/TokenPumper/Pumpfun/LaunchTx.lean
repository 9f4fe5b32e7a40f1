import TokenPumper.Pumpfun.LaunchIx

namespace TokenPumper.LaunchIx
open LittleEndian ByteCursor ByteParser SolanaWire Fallible Idl
set_option autoImplicit true

/-- The second length byte of the `create_v2` data appears from 74 bytes of text on. -/
theorem length_message (inp : LaunchInputs) (h : inp.textLen < 16330) :
    inp.message.encode.length =
      if inp.textLen ≤ 73 then 793 + inp.textLen else 794 + inp.textLen := by
  have hd : (compactU16 (inp.textLen + 54)).length = if inp.textLen ≤ 73 then 1 else 2 := by
    unfold compactU16
    split
    · rw [if_pos (by omega)]
      rfl
    · rw [if_pos (by omega), if_neg (by omega)]
      rfl
  have hk : inp.keys.length = 17 := rfl
  have hc : createV2Accounts.length = 16 := rfl
  have ha : ataIdempotentAccounts.length = 6 := rfl
  have hb : buyAccounts.length = 18 := rfl
  simp only [LaunchInputs.message, Message.encode, MessageBody.encode, vec, byteVec,
    CompiledInstruction.encode, AddressTableLookup.encode, List.flatMap_cons, List.flatMap_nil,
    List.length_append, List.length_cons, List.length_nil, length_createV2Data, length_buyData,
    length_u64, length_u32, Vector.length_toList, length_flatMap_toList, hd, hk, hc, ha, hb]
  simp (disch := omega) only [length_compactU16_of_lt]
  split
  · omega
  · omega

theorem fits_message (inp : LaunchInputs) (h : inp.textLen ≤ 309) : inp.message.Fits where
  body := {
    keys := by
      change 17 < 65536
      omega
    instructions := by
      change 6 < 65536
      omega
    each := by
      have hd := length_createV2Data inp
      have hb := length_buyData inp
      simp only [LaunchInputs.message, Message.body, List.forall_mem_cons, CompiledInstruction.Fits,
        List.length_cons, List.length_nil, List.length_append, length_u64, length_u32, hd, hb]
      have hc : createV2Accounts.length = 16 := rfl
      have ha : ataIdempotentAccounts.length = 6 := rfl
      have hu : buyAccounts.length = 18 := rfl
      simp only [hc, ha, hu, List.not_mem_nil, false_imp_iff, implies_true, and_true]
      omega
  }
  lookups := by
    change 1 < 65536
    omega
  each := by
    simp only [LaunchInputs.message, Message.lookups, List.forall_mem_cons,
      AddressTableLookup.Fits, List.length_cons, List.length_nil]
    simp
  signatures := by
    change 2 < 128
    omega

def LaunchInputs.accountMetas (inp : LaunchInputs) : List AccountMeta :=
  [⟨inp.user, true, true⟩, ⟨inp.mint, true, true⟩, ⟨inp.bondingCurve, false, true⟩,
    ⟨inp.associatedBondingCurve, false, true⟩, ⟨inp.mayhemState, false, true⟩,
    ⟨inp.mayhemTokenVault, false, true⟩, ⟨inp.feeRecipient, false, true⟩,
    ⟨inp.creatorVault, false, true⟩, ⟨inp.userVolumeAccumulator, false, true⟩,
    ⟨inp.associatedUser, false, true⟩, ⟨inp.tipRecipient, false, true⟩,
    ⟨inp.buybackFeeRecipient, false, true⟩, ⟨inp.bondingCurveV2, false, false⟩,
    ⟨systemProgramId, false, false⟩, ⟨ataProgramId, false, false⟩,
    ⟨computeBudgetProgramId, false, false⟩, ⟨pumpProgramId, false, false⟩,
    ⟨mayhemProgramId, false, true⟩, ⟨solVaultPda, false, true⟩,
    ⟨mintAuthorityPda, false, false⟩, ⟨globalPda, false, false⟩,
    ⟨token2022ProgramId, false, false⟩, ⟨globalParamsPda, false, false⟩,
    ⟨eventAuthorityPda, false, false⟩, ⟨globalVolumeAccumulatorPda, false, false⟩,
    ⟨feeConfigPda, false, false⟩, ⟨pumpFeeProgramId, false, false⟩]

theorem accounts_message (inp : LaunchInputs) (hv : inp.alt.Valid entries)
    (ht : tables inp.alt.altPubkey = some entries) :
    inp.message.accounts tables = some inp.accountMetas := by
  obtain ⟨h₁, h₂, h₃, h₄, h₅, h₆, h₇, h₈, h₉, h₁₀⟩ := hv
  simp only [Message.accounts, LaunchInputs.message, Message.lookups, List.mapM_cons,
    List.mapM_nil, ht, loadAddresses, h₁, h₂, h₃, h₄, h₅, h₆, h₇, h₈, h₉, h₁₀, Option.map_some,
    Option.bind_eq_bind, Option.bind_some, Option.pure_def]
  simp [Message.body, LaunchInputs.keys, MessageBody.staticMeta, numRequiredSigs,
    numReadonlySigned, numReadonlyUnsignedStatic, LaunchInputs.accountMetas]

/-- The accounts of `create_v2` by their names. -/
def LaunchInputs.createV2Named (inp : LaunchInputs) : CreateV2Accounts where
  mint := inp.mint
  mintAuthority := mintAuthorityPda
  bondingCurve := inp.bondingCurve
  associatedBondingCurve := inp.associatedBondingCurve
  global := globalPda
  user := inp.user
  systemProgram := systemProgramId
  tokenProgram := token2022ProgramId
  associatedTokenProgram := ataProgramId
  mayhemProgramId := mayhemProgramId
  globalParams := globalParamsPda
  solVault := solVaultPda
  mayhemState := inp.mayhemState
  mayhemTokenVault := inp.mayhemTokenVault
  eventAuthority := eventAuthorityPda
  program := pumpProgramId

def LaunchInputs.createV2Args (inp : LaunchInputs) : CreateV2Args where
  name := inp.name
  symbol := inp.symbol
  uri := inp.uri
  creator := inp.user
  isMayhemMode := false
  isCashbackEnabled := false

def LaunchInputs.ataNamed (inp : LaunchInputs) : CreateIdempotentAccounts where
  funder := inp.user
  associatedToken := inp.associatedUser
  wallet := inp.user
  mint := inp.mint
  systemProgram := systemProgramId
  tokenProgram := token2022ProgramId

/-- The accounts of `buy` by their names. -/
def LaunchInputs.buyNamed (inp : LaunchInputs) : BuyAccounts where
  global := globalPda
  feeRecipient := inp.feeRecipient
  mint := inp.mint
  bondingCurve := inp.bondingCurve
  associatedBondingCurve := inp.associatedBondingCurve
  associatedUser := inp.associatedUser
  user := inp.user
  systemProgram := systemProgramId
  tokenProgram := token2022ProgramId
  creatorVault := inp.creatorVault
  eventAuthority := eventAuthorityPda
  program := pumpProgramId
  globalVolumeAccumulator := globalVolumeAccumulatorPda
  userVolumeAccumulator := inp.userVolumeAccumulator
  feeConfig := feeConfigPda
  feeProgram := pumpFeeProgramId

def LaunchInputs.buyArgs (inp : LaunchInputs) : BuyArgs where
  amount := inp.buyAmountTokens
  maxSolCost := inp.buyMaxSolCost
  trackVolume := inp.trackVolume

def LaunchInputs.remaining (inp : LaunchInputs) : List AccountMeta :=
  [⟨inp.bondingCurveV2, false, false⟩, ⟨inp.buybackFeeRecipient, false, true⟩]

def LaunchInputs.meanings (inp : LaunchInputs) : List Meaning :=
  [.setComputeUnitPrice inp.cuPriceMicroLamports, .setComputeUnitLimit inp.cuLimit,
    .createV2 inp.createV2Named inp.createV2Args [], .createIdempotent inp.ataNamed,
    .buy inp.buyNamed inp.buyArgs inp.remaining,
    .transfer ⟨inp.user, inp.tipRecipient⟩ inp.tipLamports]

def LaunchInputs.createV2Metas (inp : LaunchInputs) : List AccountMeta :=
  [⟨inp.mint, true, true⟩, ⟨mintAuthorityPda, false, false⟩, ⟨inp.bondingCurve, false, true⟩,
    ⟨inp.associatedBondingCurve, false, true⟩, ⟨globalPda, false, false⟩,
    ⟨inp.user, true, true⟩, ⟨systemProgramId, false, false⟩, ⟨token2022ProgramId, false, false⟩,
    ⟨ataProgramId, false, false⟩, ⟨mayhemProgramId, false, true⟩,
    ⟨globalParamsPda, false, false⟩, ⟨solVaultPda, false, true⟩, ⟨inp.mayhemState, false, true⟩,
    ⟨inp.mayhemTokenVault, false, true⟩, ⟨eventAuthorityPda, false, false⟩,
    ⟨pumpProgramId, false, false⟩]

def LaunchInputs.ataMetas (inp : LaunchInputs) : List AccountMeta :=
  [⟨inp.user, true, true⟩, ⟨inp.associatedUser, false, true⟩, ⟨inp.user, true, true⟩,
    ⟨inp.mint, true, true⟩, ⟨systemProgramId, false, false⟩, ⟨token2022ProgramId, false, false⟩]

def LaunchInputs.buyMetas (inp : LaunchInputs) : List AccountMeta :=
  [⟨globalPda, false, false⟩, ⟨inp.feeRecipient, false, true⟩, ⟨inp.mint, true, true⟩,
    ⟨inp.bondingCurve, false, true⟩, ⟨inp.associatedBondingCurve, false, true⟩,
    ⟨inp.associatedUser, false, true⟩, ⟨inp.user, true, true⟩, ⟨systemProgramId, false, false⟩,
    ⟨token2022ProgramId, false, false⟩, ⟨inp.creatorVault, false, true⟩,
    ⟨eventAuthorityPda, false, false⟩, ⟨pumpProgramId, false, false⟩,
    ⟨globalVolumeAccumulatorPda, false, false⟩, ⟨inp.userVolumeAccumulator, false, true⟩,
    ⟨feeConfigPda, false, false⟩, ⟨pumpFeeProgramId, false, false⟩] ++ inp.remaining

def LaunchInputs.transferMetas (inp : LaunchInputs) : List AccountMeta :=
  [⟨inp.user, true, true⟩, ⟨inp.tipRecipient, false, true⟩]

theorem resolve_message (inp : LaunchInputs) (hv : inp.alt.Valid entries)
    (ht : tables inp.alt.altPubkey = some entries) :
    inp.message.resolve tables = some [
      ⟨computeBudgetProgramId, [],
        [cbSetComputeUnitPrice] ++ LittleEndian.u64 inp.cuPriceMicroLamports⟩,
      ⟨computeBudgetProgramId, [], [cbSetComputeUnitLimit] ++ LittleEndian.u32 inp.cuLimit⟩,
      ⟨pumpProgramId, inp.createV2Metas, inp.createV2Data⟩,
      ⟨ataProgramId, inp.ataMetas, [0x01]⟩,
      ⟨pumpProgramId, inp.buyMetas, inp.buyData⟩,
      ⟨systemProgramId, inp.transferMetas,
        LittleEndian.u32 systemTransferTag ++ LittleEndian.u64 inp.tipLamports⟩] := by
  rw [Message.resolve, accounts_message inp hv ht]
  rfl

theorem interpret_createV2Data (inp : LaunchInputs) (h : inp.textLen ≤ 309) :
    interpret ⟨pumpProgramId, inp.createV2Metas, inp.createV2Data⟩ =
      some (.createV2 inp.createV2Named inp.createV2Args []) := by
  have hl : inp.textLen < 2 ^ 32 := by omega
  exact interpret_createV2 rfl rfl (consumes_createV2Args inp.createV2Args hl)

theorem interpret_buyData (inp : LaunchInputs) :
    interpret ⟨pumpProgramId, inp.buyMetas, inp.buyData⟩ =
      some (.buy inp.buyNamed inp.buyArgs inp.remaining) :=
  interpret_buy rfl rfl (consumes_buyArgs inp.buyArgs)

theorem interpretAll_message (inp : LaunchInputs) (h : inp.textLen ≤ 309)
    (hv : inp.alt.Valid entries) (ht : tables inp.alt.altPubkey = some entries) :
    (inp.message.resolve tables).bind interpretAll = some inp.meanings := by
  have hp := interpret_setComputeUnitPrice [] inp.cuPriceMicroLamports
  have hl := interpret_setComputeUnitLimit [] inp.cuLimit
  have hc := interpret_createV2Data inp h
  have ha : interpret ⟨ataProgramId, inp.ataMetas, [1]⟩ = some (.createIdempotent inp.ataNamed) :=
    interpret_createIdempotent rfl rfl
  have hb := interpret_buyData inp
  have ht' : interpret ⟨systemProgramId, inp.transferMetas,
       LittleEndian.u32 2 ++ LittleEndian.u64 inp.tipLamports⟩ =
     some (.transfer ⟨inp.user, inp.tipRecipient⟩ inp.tipLamports) :=
     interpret_transfer inp.tipLamports rfl rfl
  rw [resolve_message inp hv ht]
  simp only [interpretAll, List.mapM_cons, List.mapM_nil, cbSetComputeUnitPrice,
    cbSetComputeUnitLimit, systemTransferTag, hp, hl, hc, ha, hb, ht',
    Option.bind_eq_bind, Option.bind_some]
  rfl

/-- The bytes are a v0 transaction that says what the inputs say. -/
structure LaunchInputs.SaidBy [Ed25519] (inp : LaunchInputs) (funder mint : SigningKey)
    (tables : Pubkey → Option (List Pubkey)) (bs : List UInt8) (tx : Transaction) : Prop where
  decodes : decodeTransaction bs = some tx
  versioned : ∃ body lookups, tx.message = .v0 body lookups
  signatures : tx.signatures =
    [Ed25519.sign funder tx.signedBytes, Ed25519.sign mint tx.signedBytes]
  signers : tx.message.body.header.numRequiredSignatures = 2 ∧
    tx.message.body.accountKeys.take 2 = [inp.user, inp.mint]
  blockhash : tx.message.body.recentBlockhash = inp.recentBlockhash
  meanings : (tx.message.resolve tables).bind interpretAll = some inp.meanings
  programs : ∀ i ∈ tx.message.body.instructions,
    i.programIdIndex.toNat < tx.message.body.accountKeys.length
  length : bs.length = if inp.textLen ≤ 73 then 922 + inp.textLen else 923 + inp.textLen
  fits : bs.length ≤ maxTxSize

theorem buildSignedLaunchTx_means [Ed25519] [Base58] (inp : LaunchInputs)
    (funder mint : SigningKey) (out : BuiltTx) (hl : inp.textLen ≤ 309)
    (hb : AltIndices.bootstrap accountData altB58 = .ok inp.alt)
    (hd : accountData altB58 = .ok data) (hn : (lookupTableEntries data).length ≤ 256)
    (ht : tables inp.alt.altPubkey = some (lookupTableEntries data)) :
    ∃ out' tx, buildSignedLaunchTx inp funder mint out = some out' ∧
      inp.SaidBy funder mint tables out'.asBytes tx := by
  have hm := length_message inp (by omega)
  have hs : sigSectionLen + inp.message.encode.length =
      if inp.textLen ≤ 73 then 922 + inp.textLen else 923 + inp.textLen := by
    rw [hm, sigSectionLen]
    split <;> omega
  have hfit : sigSectionLen + inp.message.encode.length ≤ maxTxSize := by
    rw [hs, maxTxSize]
    split <;> omega
  have hw : (writeCreateV2AndBuyMessage inp : CursorWriter maxTxSize Unit) =
      put inp.message.encode :=
    writeCreateV2AndBuyMessage_eq inp (by omega)
  obtain ⟨out', hout, hbs⟩ := buildSigned_eq [funder, mint] inp.message.encode out rfl hw hfit
  have hlen : out'.asBytes.length = sigSectionLen + inp.message.encode.length := by
    rw [hbs, length_signedBytes]
    rfl
  let sigs := [funder, mint].map (Ed25519.sign · inp.message.encode)
  refine ⟨out', ⟨sigs, inp.message.encode, inp.message⟩, hout, ?_⟩
  constructor
  case decodes =>
    rw [hbs]
    have hn : [funder, mint].length < 128 := by
      change 2 < 128
      omega
    exact decodeTransaction_signedBytes [funder, mint] inp.message hn (fits_message inp hl)
  case versioned => exact ⟨_, _, rfl⟩
  case signatures => rfl
  case signers => exact ⟨rfl, rfl⟩
  case blockhash => rfl
  case meanings =>
    exact interpretAll_message inp hl (AltIndices.bootstrap_valid hb hd hn) ht
  case programs =>
    have hk : inp.keys.length = 17 := rfl
    simp only [LaunchInputs.message, Message.body, List.forall_mem_cons, hk]
    decide
  case length => rw [hlen, hs]
  case fits => rwa [hlen]

def sampleInputs : LaunchInputs where
  user := samplePublic1
  mint := samplePublic2
  bondingCurve := Vector.replicate 32 12
  associatedBondingCurve := Vector.replicate 32 13
  mayhemState := Vector.replicate 32 14
  mayhemTokenVault := Vector.replicate 32 15
  feeRecipient := Vector.replicate 32 16
  creatorVault := Vector.replicate 32 17
  userVolumeAccumulator := Vector.replicate 32 18
  associatedUser := Vector.replicate 32 19
  tipRecipient := Vector.replicate 32 20
  buybackFeeRecipient := Vector.replicate 32 21
  bondingCurveV2 := Vector.replicate 32 22
  recentBlockhash := Vector.replicate 32 9
  alt := ⟨Vector.replicate 32 0, 0, 1, 2, 3, 4, 5, 6, 7, 8, 9⟩
  name := "Pepe"
  symbol := "PEPE"
  uri := "ipfs://pepe"
  buyAmountTokens := 35000000
  buyMaxSolCost := 2000000
  trackVolume := true
  tipLamports := 100000
  cuLimit := 400000
  cuPriceMicroLamports := 1000000

def sampleTable : List Pubkey :=
  [mayhemProgramId, solVaultPda, mintAuthorityPda, globalPda, token2022ProgramId, globalParamsPda,
    eventAuthorityPda, globalVolumeAccumulatorPda, feeConfigPda, pumpFeeProgramId]

def sampleTableData : List UInt8 :=
  List.replicate lookupTableMetaSize 0 ++ sampleTable.flatMap Vector.toList

abbrev sampleEd25519 : Ed25519 := .ofVectors samplePublics
  [(Vector.replicate 32 1, #v[
      98, 85, 6, 19, 61, 79, 212, 130, 5, 198, 167, 43, 76, 93, 175, 250, 60, 13, 201, 182, 138,
      236, 21, 91, 154, 198, 1, 226, 178, 96, 137, 251, 99, 96, 67, 48, 146, 156, 245, 92, 12, 238,
      176, 21, 192, 191, 112, 35, 34, 125, 87, 212, 66, 152, 166, 78, 3, 203, 238, 28, 16, 160,
      119, 9]),
    (Vector.replicate 32 2, #v[
      7, 48, 17, 25, 181, 0, 112, 37, 76, 82, 125, 162, 224, 106, 57, 75, 23, 254, 247, 90, 199,
      132, 30, 4, 118, 253, 18, 4, 52, 111, 175, 70, 90, 204, 152, 230, 223, 82, 187, 62, 98, 68,
      135, 216, 238, 50, 23, 141, 91, 56, 222, 7, 86, 244, 0, 120, 226, 119, 232, 222, 64, 156, 74,
      6])]

/-- `bs58::decode` on strings of ones, each of which is a zero byte. -/
abbrev sampleBase58 : Base58 where
  decode s :=
    if s.toList.all (· = '1') then .ok (List.replicate s.length 0)
    else .error "provided string contained invalid character"

theorem buildSignedLaunchTx_means_sample :
    ∃ out' tx, @buildSignedLaunchTx sampleEd25519 sampleInputs (Vector.replicate 32 1)
        (Vector.replicate 32 2) .new = some out' ∧
      @LaunchInputs.SaidBy sampleEd25519 sampleInputs (Vector.replicate 32 1)
        (Vector.replicate 32 2) (fun _ => some sampleTable) out'.asBytes tx :=
  @buildSignedLaunchTx_means (fun _ => .ok sampleTableData)
    "11111111111111111111111111111111" sampleTableData (fun _ => some sampleTable) sampleEd25519
    sampleBase58 sampleInputs (Vector.replicate 32 1) (Vector.replicate 32 2) .new (by decide)
    (by decide +kernel) rfl (by decide +kernel) (by decide +kernel)

end TokenPumper.LaunchIx
