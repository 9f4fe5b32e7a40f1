import TokenPumper.Lib.Borsh
import TokenPumper.Lib.SolanaWire
import TokenPumper.Ed25519
import TokenPumper.Pumpfun.Constants

namespace TokenPumper.Idl
open LittleEndian ByteParser SolanaWire
set_option autoImplicit true

/-- What an interface demands of one account. -/
structure Demand where
  signer : Bool := false
  writable : Bool := false
  address : Option Pubkey := none

def Demand.met (d : Demand) (a : AccountMeta) : Bool :=
  (!d.signer || a.isSigner) && (!d.writable || a.isWritable) &&
    d.address.all fun key => decide (a.pubkey = key)

def readonly : Demand := {}

def writable : Demand := { writable := true }

def writableSigner : Demand := { signer := true, writable := true }

def fixed (key : Pubkey) : Demand := { address := some key }

def fixedWritable (key : Pubkey) : Demand := { writable := true, address := some key }

/-- The keys of the demanded accounts in their order, and the accounts that remain. -/
def nameAccounts : List Demand → List AccountMeta → Option (List Pubkey × List AccountMeta)
  | [], remaining => some ([], remaining)
  | _ :: _, [] => none
  | d :: ds, a :: as =>
    if d.met a then (nameAccounts ds as).map fun (keys, remaining) => (a.pubkey :: keys, remaining)
    else none

structure CreateV2Accounts where
  mint : Pubkey
  mintAuthority : Pubkey
  bondingCurve : Pubkey
  associatedBondingCurve : Pubkey
  global : Pubkey
  user : Pubkey
  systemProgram : Pubkey
  tokenProgram : Pubkey
  associatedTokenProgram : Pubkey
  mayhemProgramId : Pubkey
  globalParams : Pubkey
  solVault : Pubkey
  mayhemState : Pubkey
  mayhemTokenVault : Pubkey
  eventAuthority : Pubkey
  program : Pubkey
deriving DecidableEq, Repr

def createV2Demands : List Demand :=
  [writableSigner, readonly, writable, writable, readonly, writableSigner, fixed systemProgramId,
    fixed token2022ProgramId, fixed ataProgramId, fixedWritable mayhemProgramId, readonly, writable,
    writable, writable, readonly, readonly]

def CreateV2Accounts.ofKeys : List Pubkey → Option CreateV2Accounts
  | [mint, mintAuthority, bondingCurve, associatedBondingCurve, global, user, systemProgram,
      tokenProgram, associatedTokenProgram, mayhemProgramId, globalParams, solVault, mayhemState,
      mayhemTokenVault, eventAuthority, program] =>
    some ⟨mint, mintAuthority, bondingCurve, associatedBondingCurve, global, user, systemProgram,
      tokenProgram, associatedTokenProgram, mayhemProgramId, globalParams, solVault, mayhemState,
      mayhemTokenVault, eventAuthority, program⟩
  | _ => none

structure CreateV2Args where
  name : String
  symbol : String
  uri : String
  creator : Pubkey
  isMayhemMode : Bool
  isCashbackEnabled : Bool
deriving DecidableEq, Repr

def createV2Args : Parser CreateV2Args := do
  let name ← Borsh.string
  let symbol ← Borsh.string
  let uri ← Borsh.string
  let creator ← array 32
  let isMayhemMode ← Borsh.bool
  let isCashbackEnabled ← Borsh.bool
  pure ⟨name, symbol, uri, creator, isMayhemMode, isCashbackEnabled⟩

/-- The accounts of `buy` and of `buy_exact_sol_in`. -/
structure BuyAccounts where
  global : Pubkey
  feeRecipient : Pubkey
  mint : Pubkey
  bondingCurve : Pubkey
  associatedBondingCurve : Pubkey
  associatedUser : Pubkey
  user : Pubkey
  systemProgram : Pubkey
  tokenProgram : Pubkey
  creatorVault : Pubkey
  eventAuthority : Pubkey
  program : Pubkey
  globalVolumeAccumulator : Pubkey
  userVolumeAccumulator : Pubkey
  feeConfig : Pubkey
  feeProgram : Pubkey
deriving DecidableEq, Repr

def buyDemands : List Demand :=
  [readonly, writable, readonly, writable, writable, writable, writableSigner,
    fixed systemProgramId, readonly, writable, readonly, fixed pumpProgramId, readonly, writable,
    readonly, fixed pumpFeeProgramId]

def BuyAccounts.ofKeys : List Pubkey → Option BuyAccounts
  | [global, feeRecipient, mint, bondingCurve, associatedBondingCurve, associatedUser, user,
      systemProgram, tokenProgram, creatorVault, eventAuthority, program, globalVolumeAccumulator,
      userVolumeAccumulator, feeConfig, feeProgram] =>
    some ⟨global, feeRecipient, mint, bondingCurve, associatedBondingCurve, associatedUser, user,
      systemProgram, tokenProgram, creatorVault, eventAuthority, program, globalVolumeAccumulator,
      userVolumeAccumulator, feeConfig, feeProgram⟩
  | _ => none

structure BuyArgs where
  amount : UInt64
  maxSolCost : UInt64
  trackVolume : Bool
deriving DecidableEq, Repr

def buyArgs : Parser BuyArgs := do
  let amount ← u64
  let maxSolCost ← u64
  let trackVolume ← Borsh.bool
  pure ⟨amount, maxSolCost, trackVolume⟩

structure BuyExactSolInArgs where
  spendableSolIn : UInt64
  minTokensOut : UInt64
  trackVolume : Bool
deriving DecidableEq, Repr

def buyExactSolInArgs : Parser BuyExactSolInArgs := do
  let spendableSolIn ← u64
  let minTokensOut ← u64
  let trackVolume ← Borsh.bool
  pure ⟨spendableSolIn, minTokensOut, trackVolume⟩

/-- `creator_vault` and `token_program` stand the other way round than in `BuyAccounts`. -/
structure SellAccounts where
  global : Pubkey
  feeRecipient : Pubkey
  mint : Pubkey
  bondingCurve : Pubkey
  associatedBondingCurve : Pubkey
  associatedUser : Pubkey
  user : Pubkey
  systemProgram : Pubkey
  creatorVault : Pubkey
  tokenProgram : Pubkey
  eventAuthority : Pubkey
  program : Pubkey
  feeConfig : Pubkey
  feeProgram : Pubkey
deriving DecidableEq, Repr

def sellDemands : List Demand :=
  [readonly, writable, readonly, writable, writable, writable, writableSigner,
    fixed systemProgramId, writable, readonly, readonly, fixed pumpProgramId, readonly,
    fixed pumpFeeProgramId]

def SellAccounts.ofKeys : List Pubkey → Option SellAccounts
  | [global, feeRecipient, mint, bondingCurve, associatedBondingCurve, associatedUser, user,
      systemProgram, creatorVault, tokenProgram, eventAuthority, program, feeConfig,
      feeProgram] =>
    some ⟨global, feeRecipient, mint, bondingCurve, associatedBondingCurve, associatedUser, user,
      systemProgram, creatorVault, tokenProgram, eventAuthority, program, feeConfig, feeProgram⟩
  | _ => none

structure SellArgs where
  amount : UInt64
  minSolOutput : UInt64
deriving DecidableEq, Repr

def sellArgs : Parser SellArgs := do
  let amount ← u64
  let minSolOutput ← u64
  pure ⟨amount, minSolOutput⟩

/-- The accounts of the associated-token program's `CreateIdempotent`. -/
structure CreateIdempotentAccounts where
  funder : Pubkey
  associatedToken : Pubkey
  wallet : Pubkey
  mint : Pubkey
  systemProgram : Pubkey
  tokenProgram : Pubkey
deriving DecidableEq, Repr

def createIdempotentDemands : List Demand :=
  [writableSigner, writable, readonly, readonly, fixed systemProgramId, readonly]

def CreateIdempotentAccounts.ofKeys : List Pubkey → Option CreateIdempotentAccounts
  | [funder, associatedToken, wallet, mint, systemProgram, tokenProgram] =>
    some ⟨funder, associatedToken, wallet, mint, systemProgram, tokenProgram⟩
  | _ => none

structure TransferAccounts where
  source : Pubkey
  destination : Pubkey
deriving DecidableEq, Repr

def transferDemands : List Demand := [writableSigner, writable]

def TransferAccounts.ofKeys : List Pubkey → Option TransferAccounts
  | [source, destination] => some ⟨source, destination⟩
  | _ => none

/-- An instruction as the program it is for understands it. -/
inductive Meaning where
  | setComputeUnitLimit (units : UInt32)
  | setComputeUnitPrice (microLamports : UInt64)
  | transfer (accounts : TransferAccounts) (lamports : UInt64)
  | createIdempotent (accounts : CreateIdempotentAccounts)
  | createV2 (accounts : CreateV2Accounts) (args : CreateV2Args) (remaining : List AccountMeta)
  | buy (accounts : BuyAccounts) (args : BuyArgs) (remaining : List AccountMeta)
  | buyExactSolIn (accounts : BuyAccounts) (args : BuyExactSolInArgs)
      (remaining : List AccountMeta)
  | sell (accounts : SellAccounts) (args : SellArgs) (remaining : List AccountMeta)
deriving DecidableEq, Repr

/-- Accounts, arguments and remaining accounts of one instruction, put together. -/
def read (demands : List Demand) (ofKeys : List Pubkey → Option α) (args : Parser β)
    (meaning : α → β → List AccountMeta → Meaning) (accounts : List AccountMeta) :
    Parser Meaning := do
  let (keys, remaining) ← given (nameAccounts demands accounts)
  let named ← given (ofKeys keys)
  let parsed ← args
  pure (meaning named parsed remaining)

def computeBudget : Parser Meaning := do
  let tag ← byte
  if tag = 2 then do
    let units ← u32
    pure (.setComputeUnitLimit units)
  else if tag = 3 then do
    let microLamports ← u64
    pure (.setComputeUnitPrice microLamports)
  else failure

def system (accounts : List AccountMeta) : Parser Meaning := do
  let tag ← u32
  if tag = 2 then
    read transferDemands TransferAccounts.ofKeys u64 (fun a lamports _ => .transfer a lamports)
      accounts
  else failure

def associatedToken (accounts : List AccountMeta) : Parser Meaning := do
  let tag ← byte
  if tag = 1 then
    read createIdempotentDemands CreateIdempotentAccounts.ofKeys (pure ())
      (fun a _ _ => .createIdempotent a) accounts
  else failure

def pump (accounts : List AccountMeta) : Parser Meaning := do
  let discriminator ← array 8
  if discriminator = Discriminators.createV2 then
    read createV2Demands CreateV2Accounts.ofKeys createV2Args .createV2 accounts
  else if discriminator = Discriminators.buy then
    read buyDemands BuyAccounts.ofKeys buyArgs .buy accounts
  else if discriminator = Discriminators.buyExactSolIn then
    read buyDemands BuyAccounts.ofKeys buyExactSolInArgs .buyExactSolIn accounts
  else if discriminator = Discriminators.sell then
    read sellDemands SellAccounts.ofKeys sellArgs .sell accounts
  else failure

/-- The reader of the program that an instruction is for; all of its data must be consumed. -/
def interpret (ix : Instruction) : Option Meaning :=
  if ix.programId = computeBudgetProgramId then runAll computeBudget ix.data
  else if ix.programId = systemProgramId then runAll (system ix.accounts) ix.data
  else if ix.programId = ataProgramId then runAll (associatedToken ix.accounts) ix.data
  else if ix.programId = pumpProgramId then runAll (pump ix.accounts) ix.data
  else none

def interpretAll (ixs : List Instruction) : Option (List Meaning) := ixs.mapM interpret

theorem consumes_read {args : Parser β} {meaning : α → β → List AccountMeta → Meaning}
    (hk : nameAccounts demands accounts = some (keys, remaining)) (hn : ofKeys keys = some named)
    (ha : Consumes args bs parsed) :
    Consumes (read demands ofKeys args meaning accounts) bs (meaning named parsed remaining) :=
  (consumes_given hk).bind ((consumes_given hn).bind ha.bind_pure)

theorem consumes_createV2Args (a : CreateV2Args)
    (h : a.name.utf8ByteSize + a.symbol.utf8ByteSize + a.uri.utf8ByteSize < 2 ^ 32) :
    Consumes createV2Args
      (LittleEndian.u32 (UInt32.ofNat a.name.utf8ByteSize) ++ Borsh.utf8 a.name ++
        (LittleEndian.u32 (UInt32.ofNat a.symbol.utf8ByteSize) ++ Borsh.utf8 a.symbol ++
          (LittleEndian.u32 (UInt32.ofNat a.uri.utf8ByteSize) ++ Borsh.utf8 a.uri ++
            (a.creator.toList ++ ([if a.isMayhemMode then 1 else 0] ++
              [if a.isCashbackEnabled then 1 else 0]))))) a :=
  (Borsh.consumes_string a.name (by omega)).bind
    ((Borsh.consumes_string a.symbol (by omega)).bind
      ((Borsh.consumes_string a.uri (by omega)).bind
        ((consumes_array a.creator).bind
          ((Borsh.consumes_bool a.isMayhemMode).bind
            (Borsh.consumes_bool a.isCashbackEnabled).bind_pure))))

theorem consumes_buyArgs (a : BuyArgs) :
    Consumes buyArgs (LittleEndian.u64 a.amount ++ (LittleEndian.u64 a.maxSolCost ++
      [if a.trackVolume then 1 else 0])) a :=
  (consumes_u64 a.amount).bind
    ((consumes_u64 a.maxSolCost).bind (Borsh.consumes_bool a.trackVolume).bind_pure)

theorem consumes_buyExactSolInArgs (a : BuyExactSolInArgs) :
    Consumes buyExactSolInArgs (LittleEndian.u64 a.spendableSolIn ++
      (LittleEndian.u64 a.minTokensOut ++ [if a.trackVolume then 1 else 0])) a :=
  (consumes_u64 a.spendableSolIn).bind
    ((consumes_u64 a.minTokensOut).bind (Borsh.consumes_bool a.trackVolume).bind_pure)

theorem consumes_sellArgs (a : SellArgs) :
    Consumes sellArgs (LittleEndian.u64 a.amount ++ LittleEndian.u64 a.minSolOutput) a :=
  (consumes_u64 a.amount).bind (consumes_u64 a.minSolOutput).bind_pure

theorem interpret_setComputeUnitLimit (accounts : List AccountMeta) (units : UInt32) :
    interpret ⟨computeBudgetProgramId, accounts, [2] ++ LittleEndian.u32 units⟩ =
      some (.setComputeUnitLimit units) := by
  rw [interpret, if_pos rfl]
  exact ((consumes_byte 2).bind (consumes_u32 units).bind_pure).runAll

theorem interpret_setComputeUnitPrice (accounts : List AccountMeta) (microLamports : UInt64) :
    interpret ⟨computeBudgetProgramId, accounts, [3] ++ LittleEndian.u64 microLamports⟩ =
      some (.setComputeUnitPrice microLamports) := by
  rw [interpret, if_pos rfl]
  exact ((consumes_byte 3).bind (consumes_u64 microLamports).bind_pure).runAll

theorem interpret_transfer (lamports : UInt64)
    (hk : nameAccounts transferDemands accounts = some (keys, remaining))
    (hn : TransferAccounts.ofKeys keys = some named) :
    interpret ⟨systemProgramId, accounts, LittleEndian.u32 2 ++ LittleEndian.u64 lamports⟩ =
      some (.transfer named lamports) := by
  have hc : systemProgramId ≠ computeBudgetProgramId := by decide
  rw [interpret, if_neg hc, if_pos rfl]
  refine ((consumes_u32 2).bind ?_).runAll
  rw [if_pos rfl]
  exact consumes_read hk hn (consumes_u64 lamports)

theorem interpret_createIdempotent
    (hk : nameAccounts createIdempotentDemands accounts = some (keys, remaining))
    (hn : CreateIdempotentAccounts.ofKeys keys = some named) :
    interpret ⟨ataProgramId, accounts, [1]⟩ = some (.createIdempotent named) := by
  have hc : ataProgramId ≠ computeBudgetProgramId := by decide
  have hs : ataProgramId ≠ systemProgramId := by decide
  rw [interpret, if_neg hc, if_neg hs, if_pos rfl]
  refine ((consumes_byte 1).bind_nil ?_).runAll
  rw [if_pos rfl]
  exact consumes_read hk hn (.pure ())

theorem interpret_pump (hb : Consumes (pump accounts) data m) :
    interpret ⟨pumpProgramId, accounts, data⟩ = some m := by
  have hc : pumpProgramId ≠ computeBudgetProgramId := by decide
  have hs : pumpProgramId ≠ systemProgramId := by decide
  have ha : pumpProgramId ≠ ataProgramId := by decide
  rw [interpret, if_neg hc, if_neg hs, if_neg ha, if_pos rfl]
  exact hb.runAll

theorem interpret_createV2 (hk : nameAccounts createV2Demands accounts = some (keys, remaining))
    (hn : CreateV2Accounts.ofKeys keys = some named) (ha : Consumes createV2Args bs args) :
    interpret ⟨pumpProgramId, accounts, Discriminators.createV2.toList ++ bs⟩ =
      some (.createV2 named args remaining) := by
  refine interpret_pump ((consumes_array Discriminators.createV2).bind ?_)
  rw [if_pos rfl]
  exact consumes_read hk hn ha

theorem interpret_buy (hk : nameAccounts buyDemands accounts = some (keys, remaining))
    (hn : BuyAccounts.ofKeys keys = some named) (ha : Consumes buyArgs bs args) :
    interpret ⟨pumpProgramId, accounts, Discriminators.buy.toList ++ bs⟩ =
      some (.buy named args remaining) := by
  refine interpret_pump ((consumes_array Discriminators.buy).bind ?_)
  rw [if_neg (by decide), if_pos rfl]
  exact consumes_read hk hn ha

theorem interpret_buyExactSolIn (hk : nameAccounts buyDemands accounts = some (keys, remaining))
    (hn : BuyAccounts.ofKeys keys = some named) (ha : Consumes buyExactSolInArgs bs args) :
    interpret ⟨pumpProgramId, accounts, Discriminators.buyExactSolIn.toList ++ bs⟩ =
      some (.buyExactSolIn named args remaining) := by
  refine interpret_pump ((consumes_array Discriminators.buyExactSolIn).bind ?_)
  rw [if_neg (by decide), if_neg (by decide), if_pos rfl]
  exact consumes_read hk hn ha

theorem interpret_sell (hk : nameAccounts sellDemands accounts = some (keys, remaining))
    (hn : SellAccounts.ofKeys keys = some named) (ha : Consumes sellArgs bs args) :
    interpret ⟨pumpProgramId, accounts, Discriminators.sell.toList ++ bs⟩ =
      some (.sell named args remaining) := by
  refine interpret_pump ((consumes_array Discriminators.sell).bind ?_)
  rw [if_neg (by decide), if_neg (by decide), if_neg (by decide), if_pos rfl]
  exact consumes_read hk hn ha

end TokenPumper.Idl
