import TokenPumper.Pumpfun.Pda
import TokenPumper.Pumpfun.LaunchTx
import TokenPumper.Pumpfun.TradeTx

namespace TokenPumper
open LittleEndian
open LaunchIx (LaunchInputs)
open BuyExactSolIx (BuyExactSolInputs)
open SellIx (SellInputs)
set_option autoImplicit true

structure Node1Config where
  endpoint : String
  serverName : String
  apiKey : Bytes 16

/-- The submit side of the queue of a connected and authenticated node1 worker. -/
structure Node1Submitter where
  worker : Node1Config

structure LaunchContext where
  dev : SigningKey
  mint : SigningKey
  userPubkey : Pubkey
  mintPubkey : Pubkey
  feeRecipient : Pubkey
  pdas : LaunchPdas
  alt : AltIndices
  name : String
  symbol : String
  uri : String
  buyAmountTokens : UInt64
  buyMaxSolCost : UInt64
  tipLamports : UInt64
  cuLimit : UInt32
  cuPriceMicroLamports : UInt64
  submitter : Option Node1Submitter

structure BuyContext where
  label : String
  wallet : SigningKey
  userPubkey : Pubkey
  mintPubkey : Pubkey
  feeRecipient : Pubkey
  pdas : LaunchPdas
  associatedUser : Pubkey
  userVolumeAccumulator : Pubkey
  spendableSolIn : UInt64
  tipLamports : UInt64
  cuLimit : UInt32
  cuPriceMicroLamports : UInt64
  submitter : Option Node1Submitter

structure SellContext where
  dev : SigningKey
  userPubkey : Pubkey
  mintPubkey : Pubkey
  feeRecipient : Pubkey
  pdas : LaunchPdas
  amountTokens : UInt64
  minSolOutput : UInt64
  tipLamports : UInt64
  cuLimit : UInt32
  cuPriceMicroLamports : UInt64
  submitter : Option Node1Submitter

structure WalletSellContext where
  label : String
  wallet : SigningKey
  userPubkey : Pubkey
  mintPubkey : Pubkey
  feeRecipient : Pubkey
  pdas : LaunchPdas
  associatedUser : Pubkey
  minSolOutput : UInt64
  tipLamports : UInt64
  cuLimit : UInt32
  cuPriceMicroLamports : UInt64
  submitter : Option Node1Submitter

/-- The inputs of a build, with the blockhash that the cache holds at that moment. -/
def LaunchContext.inputs (ctx : LaunchContext) (slotForBuyback : UInt64) (blockhash : Bytes 32) :
    LaunchInputs where
  user := ctx.userPubkey
  mint := ctx.mintPubkey
  bondingCurve := ctx.pdas.bondingCurve
  associatedBondingCurve := ctx.pdas.associatedBondingCurve
  mayhemState := ctx.pdas.mayhemState
  mayhemTokenVault := ctx.pdas.mayhemTokenVault
  feeRecipient := ctx.feeRecipient
  creatorVault := ctx.pdas.creatorVault
  userVolumeAccumulator := ctx.pdas.userVolumeAccumulator
  associatedUser := ctx.pdas.associatedUser
  tipRecipient := tipRecipient
  buybackFeeRecipient := pickForSlot slotForBuyback
  bondingCurveV2 := ctx.pdas.bondingCurveV2
  recentBlockhash := blockhash
  alt := ctx.alt
  name := ctx.name
  symbol := ctx.symbol
  uri := ctx.uri
  buyAmountTokens := ctx.buyAmountTokens
  buyMaxSolCost := ctx.buyMaxSolCost
  trackVolume := true
  tipLamports := ctx.tipLamports
  cuLimit := ctx.cuLimit
  cuPriceMicroLamports := ctx.cuPriceMicroLamports

def BuyContext.inputs (ctx : BuyContext) (slot : UInt64) (blockhash : Bytes 32) :
    BuyExactSolInputs where
  user := ctx.userPubkey
  mint := ctx.mintPubkey
  bondingCurve := ctx.pdas.bondingCurve
  associatedBondingCurve := ctx.pdas.associatedBondingCurve
  associatedUser := ctx.associatedUser
  feeRecipient := ctx.feeRecipient
  creatorVault := ctx.pdas.creatorVault
  userVolumeAccumulator := ctx.userVolumeAccumulator
  buybackFeeRecipient := pickForSlot slot
  bondingCurveV2 := ctx.pdas.bondingCurveV2
  tipRecipient := tipRecipient
  recentBlockhash := blockhash
  spendableSolIn := ctx.spendableSolIn
  minTokensOut := 0
  tipLamports := ctx.tipLamports
  cuLimit := ctx.cuLimit
  cuPriceMicroLamports := ctx.cuPriceMicroLamports

def SellContext.inputs (ctx : SellContext) (slot : UInt64) (blockhash : Bytes 32) : SellInputs where
  user := ctx.userPubkey
  mint := ctx.mintPubkey
  bondingCurve := ctx.pdas.bondingCurve
  associatedBondingCurve := ctx.pdas.associatedBondingCurve
  associatedUser := ctx.pdas.associatedUser
  feeRecipient := ctx.feeRecipient
  creatorVault := ctx.pdas.creatorVault
  buybackFeeRecipient := pickForSlot slot
  bondingCurveV2 := ctx.pdas.bondingCurveV2
  tipRecipient := tipRecipient
  recentBlockhash := blockhash
  amountTokens := ctx.amountTokens
  minSolOutput := ctx.minSolOutput
  tipLamports := ctx.tipLamports
  cuLimit := ctx.cuLimit
  cuPriceMicroLamports := ctx.cuPriceMicroLamports

def WalletSellContext.inputs (ctx : WalletSellContext) (slot amountTokens : UInt64)
    (blockhash : Bytes 32) : SellInputs where
  user := ctx.userPubkey
  mint := ctx.mintPubkey
  bondingCurve := ctx.pdas.bondingCurve
  associatedBondingCurve := ctx.pdas.associatedBondingCurve
  associatedUser := ctx.associatedUser
  feeRecipient := ctx.feeRecipient
  creatorVault := ctx.pdas.creatorVault
  buybackFeeRecipient := pickForSlot slot
  bondingCurveV2 := ctx.pdas.bondingCurveV2
  tipRecipient := tipRecipient
  recentBlockhash := blockhash
  amountTokens := amountTokens
  minSolOutput := ctx.minSolOutput
  tipLamports := ctx.tipLamports
  cuLimit := ctx.cuLimit
  cuPriceMicroLamports := ctx.cuPriceMicroLamports

/-- The bytes that `Node1Submitter::submit` is called with: none where no submitter is wired. -/
def handOver (submitter : Option Node1Submitter) (tx : BuiltTx) : Option (List UInt8) :=
  submitter.map fun _ => tx.asBytes

/-- Build into the reused buffer and hand over. A panic of the build is `none`. -/
def fire (submitter : Option Node1Submitter) (build : BuiltTx → Option BuiltTx) (out : BuiltTx) :
    Option (BuiltTx × Option (List UInt8)) :=
  (build out).map fun built => (built, handOver submitter built)

theorem fire_unwired (h : fire none build out = some (built, handed)) : handed = none := by
  obtain ⟨tx, -, hr⟩ := Option.map_eq_some_iff.1 h
  exact (Prod.mk.inj hr).2.symm

variable [Ed25519]

def LaunchContext.buildSigned (ctx : LaunchContext) (slotForBuyback : UInt64)
    (blockhash : Bytes 32) (out : BuiltTx) : Option BuiltTx :=
  LaunchIx.buildSignedLaunchTx (ctx.inputs slotForBuyback blockhash) ctx.dev ctx.mint out

def BuyContext.buildSigned (ctx : BuyContext) (slot : UInt64) (blockhash : Bytes 32)
    (out : BuiltTx) : Option BuiltTx :=
  BuyExactSolIx.buildSignedBuyTx (ctx.inputs slot blockhash) ctx.wallet out

def SellContext.buildSigned (ctx : SellContext) (slot : UInt64) (blockhash : Bytes 32)
    (out : BuiltTx) : Option BuiltTx :=
  SellIx.buildSignedSellTx (ctx.inputs slot blockhash) ctx.dev out

def WalletSellContext.buildSignedWallet (ctx : WalletSellContext) (slot amountTokens : UInt64)
    (blockhash : Bytes 32) (out : BuiltTx) : Option BuiltTx :=
  SellIx.buildSignedSellTx (ctx.inputs slot amountTokens blockhash) ctx.wallet out

def fireLaunch (ctx : LaunchContext) (slot : UInt64) (blockhash : Bytes 32) (txBuf : BuiltTx) :
    Option (BuiltTx × Option (List UInt8)) :=
  fire ctx.submitter (ctx.buildSigned slot blockhash) txBuf

def fireBuy (ctx : BuyContext) (slot : UInt64) (blockhash : Bytes 32) (out : BuiltTx) :
    Option (BuiltTx × Option (List UInt8)) :=
  fire ctx.submitter (ctx.buildSigned slot blockhash) out

def fireSell (ctx : SellContext) (slot : UInt64) (blockhash : Bytes 32) (out : BuiltTx) :
    Option (BuiltTx × Option (List UInt8)) :=
  fire ctx.submitter (ctx.buildSigned slot blockhash) out

def fireWalletSell (ctx : WalletSellContext) (slot amountTokens : UInt64) (blockhash : Bytes 32)
    (out : BuiltTx) : Option (BuiltTx × Option (List UInt8)) :=
  fire ctx.submitter (ctx.buildSignedWallet slot amountTokens blockhash) out

theorem fireBuy_isSome (ctx : BuyContext) (slot : UInt64) (blockhash : Bytes 32) (out : BuiltTx) :
    ∃ built handed, fireBuy ctx slot blockhash out = some (built, handed) := by
  obtain ⟨_, _, hall, -⟩ :=
    buildSignedBuyTx_means (ctx.inputs slot blockhash) ctx.wallet
  obtain ⟨built, hb, -⟩ := hall out
  exact ⟨built, handOver ctx.submitter built, by
    rw [fireBuy, fire, BuyContext.buildSigned, hb, Option.map_some]⟩

/-- A sell is always built, and what is handed over is the sell of the context's inputs. -/
theorem fireWalletSell_means (ctx : WalletSellContext) (slot amountTokens : UInt64)
    (blockhash : Bytes 32) : ∃ bs tx,
      OneSignerTx ctx.wallet ctx.userPubkey blockhash
        (ctx.inputs slot amountTokens blockhash).meanings bs tx ∧
      ∀ out, ∃ built, fireWalletSell ctx slot amountTokens blockhash out =
        some (built, ctx.submitter.map fun _ => bs) := by
  obtain ⟨bs, tx, hall, htx⟩ :=
    buildSignedSellTx_means (ctx.inputs slot amountTokens blockhash) ctx.wallet
  refine ⟨bs, tx, htx, ?_⟩
  intro out
  obtain ⟨built, hb, rfl⟩ := hall out
  exact ⟨built, by
    rw [fireWalletSell, fire, WalletSellContext.buildSignedWallet, hb, Option.map_some, handOver]⟩

end TokenPumper
