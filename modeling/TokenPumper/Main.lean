import TokenPumper.CurveSub.Unwired
import TokenPumper.Keys.Wallets
import TokenPumper.Pumpfun.Quote
import TokenPumper.Senders.Node1
import TokenPumper.Shreds.Stream

namespace TokenPumper
open LittleEndian Borsh Effect
set_option autoImplicit true

/-- The picked token; its private key is what the roster has for it, parsed. -/
structure TokenSpec where
  name : String
  symbol : String
  keypairBytes : Reply (Bytes 64)

/-- What the steps of `main` beyond the wallets find outside. -/
structure Startup where
  /-- The token that was loaded and picked. -/
  token : Reply TokenSpec
  /-- The URI of the pinned metadata. -/
  metadata : Reply String
  markUsed : Reply Unit
  leaders : Reply EpochLeaderMap
  blockhash : Reply Unit
  global : Reply GlobalCache
  accountData : String → Except String (List UInt8)
  node1 : Node1Config → Reply Unit

/-- `?` on something from outside. -/
def answer (reply : Reply α) : Run α := lift (reply.mapError .error)

def TokenSpec.mintPubkey (token : TokenSpec) : Run Pubkey := do
  let kp ← answer token.keypairBytes
  pure (ofList (kp.toList.drop 32) (by simp))

def claimToken (cfg : Config) (startup : Startup) : Run Unit :=
  if cfg.tokenDebug then pure () else answer startup.markUsed

/-- What `main` has in hand when it comes to node1. -/
structure Staged where
  token : TokenSpec
  prepared : Prepared
  uri : String
  leaderCache : LeaderCache
  global : GlobalCache
  mintPubkey : Pubkey
  devPubkey : Pubkey
  pdas : LaunchPdas
  alt : AltIndices
  quote : BuyQuote

structure WalletContexts where
  ata : CurveSub.AtaSubscription
  buy : BuyContext
  sell : WalletSellContext

/-- What runs when the start is over. -/
structure Wired where
  launchCtx : LaunchContext
  leaderCache : LeaderCache
  fireAt : UInt32
  curveSub : Option CurveSub.Task

def Staged.launchCtx (s : Staged) (cfg : Config) (mint : SigningKey)
    (submitter : Option Node1Submitter) : LaunchContext where
  dev := s.prepared.dev
  mint := mint
  userPubkey := s.devPubkey
  mintPubkey := s.mintPubkey
  feeRecipient := s.global.feeRecipient
  pdas := s.pdas
  alt := s.alt
  name := s.token.name
  symbol := s.token.symbol
  uri := s.uri
  buyAmountTokens := s.quote.amountTokens
  buyMaxSolCost := s.quote.maxSolCost
  tipLamports := cfg.node1TipLamports
  cuLimit := cfg.cuLimit
  cuPriceMicroLamports := cfg.creatorCuBuyPriceLamports
  submitter := submitter

def Staged.sellCtx (s : Staged) (cfg : Config) (submitter : Option Node1Submitter) :
    SellContext where
  dev := s.prepared.dev
  userPubkey := s.devPubkey
  mintPubkey := s.mintPubkey
  feeRecipient := s.global.feeRecipient
  pdas := s.pdas
  amountTokens := s.quote.amountTokens
  minSolOutput := cfg.sellMinSolOutputLamports
  tipLamports := cfg.node1TipLamports
  cuLimit := cfg.cuSellLimit
  cuPriceMicroLamports := cfg.creatorCuSellPriceLamports
  submitter := submitter

variable [Ed25519] [AddressHash]

def TokenSpec.mintKeypair (token : TokenSpec) : Run SigningKey := do
  let kp ← answer token.keypairBytes
  match fromKeypairBytes kp with
  | some key => pure key
  | none => do
    let e := Ed25519.keypairError kp
    bail s!"invalid mint keypair for {token.symbol}: {e}"

/-- The subscription and the two contexts of one assignment. -/
def walletContexts (cfg : Config) (s : Staged) (submitter : Option Node1Submitter) (slotIdx : Nat)
    (assignment : WalletAssignment) : Option WalletContexts := do
  let wallet ← s.prepared.children[assignment.index]?
  let walletPubkey := Ed25519.verifyingKey wallet
  let ata ← associatedTokenAddress walletPubkey s.mintPubkey token2022ProgramId
  let (userVolumeAccumulator, _) ←
    findProgramAddress [utf8 "user_volume_accumulator", walletPubkey.toList] pumpProgramId
  let label := s!"wallet-{assignment.index + 1}"
  pure {
    ata := { label, ata, walletIndex := some slotIdx }
    buy := {
      label
      wallet
      userPubkey := walletPubkey
      mintPubkey := s.mintPubkey
      feeRecipient := s.global.feeRecipient
      pdas := s.pdas
      associatedUser := ata
      userVolumeAccumulator
      spendableSolIn := assignment.amount
      tipLamports := cfg.node1TipLamports
      cuLimit := cfg.cuBuyLimit
      cuPriceMicroLamports := assignment.cuPriceLamports
      submitter }
    sell := {
      label
      wallet
      userPubkey := walletPubkey
      mintPubkey := s.mintPubkey
      feeRecipient := s.global.feeRecipient
      pdas := s.pdas
      associatedUser := ata
      minSolOutput := cfg.sellMinSolOutputLamports
      tipLamports := cfg.node1TipLamports
      cuLimit := cfg.cuSellLimit
      cuPriceMicroLamports := assignment.cuPriceLamports
      submitter } }

/-- The task is there only if its endpoint and its token are configured. -/
def curveSubTask (cfg : Config) (s : Staged) (submitter : Option Node1Submitter) :
    Run (Option CurveSub.Task) :=
  if cfg.curveSubEndpoint.isSome && cfg.curveSubXToken.isSome then do
    let wallets ← orPanic (s.prepared.assigner.iter.zipIdx.mapM fun (assignment, slotIdx) =>
      walletContexts cfg s submitter slotIdx assignment)
    pure (some {
      inputs := {
        curve := s.pdas.bondingCurve
        atas := ⟨"dev", s.pdas.associatedUser, none⟩ :: wallets.map WalletContexts.ata }
      buyCtxs := wallets.map WalletContexts.buy
      walletSellCtxs := wallets.map WalletContexts.sell
      sellCtx := some (s.sellCtx cfg submitter) })
  else pure none

/-- The wallets settle first; then everything else that the launch message needs is fetched. -/
def stage [Base58] (cfg : Config) (startup : Startup) : Run Staged := do
  let token ← answer startup.token
  let prepared ← prepare cfg
  let uri ← answer startup.metadata
  claimToken cfg startup
  let map ← answer startup.leaders
  let _ ← answer startup.blockhash
  let global ← answer startup.global
  let mintPubkey ← token.mintPubkey
  let devPubkey := Ed25519.verifyingKey prepared.dev
  let pdas ← orPanic (LaunchPdas.derive mintPubkey devPubkey)
  let alt ← lift ((AltIndices.bootstrap startup.accountData cfg.addressLookupTable).mapError
    fun message => .error [message])
  let quote ← orPanic (quoteBuyAtCreate global cfg.buySolLamports)
  let leaderCache := ⟨map, resolveRegionIdx map cfg.focusCountry⟩
  pure ⟨token, prepared, uri, leaderCache, global, mintPubkey, devPubkey, pdas, alt, quote⟩

/-- Every context gets the submitter of node1's handle, if there is one. -/
def main [Base58] (cfg : Config) (startup : Startup) : Run Wired := do
  let s ← stage cfg startup
  let submitter ← spawnNode1 cfg startup.node1
  let mint ← s.token.mintKeypair
  let curveSub ← curveSubTask cfg s submitter
  pure ⟨s.launchCtx cfg mint submitter, s.leaderCache, cfg.fireAtShredCount, curveSub⟩

/-- The receiver's thread with its buffer: before it is spawned, while it runs, after a panic. -/
inductive ReceiverThread
  | pending
  | running (receiver : Receiver) (txBuf : BuiltTx)
  | gone

structure Live where
  thread : ReceiverThread
  curveSub : Option CurveSub.State

/-- What the two transports bring, in any order. -/
inductive Happening
  | streamSpawned
  | packet (buf : List UInt8) (blockhash : Bytes 32)
  | curveSub (e : CurveSub.Event)

namespace Wired

def init (wired : Wired) : Live where
  thread := .pending
  curveSub := wired.curveSub.map fun task =>
    .init (List.replicate task.walletSellCtxs.length 0)

/-- One packet: the handler, and the launch if it calls for one. -/
def receivePacket (wired : Wired) (receiver : Receiver) (txBuf : BuiltTx) (buf : List UInt8)
    (blockhash : Bytes 32) : ReceiverThread × Option (List UInt8) :=
  match handler wired.leaderCache wired.fireAt receiver buf with
  | none => (.gone, none)
  | some (receiver, none) => (.running receiver txBuf, none)
  | some (receiver, some slot) =>
    match fireLaunch wired.launchCtx slot blockhash txBuf with
    | none => (.gone, none)
    | some (txBuf, handed) => (.running receiver txBuf, handed)

def step (wired : Wired) (s : Live) (h : Happening) : Option (Live × List (List UInt8)) :=
  match h, s.thread with
  | .streamSpawned, .pending => some ({ s with thread := .running .new .new }, [])
  | .packet buf blockhash, .running receiver txBuf =>
    let (thread, handed) := wired.receivePacket receiver txBuf buf blockhash
    some ({ s with thread }, handed.toList)
  | .curveSub e, _ => do
    let task ← wired.curveSub
    let state ← s.curveSub
    let (state, fired) ← CurveSub.step task state e
    pure ({ s with curveSub := some state }, fired.filterMap CurveSub.Fired.handed)
  | _, _ => none

end Wired

/-- The transactions that a run submits to node1 once it is started. -/
def submissions [Base58] (cfg : Config) (startup : Startup) (env : Env) (disk : FileTree.Tree)
    (happenings : List Happening) : List (List UInt8) :=
  match (main cfg startup env (.init disk)).1 with
  | .ok wired => (Machine.outputs wired.step wired.init happenings).flatten
  | .error _ => []

end TokenPumper
