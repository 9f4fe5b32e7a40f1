import TokenPumper.CurveSub.Decode
import TokenPumper.Lib.Machine
import TokenPumper.Pumpfun.Fire

namespace TokenPumper.CurveSub
open LittleEndian
set_option autoImplicit true

def filterAtas : String := "atas"

def filterCurve : String := "curve"

structure AtaSubscription where
  label : String
  ata : Pubkey
  walletIndex : Option Nat

structure StreamInputs where
  curve : Pubkey
  atas : List AtaSubscription

structure Task where
  inputs : StreamInputs
  buyCtxs : List BuyContext
  walletSellCtxs : List WalletSellContext
  sellCtx : Option SellContext

/-- The map built from the subscriptions: a later one of the same account replaces an earlier. -/
def Task.ataToWalletIdx (task : Task) (pubkey : Pubkey) : Option Nat :=
  (task.inputs.atas.reverse.filterMap fun a => a.walletIndex.map fun i => (a.ata, i)).lookup pubkey

structure AccountInfo where
  pubkey : List UInt8
  data : List UInt8

inductive UpdateOneof
  | account (account : Option AccountInfo) (slot : UInt64)
  | pong
  | other

structure SubscribeUpdate where
  filters : List String
  updateOneof : Option UpdateOneof

/-- Where the task waits. The baseline of the reserves lives as long as a connection. -/
inductive Phase
  | started
  | loopHead
  | connecting
  | subscribing
  | sendingFilter
  | streamHead (prev : Reserves)
  | selecting (prev : Reserves)
  | sleeping
  | returned

/-- A spawned batch of sells: what it has still to do. -/
structure Deadline where
  fireSlot : UInt64
  devSell : Option SellContext
  wallets : List (Nat × WalletSellContext)
  sellBuf : BuiltTx

structure State where
  phase : Phase
  firstSignalFired : Bool
  walletBalances : List UInt64
  deadlines : List Deadline

def State.init (walletBalances : List UInt64) : State := ⟨.started, false, walletBalances, []⟩

/-- What can happen to the task, to its deadline batches, and on the stream. A blockhash is what
the cache reads for each context that is fired. -/
inductive Event
  | validated (xToken endpoint : Bool)
  | loadExit (exit : Bool)
  | connected
  | connectFailed
  | subscribed
  | subscribeFailed (unauthenticated : Bool)
  | filterSent
  | filterSendFailed
  | exitCheckTick
  | update (update : SubscribeUpdate) (blockhashes : Nat → Bytes 32)
  | streamClosed
  | streamError
  | pingSent
  | pingSendFailed
  | slept
  | deadlineStep (batch : Nat) (blockhash : Bytes 32)

/-- The calls that leave the task, each with the bytes handed over to node1 if any. -/
inductive Fired
  | buy (wallet : Nat) (slot : UInt64) (handed : Option (List UInt8))
  | spawned (slot : UInt64)
  | devSell (slot : UInt64) (handed : Option (List UInt8))
  | walletSell (wallet : Nat) (slot amount : UInt64) (handed : Option (List UInt8))
deriving DecidableEq

variable [Ed25519]

/-- The buys of a batch, in order, into one buffer; a panic of one ends the batch. -/
def fireBuys (slot : UInt64) (blockhashes : Nat → Bytes 32) :
    List (Nat × BuyContext) → BuiltTx → List Fired × Option BuiltTx
  | [], buyBuf => ([], some buyBuf)
  | (k, ctx) :: ctxs, buyBuf =>
    match fireBuy ctx slot (blockhashes k) buyBuf with
    | none => ([], none)
    | some (buyBuf, handed) =>
      let (fired, rest) := fireBuys slot blockhashes ctxs buyBuf
      (.buy k slot handed :: fired, rest)

def numbered (xs : List α) : List (Nat × α) := xs.zipIdx.map Prod.swap

/-- A curve update of an open stream; a panic takes the task down. -/
def handleCurve (task : Task) (s : State) (data : Bytes sliceTotalLen) (slot : UInt64)
    (blockhashes : Nat → Bytes 32) : State × List Fired :=
  let s := { s with phase := .streamHead (.fromSlice data) }
  if s.firstSignalFired then (s, [])
  else
    let s := { s with firstSignalFired := true }
    match fireBuys slot blockhashes (numbered task.buyCtxs) .new with
    | (fired, none) => ({ s with phase := .returned }, fired)
    | (fired, some _) =>
      let batch := ⟨slot, task.sellCtx, numbered task.walletSellCtxs, .new⟩
      ({ s with deadlines := s.deadlines ++ [batch] }, fired ++ [.spawned slot])

/-- An update of a token account: the balance of its wallet, if it is one of ours. -/
def handleAta (task : Task) (s : State) (prev : Reserves) (info : AccountInfo)
    (data : Bytes sliceTotalLen) : State :=
  let s := { s with phase := .streamHead prev }
  match exactly 32 info.pubkey with
  | none => s
  | some pubkey =>
    match task.ataToWalletIdx pubkey with
    | none => s
    | some idx =>
      if idx < s.walletBalances.length then
        { s with walletBalances := s.walletBalances.set idx (tokenAmount data) }
      else { s with phase := .returned }

def handleUpdate (task : Task) (s : State) (prev : Reserves) (update : SubscribeUpdate)
    (blockhashes : Nat → Bytes 32) : State × List Fired :=
  let skipped := ({ s with phase := .streamHead prev }, [])
  match update.updateOneof with
  | some (.account (some info) slot) =>
    match exactly sliceTotalLen info.data with
    | none => skipped
    | some data =>
      if filterCurve ∈ update.filters then handleCurve task s data slot blockhashes
      else if filterAtas ∈ update.filters then (handleAta task s prev info data, [])
      else skipped
  | _ => skipped

/-- The next action of a batch behind its sleep. A panic ends the batch. -/
def Deadline.next (walletBalances : List UInt64) (blockhash : Bytes 32) (d : Deadline) :
    Option (Deadline × List Fired) :=
  match d.devSell, d.wallets with
  | some ctx, _ =>
    match fireSell ctx d.fireSlot blockhash d.sellBuf with
    | none => some ({ d with devSell := none, wallets := [] }, [])
    | some (sellBuf, handed) =>
      some ({ d with devSell := none, sellBuf }, [.devSell d.fireSlot handed])
  | none, [] => none
  | none, (k, ctx) :: wallets =>
    match walletBalances[k]? with
    | none => some ({ d with wallets := [] }, [])
    | some amount =>
      if amount = 0 then some ({ d with wallets }, [])
      else
        match fireWalletSell ctx d.fireSlot amount blockhash d.sellBuf with
        | none => some ({ d with wallets := [] }, [])
        | some (sellBuf, handed) =>
          some ({ d with wallets, sellBuf }, [.walletSell k d.fireSlot amount handed])

def moveTo (s : State) (phase : Phase) : Option (State × List Fired) := some ({ s with phase }, [])

/-- One event. Those that cannot happen where the task waits are refused. -/
def step (task : Task) (s : State) (e : Event) : Option (State × List Fired) :=
  match e with
  | .deadlineStep batch blockhash => do
    let d ← s.deadlines[batch]?
    let (d', fired) ← d.next s.walletBalances blockhash
    pure ({ s with deadlines := s.deadlines.set batch d' }, fired)
  | e =>
    match s.phase, e with
    | .started, .validated xToken endpoint =>
      moveTo s (if xToken && endpoint then .loopHead else .returned)
    | .loopHead, .loadExit exit => moveTo s (if exit then .returned else .connecting)
    | .connecting, .connected => moveTo s .subscribing
    | .connecting, .connectFailed => moveTo s .sleeping
    | .subscribing, .subscribed => moveTo s .sendingFilter
    | .subscribing, .subscribeFailed unauthenticated =>
      moveTo s (if unauthenticated then .returned else .sleeping)
    | .sendingFilter, .filterSent => moveTo s (.streamHead .default)
    | .sendingFilter, .filterSendFailed => moveTo s .sleeping
    | .streamHead prev, .loadExit exit => moveTo s (if exit then .returned else .selecting prev)
    | .selecting prev, .exitCheckTick => moveTo s (.streamHead prev)
    | .selecting prev, .update update blockhashes =>
      some (handleUpdate task s prev update blockhashes)
    | .selecting _, .streamClosed => moveTo s .sleeping
    | .selecting _, .streamError => moveTo s .sleeping
    | .selecting prev, .pingSent => moveTo s (.streamHead prev)
    | .selecting _, .pingSendFailed => moveTo s .sleeping
    | .sleeping, .slept => moveTo s .loopHead
    | _, _ => none

end TokenPumper.CurveSub
