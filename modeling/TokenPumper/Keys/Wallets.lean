import TokenPumper.Keys.Batch
import TokenPumper.Keys.Funding

namespace TokenPumper
open LittleEndian Effect
set_option autoImplicit true

structure Prepared where
  eater : SigningKey
  funder : SigningKey
  dev : SigningKey
  children : List SigningKey
  assigner : Assigner

def SignatureStatus.isConfirmedOrFinalized (s : SignatureStatus) : Bool :=
  s.confirmationStatus = some "confirmed" || s.confirmationStatus = some "finalized"

/-- A signature is settled if its status is good; signatures without a status in the reply do not
show up at all. -/
def pendingSignatures (sigs : List String) (statuses : List (Option SignatureStatus)) :
    List String :=
  (sigs.zip statuses).filterMap fun (sig, status) =>
    match status with
    | some s => if s.isConfirmedOrFinalized && s.err.isNone then none else some sig
    | none => some sig

def waitForSweepSettled (results : List SweepResult) : Run Unit := do
  let sigs := results.filterMap SweepResult.signature
  if sigs.isEmpty then pure ()
  else
    pollUntil (do
      let statuses ← rpc fun env t => env.signatureStatuses t sigs
      let pending := pendingSignatures sigs statuses
      if pending.isEmpty then pure none
      else pure (some ("sweep didn't confirm within 30s; pending sigs: " ++
        Text.debugList Text.debug pending))) 61

/-- The labels and balances of the wallets that still hold something, as far as the reply goes. -/
def strandedWallets (labels : List String) (balances : List (Option UInt64)) :
    List (String × UInt64) :=
  (labels.zip balances).filterMap fun (label, balance) =>
    match balance with
    | none => none
    | some lamports => if lamports = 0 then none else some (label, lamports)

def debugStranded (wallet : String × UInt64) : String :=
  s!"({Text.debug wallet.1}, {wallet.2})"

variable [Ed25519]

def walletsToRotate (funderToRotate : Option SigningKey)
    (childrenToRotate : Option (List SigningKey)) : List (String × SigningKey) :=
  (funderToRotate.toList.map fun kp => ("funder", kp)) ++
    (childrenToRotate.getD []).zipIdx.map fun (kp, i) => (toString (i + 1) ++ ".json", kp)

def verifyZeroBeforeRecycle (funderToRotate : Option SigningKey)
    (childrenToRotate : Option (List SigningKey)) : Run Unit := do
  let toCheck := walletsToRotate funderToRotate childrenToRotate
  if toCheck.isEmpty then pure ()
  else do
    let pubkeys := toCheck.map fun (_, kp) => Ed25519.verifyingKey kp
    let balances ← withContext
      "RPC error during pre-recycle balance verification; refusing to rotate keys"
      (rpc fun env t => env.balances t pubkeys)
    let stranded := strandedWallets (toCheck.map Prod.fst) balances
    if stranded.isEmpty then record (.verifiedEmpty (toCheck.map Prod.snd) balances)
    else bail (s!"pre-recycle verification: {stranded.length} wallet(s) still hold funds, " ++
      s!"refusing to rotate keys: {Text.debugList debugStranded stranded}")

/-- The keys as the first lines of `prepare` resolve them. -/
structure Resolved where
  eater : SigningKey
  funder : SigningKey
  funderOrigin : Origin
  dev : SigningKey
  children : List SigningKey
  batchOrigin : Origin
deriving DecidableEq

def resolveKeys (cfg : Config) : Run Resolved := do
  let eater ← Eater.ensure cfg.eaterPath
  let (funder, funderOrigin) ← Funder.resolve cfg.funderPath
  let (dev, _) ← Dev.resolve cfg.devPath
  let (children, batchOrigin) ← Batch.resolveToday cfg.keysDir cfg.batchSize
  pure ⟨eater, funder, funderOrigin, dev, children, batchOrigin⟩

/-- The balances of the funder, the eater and the children; a missing entry is a panic. -/
def audit (r : Resolved) : Run (UInt64 × UInt64 × List UInt64) := do
  let loaded := if r.batchOrigin = .loaded then r.children else []
  let lamports ← rpc fun env t => env.balances t
    ([r.funder, r.eater, r.dev] ++ loaded |>.map Ed25519.verifyingKey)
  let funderBalance ← orPanic lamports[0]?
  let eaterBalance ← orPanic lamports[1]?
  let _devBalance ← orPanic lamports[2]?
  let childBalances := if r.batchOrigin = .loaded then (lamports.drop 3).map (·.getD 0)
    else List.replicate r.children.length 0
  pure (funderBalance.getD 0, eaterBalance.getD 0, childBalances)

/-- A loaded child without a balance is a panic. -/
def childSenders (children : List SigningKey) (balances : List UInt64) : Option (List Sender) :=
  children.zipIdx.mapM fun (kp, i) =>
    (balances[i]?).map fun balance => ⟨toString (i + 1) ++ ".json", kp, balance⟩

def loadedSenders (r : Resolved) (childBalances : List UInt64) : Run (List Sender) :=
  if r.batchOrigin = .loaded then orPanic (childSenders r.children childBalances) else pure []

def sweepWallets (cfg : Config) (r : Resolved) : Run Unit := do
  let (funderBalance, eaterBalance, childBalances) ← audit r
  let children ← loadedSenders r childBalances
  let senders := ⟨"funder", r.funder, funderBalance⟩ :: children
  if senders.any (0 < ·.balance) then do
    let results ← Sweep.toEater senders r.eater eaterBalance cfg.debug
    if cfg.debug then pure () else waitForSweepSettled results

def gate (cfg : Config) (r : Resolved) : Run Unit := do
  if cfg.debug then pure ()
  else
    verifyZeroBeforeRecycle (if r.funderOrigin = .loaded then some r.funder else none)
      (if r.batchOrigin = .loaded then some r.children else none)

def settle (cfg : Config) : Run (Resolved × Assigner) := do
  let r ← resolveKeys cfg
  let assigner ← Assigner.build cfg.accounts cfg.batchSize
  sweepWallets cfg r
  gate cfg r
  pure (r, assigner)

def recycleFunder (cfg : Config) (r : Resolved) : Run SigningKey :=
  if r.funderOrigin = .loaded && !cfg.debug then Funder.regenerate cfg.funderPath else pure r.funder

def recycleBatch (cfg : Config) (r : Resolved) : Run (List SigningKey) :=
  if r.batchOrigin = .loaded && !cfg.debug then Batch.regenerateToday cfg.keysDir cfg.batchSize
  else pure r.children

def fund (cfg : Config) (p : Prepared) : Run Unit := do
  Refill.eaterToFunder p.eater p.funder cfg.eaterAmount cfg.debug
  Distribute.funderToChildren p.funder p.children p.assigner cfg.debug

def prepare (cfg : Config) : Run Prepared := do
  let (r, assigner) ← settle cfg
  let funder ← recycleFunder cfg r
  let children ← recycleBatch cfg r
  let p := ⟨r.eater, funder, r.dev, children, assigner⟩
  fund cfg p
  pure p

end TokenPumper
