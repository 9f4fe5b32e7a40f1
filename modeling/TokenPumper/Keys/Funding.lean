import TokenPumper.Keys.Assigner
import TokenPumper.Keys.Sweep

namespace TokenPumper
open LittleEndian Effect Transaction
set_option autoImplicit true

variable [Ed25519]

def Refill.eaterToFunder (eater funder : SigningKey) (amount : UInt64) (debug : Bool) :
    Run Unit := do
  let funderPk := Ed25519.verifyingKey funder
  if debug then pure ()
  else do
    let pre ← rpc fun env t => env.balance t funderPk
    let target := saturatingAdd pre amount
    let blockhash ← rpc (·.latestBlockhash)
    let tx := buildDistribute eater [(funderPk, amount)] blockhash
    let reply ← sendTransaction .refill [(funderPk, amount)] tx
    let _ ← lift (reply.mapError .error)
    pollUntil (do
      let now ← rpc fun env t => env.balance t funderPk
      if now ≥ target then pure none
      else pure (some (s!"timeout waiting for funder balance ≥ {target} lamports; " ++
        s!"last seen {now}"))) 61

def perWalletSafetyLamports : UInt64 := 100000000

def checkAssignments (children : List SigningKey) : List WalletAssignment → Run Unit
  | [] => pure ()
  | a :: rest =>
    if a.index ≥ children.length then
      bail s!"assignment index {a.index} out of range 0..{children.length}"
    else if a.amount < rentExemptMinLamports then
      bail (s!"assignment for index {a.index + 1} amount {a.amount} is below rent-exempt " ++
        s!"minimum {rentExemptMinLamports}; tx would fail")
    else checkAssignments children rest

def recipientsOf (children : List SigningKey) (assignments : List WalletAssignment) :
    Option (List (Pubkey × UInt64)) :=
  assignments.mapM fun a => (children[a.index]?).map fun kp =>
    (Ed25519.verifyingKey kp, a.amount + perWalletSafetyLamports)

def Distribute.funderToChildren (funder : SigningKey) (children : List SigningKey)
    (assigner : Assigner) (debug : Bool) : Run Unit := do
  if assigner.isEmpty then pure ()
  else do
    checkAssignments children assigner.iter
    let recipients ← orPanic (recipientsOf children assigner.iter)
    if debug then pure ()
    else do
      let blockhash ← rpc (·.latestBlockhash)
      let tx := buildDistribute funder recipients blockhash
      let reply ← sendTransaction .distribute recipients tx
      let _ ← lift (reply.mapError .error)
      pure ()

end TokenPumper
