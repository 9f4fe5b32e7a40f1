import Mathlib.Data.UInt
import TokenPumper.Keys.Transaction
import TokenPumper.Keys.World
import TokenPumper.Saturating

namespace TokenPumper
open LittleEndian Effect Transaction
set_option autoImplicit true

/-- `rpc::send_transaction`; the transaction is out whatever the reply says. -/
def sendTransaction (purpose : Purpose) (recipients : List (Pubkey × UInt64))
    (tx : List UInt8) : Run (Reply String) := do
  let w ← current
  record (.sent purpose recipients tx w.disk)
  ask fun env t => env.sendTransaction t tx

theorem sendTransaction_run (purpose : Purpose) (recipients : List (Pubkey × UInt64))
    (tx : List UInt8) (env : Env) (w : World) :
    sendTransaction purpose recipients tx env w = (.ok (env.sendTransaction w.tick tx),
      { w.logged (.sent purpose recipients tx w.disk) with tick := w.tick + 1 }) := rfl

/-- One round of a waiting loop: done, too late, or once more. The elapsed time is at least that of
the half seconds slept so far. -/
def pollRound (check : Run (Option String)) (round : Nat) (again : Run Unit) : Run Unit := do
  match ← check with
  | none => pure ()
  | some late => do
    let lag ← ask (·.lag)
    if 30000 < 500 * round + lag then bail late else again

/-- Check every half second, for more than thirty seconds. -/
def pollUntil (check : Run (Option String)) : Nat → Run Unit
  -- the sixty-first round is always too late
  | 0 => pollRound check 61 (fail .panic)
  | left + 1 => pollRound check (60 - left) (pollUntil check left)

structure Sender where
  label : String
  key : SigningKey
  balance : UInt64

inductive Outcome
  | sent (lamports : UInt64) (signature : String)
  | skipped (reason : String)
  | failed (error : String)
deriving DecidableEq, Repr

structure SweepResult where
  label : String
  outcome : Outcome
deriving DecidableEq, Repr

def SweepResult.signature (r : SweepResult) : Option String :=
  match r.outcome with
  | .sent _ signature => some signature
  | _ => none

def reportAll (chunk : List Sender) (outcome : Sender → Outcome) : List SweepResult :=
  chunk.map fun s => ⟨s.label, outcome s⟩

/-- Consecutive parts of a length, the last one of what is left. -/
def inChunks (size : Nat) : Nat → List α → List (List α)
  | 0, _ => []
  | _ + 1, [] => []
  | fuel + 1, xs => xs.take size :: inChunks size fuel (xs.drop size)

section Chunks
variable {size fuel : Nat} {xs : List α}

theorem inChunks_cons (size fuel : Nat) (x : α) (xs : List α) :
    inChunks size (fuel + 1) (x :: xs) =
      (x :: xs).take size :: inChunks size fuel ((x :: xs).drop size) := rfl

theorem inChunks_nil (size fuel : Nat) : inChunks size fuel ([] : List α) = [] := by
  cases fuel <;> rfl

theorem flatten_inChunks (hsize : 0 < size) (hfuel : xs.length ≤ fuel) :
    (inChunks size fuel xs).flatten = xs := by
  induction fuel generalizing xs with
  | zero =>
    rw [List.length_eq_zero_iff.1 (Nat.le_zero.1 hfuel)]
    rfl
  | succ fuel ih =>
    cases xs with
    | nil => rfl
    | cons x xs =>
      have hdrop : ((x :: xs).drop size).length ≤ fuel := by
        rw [List.length_drop, List.length_cons]
        rw [List.length_cons] at hfuel
        omega
      rw [inChunks_cons, List.flatten_cons, ih hdrop, List.take_append_drop]

theorem inChunks_map (f : α → β) (size fuel : Nat) (xs : List α) :
    inChunks size fuel (xs.map f) = (inChunks size fuel xs).map (List.map f) := by
  induction fuel generalizing xs with
  | zero => rfl
  | succ fuel ih =>
    cases xs with
    | nil => rfl
    | cons x xs =>
      rw [List.map_cons, inChunks_cons, inChunks_cons, List.map_cons, ← List.map_cons,
        ← List.map_take, ← List.map_drop, ih]

theorem length_le_of_mem_inChunks (h : part ∈ inChunks size fuel xs) : part.length ≤ size := by
  induction fuel generalizing xs with
  | zero => cases h
  | succ fuel ih =>
    cases xs with
    | nil => cases h
    | cons x xs =>
      rcases List.mem_cons.1 h with rfl | hrest
      · exact List.length_take_le ..
      · exact ih hrest

theorem mem_of_mem_inChunks (h : part ∈ inChunks size fuel xs) (ha : a ∈ part) :
    a ∈ xs := by
  induction fuel generalizing xs with
  | zero => cases h
  | succ fuel ih =>
    cases xs with
    | nil => cases h
    | cons x xs =>
      rcases List.mem_cons.1 h with rfl | hrest
      · exact List.mem_of_mem_take ha
      · exact List.mem_of_mem_drop (ih hrest)

theorem pairwise_inChunks (size fuel : Nat) (xs : List α) :
    (inChunks size fuel xs).Pairwise fun part later => later.length ≤ part.length := by
  induction fuel generalizing xs with
  | zero => exact .nil
  | succ fuel ih =>
    cases xs with
    | nil => exact .nil
    | cons x xs =>
      rw [inChunks_cons]
      refine .cons ?_ (ih _)
      intro later hlater
      have hsize := length_le_of_mem_inChunks hlater
      rcases Nat.lt_or_ge size (x :: xs).length with hlong | hshort
      · rwa [List.length_take_of_le (Nat.le_of_lt hlong)]
      · -- a short part is the last one
        rw [List.drop_eq_nil_of_le hshort, inChunks_nil] at hlater
        cases hlater

end Chunks

variable [Ed25519]

/-- The first loop: what is reported at once, and what is left to sweep. -/
def sortSenders (eaterPk : Pubkey) : List Sender → List SweepResult × List Sender
  | [] => ([], [])
  | s :: senders =>
    let (results, work) := sortSenders eaterPk senders
    if s.balance = 0 then (results, work)
    else if Ed25519.verifyingKey s.key = eaterPk then
      (⟨s.label, .skipped "destination equals source (this wallet is the eater)"⟩ :: results, work)
    else (results, s :: work)

/-- The transactions, one a chunk, with the balance that the eater is expected to have. -/
def sweepChunks (eater : SigningKey) (blockhash : Bytes 32) : UInt64 → List (List Sender) →
    Run (List SweepResult)
  | _, [] => pure []
  | runningEater, chunk :: rest => do
    let chunkTotal := (chunk.map Sender.balance).sum
    let chunkFee := (UInt64.ofNat chunk.length + 1) * lamportsPerSignature
    let projected := saturatingSub (saturatingAdd runningEater chunkTotal) chunkFee
    if projected < rentExemptMinLamports then do
      let results ← sweepChunks eater blockhash runningEater rest
      pure (reportAll chunk
        (fun _ => .skipped "would leave eater below rent-exempt minimum") ++ results)
    else do
      let tx ← orPanic
        (buildConsolidatedSweep eater (chunk.map Sender.key) (chunk.map Sender.balance) blockhash)
      match ← sendTransaction .sweep (chunk.map fun s => (Ed25519.verifyingKey eater, s.balance))
        tx with
      | .ok sig => do
        let results ← sweepChunks eater blockhash projected rest
        pure (reportAll chunk (fun s => .sent s.balance sig) ++ results)
      | .error chain => do
        let results ← sweepChunks eater blockhash runningEater rest
        pure (reportAll chunk (fun _ => .failed (chain.headD "")) ++ results)

def Sweep.toEater (senders : List Sender) (eater : SigningKey) (eaterBalance : UInt64)
    (debug : Bool) : Run (List SweepResult) := do
  let (results, work) := sortSenders (Ed25519.verifyingKey eater) senders
  if work.isEmpty then pure results
  else if debug then
    pure (results ++ reportAll work fun _ => .skipped "debug mode: tx not sent")
  else do
    let blockhash ← rpc (·.latestBlockhash)
    let swept ← sweepChunks eater blockhash eaterBalance
      (inChunks maxChildrenPerSweepTx work.length work)
    pure (results ++ swept)

end TokenPumper
