import TokenPumper.Keys.Encoders
import TokenPumper.Keys.Sweep

namespace TokenPumper
open LittleEndian Effect Transaction
set_option autoImplicit true

/-- A fee for the signature of the eater and of each sender. -/
def chunkFee (chunk : List Sender) : UInt64 :=
  (UInt64.ofNat chunk.length + 1) * lamportsPerSignature

def projectedEater (runningEater : UInt64) (chunk : List Sender) : UInt64 :=
  saturatingSub (saturatingAdd runningEater (chunk.map Sender.balance).sum) (chunkFee chunk)

/-- A chunk as the loop comes to it, of senders with their places in the list. Without a reply it
has been skipped. -/
structure Attempt where
  members : List (Sender × Nat)
  runningEater : UInt64
  reply : Option (Reply String)

namespace Attempt

def chunk (a : Attempt) : List Sender := a.members.map Prod.fst

def accepted (a : Attempt) : Bool :=
  match a.reply with
  | some (.ok _) => true
  | _ => false

def after (a : Attempt) : UInt64 :=
  if a.accepted then projectedEater a.runningEater a.chunk else a.runningEater

def outcome (a : Attempt) (s : Sender) : Outcome :=
  match a.reply with
  | none => .skipped "would leave eater below rent-exempt minimum"
  | some (.ok sig) => .sent s.balance sig
  | some (.error chain) => .failed (chain.headD "")

def results (a : Attempt) : List SweepResult := reportAll a.chunk a.outcome

end Attempt

def submitted (attempts : List Attempt) : Nat := attempts.countP (·.reply.isSome)

theorem submitted_cons (a : Attempt) (rest : List Attempt) :
    submitted (a :: rest) = submitted [a] + submitted rest := by
  rw [submitted, submitted, submitted, ← List.countP_append, List.singleton_append]

def runningAfter (runningEater : UInt64) (attempts : List Attempt) : UInt64 :=
  attempts.foldl (fun _ a => a.after) runningEater

@[simp] theorem runningAfter_cons (runningEater : UInt64) (a : Attempt) (rest : List Attempt) :
    runningAfter runningEater (a :: rest) = runningAfter a.after rest := rfl

@[simp] theorem runningAfter_nil (runningEater : UInt64) : runningAfter runningEater [] =
    runningEater := rfl

section Loop
variable [Ed25519]

def sweepTx (eater : SigningKey) (chunk : List Sender) (blockhash : Bytes 32) : List UInt8 :=
  (buildConsolidatedSweep eater (chunk.map Sender.key) (chunk.map Sender.balance) blockhash).getD []

theorem sweepTx_eq (eater : SigningKey) (chunk : List Sender) (blockhash : Bytes 32) :
    buildConsolidatedSweep eater (chunk.map Sender.key) (chunk.map Sender.balance) blockhash =
      some (sweepTx eater chunk blockhash) := by
  have hlen : (chunk.map Sender.key).length = (chunk.map Sender.balance).length := by
    rw [List.length_map, List.length_map]
  rw [sweepTx, buildConsolidatedSweep, if_pos hlen]
  rfl

def Attempt.event? (eater : SigningKey) (blockhash : Bytes 32) (disk : FileTree.Tree)
    (a : Attempt) : Option Event :=
  a.reply.map fun _ => .sent .sweep (a.chunk.map fun s => (Ed25519.verifyingKey eater, s.balance))
    (sweepTx eater a.chunk blockhash) disk

/-- The loop with all that it goes through, for the replies that it gets. -/
def sweepAttempts (env : Env) (eater : SigningKey) (blockhash : Bytes 32) :
    UInt64 → Nat → List (List (Sender × Nat)) → List Attempt
  | _, _, [] => []
  | runningEater, t, members :: rest =>
    let chunk := members.map Prod.fst
    if projectedEater runningEater chunk < rentExemptMinLamports then
      ⟨members, runningEater, none⟩ :: sweepAttempts env eater blockhash runningEater t rest
    else
      let a : Attempt :=
        ⟨members, runningEater, some (env.sendTransaction t (sweepTx eater chunk blockhash))⟩
      a :: sweepAttempts env eater blockhash a.after (t + 1) rest

def worldAfter (eater : SigningKey) (blockhash : Bytes 32) (w : World) (attempts : List Attempt) :
    World where
  tick := w.tick + submitted attempts
  disk := w.disk
  log := w.log ++ attempts.filterMap (Attempt.event? eater blockhash w.disk)

section World
variable {eater : SigningKey} {blockhash : Bytes 32} {w : World} {a : Attempt}
  {rest : List Attempt}

theorem worldAfter_nil : worldAfter eater blockhash w [] = w := by
  rw [worldAfter, List.filterMap_nil, List.append_nil]
  rfl

theorem worldAfter_skipped (h : a.reply = none) :
    worldAfter eater blockhash w (a :: rest) = worldAfter eater blockhash w rest := by
  have hevent : a.event? eater blockhash w.disk = none := by
    rw [Attempt.event?, h]
    rfl
  have hcount : submitted (a :: rest) = submitted rest := by
    rw [submitted, List.countP_cons, h]
    rfl
  rw [worldAfter, worldAfter, List.filterMap_cons, hevent, hcount]

theorem worldAfter_sent (h : a.reply = some reply) :
    worldAfter eater blockhash w (a :: rest) = worldAfter eater blockhash
      { w.logged (.sent .sweep (a.chunk.map fun s => (Ed25519.verifyingKey eater, s.balance))
        (sweepTx eater a.chunk blockhash) w.disk) with tick := w.tick + 1 } rest := by
  have hevent : a.event? eater blockhash w.disk = some (.sent .sweep
      (a.chunk.map fun s => (Ed25519.verifyingKey eater, s.balance))
      (sweepTx eater a.chunk blockhash) w.disk) := by
    rw [Attempt.event?, h]
    rfl
  have hcount : submitted (a :: rest) = submitted rest + 1 := by
    rw [submitted, List.countP_cons, h]
    rfl
  rw [worldAfter, worldAfter, List.filterMap_cons, hevent, hcount]
  simp only [World.logged, List.append_assoc, List.singleton_append]
  congr 1
  omega

end World

theorem sweepChunks_run (env : Env) (eater : SigningKey) (blockhash : Bytes 32)
    (runningEater : UInt64) (parts : List (List (Sender × Nat))) (w : World) :
    sweepChunks eater blockhash runningEater (parts.map (List.map Prod.fst)) env w =
      (.ok ((sweepAttempts env eater blockhash runningEater w.tick parts).flatMap Attempt.results),
        worldAfter eater blockhash w
          (sweepAttempts env eater blockhash runningEater w.tick parts)) := by
  induction parts generalizing runningEater w with
  | nil =>
    rw [sweepAttempts, worldAfter_nil]
    rfl
  | cons members rest ih =>
    have hprojected : saturatingSub (saturatingAdd runningEater
        ((members.map Prod.fst).map Sender.balance).sum)
        ((UInt64.ofNat (members.map Prod.fst).length + 1) * lamportsPerSignature) =
        projectedEater runningEater (members.map Prod.fst) := rfl
    have hthere (tx : List UInt8) : (orPanic (some tx) : Run (List UInt8)) env w = (.ok tx, w) :=
      rfl
    rw [List.map_cons, sweepChunks, sweepAttempts]
    dsimp only
    rw [hprojected]
    split
    · rw [bind_run_ok (ih runningEater w), worldAfter_skipped rfl]
      rfl
    · rw [sweepTx_eq, bind_run_ok (hthere _), bind_run_ok (sendTransaction_run ..),
        worldAfter_sent rfl]
      cases hreply :
          env.sendTransaction w.tick (sweepTx eater (members.map Prod.fst) blockhash) with
      | ok sig =>
        dsimp only
        rw [bind_run_ok (ih _ _)]
        rfl
      | error chain =>
        dsimp only
        rw [bind_run_ok (ih _ _)]
        rfl

def Attempt.Decided (env : Env) (eater : SigningKey) (blockhash : Bytes 32) (t : Nat)
    (a : Attempt) : Prop :=
  (a.reply = none ∧ projectedEater a.runningEater a.chunk < rentExemptMinLamports) ∨
    rentExemptMinLamports ≤ projectedEater a.runningEater a.chunk ∧
      a.reply = some (env.sendTransaction t (sweepTx eater a.chunk blockhash))

theorem Attempt.Decided.leaves_rent {env : Env} {eater : SigningKey} {blockhash : Bytes 32}
    {a : Attempt} (h : a.Decided env eater blockhash t) (haccepted : a.accepted = true) :
    rentExemptMinLamports ≤ projectedEater a.runningEater a.chunk := by
  rcases h with ⟨hnone, -⟩ | ⟨hhigh, -⟩
  · rw [Attempt.accepted, hnone] at haccepted
    cases haccepted
  · exact hhigh

section Steps
variable {env : Env} {eater : SigningKey} {blockhash : Bytes 32} {runningEater : UInt64}
  {t : Nat} {parts : List (List (Sender × Nat))} {before rest : List Attempt} {a : Attempt}

theorem sweepAttempts_cons (env : Env) (eater : SigningKey) (blockhash : Bytes 32)
    (runningEater : UInt64) (t : Nat) (members : List (Sender × Nat))
    (parts : List (List (Sender × Nat))) :
    ∃ a : Attempt, a.members = members ∧ a.runningEater = runningEater ∧
      a.Decided env eater blockhash t ∧
      sweepAttempts env eater blockhash runningEater t (members :: parts) =
        a :: sweepAttempts env eater blockhash a.after (t + submitted [a]) parts := by
  rw [sweepAttempts]
  dsimp only
  split
  · rename_i hlow
    exact ⟨⟨members, runningEater, none⟩, rfl, rfl, .inl ⟨rfl, hlow⟩, rfl⟩
  · rename_i hhigh
    exact ⟨⟨members, runningEater, some _⟩, rfl, rfl, .inr ⟨UInt64.not_lt.1 hhigh, rfl⟩, rfl⟩

theorem sweepAttempts_members (env : Env) (eater : SigningKey) (blockhash : Bytes 32)
    (runningEater : UInt64) (t : Nat) (parts : List (List (Sender × Nat))) :
    (sweepAttempts env eater blockhash runningEater t parts).map Attempt.members = parts := by
  induction parts generalizing runningEater t with
  | nil => rfl
  | cons members parts ih =>
    obtain ⟨a, hmembers, -, -, hcons⟩ :=
      sweepAttempts_cons env eater blockhash runningEater t members parts
    rw [hcons, List.map_cons, hmembers, ih]

theorem sweepAttempts_split
    (h : sweepAttempts env eater blockhash runningEater t parts = before ++ rest) :
    rest = sweepAttempts env eater blockhash (runningAfter runningEater before)
      (t + submitted before) (rest.map Attempt.members) := by
  induction before generalizing runningEater t parts with
  | nil =>
    have hparts := sweepAttempts_members env eater blockhash runningEater t parts
    rw [List.nil_append] at h
    rw [h] at hparts
    rw [hparts, ← h]
    rfl
  | cons a before ih =>
    cases parts with
    | nil => cases h
    | cons members parts =>
      obtain ⟨b, -, -, -, hcons⟩ :=
        sweepAttempts_cons env eater blockhash runningEater t members parts
      obtain ⟨rfl, htail⟩ := List.cons.inj (hcons.symm.trans h)
      rw [runningAfter_cons, submitted_cons, ← Nat.add_assoc]
      exact ih htail

theorem sweepAttempts_decided
    (h : sweepAttempts env eater blockhash runningEater t parts = before ++ a :: rest) :
    a.runningEater = runningAfter runningEater before ∧
      a.Decided env eater blockhash (t + submitted before) := by
  have hrest := sweepAttempts_split h
  obtain ⟨b, -, hrunning, hdecided, hcons⟩ := sweepAttempts_cons env eater blockhash
    (runningAfter runningEater before) (t + submitted before) a.members (rest.map Attempt.members)
  obtain ⟨rfl, -⟩ := List.cons.inj (hrest.trans hcons)
  exact ⟨hrunning, hdecided⟩

end Steps

end Loop

end TokenPumper
