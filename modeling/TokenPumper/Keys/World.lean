import TokenPumper.Lib.Effect
import TokenPumper.Lib.FileTree
import TokenPumper.Lib.Text
import TokenPumper.Ed25519

namespace TokenPumper
open LittleEndian Effect FileTree
set_option autoImplicit true

/-- An `anyhow` error is what was being done, outermost first, and what went wrong last. -/
inductive Failure
  | error (chain : List String)
  | panic
deriving DecidableEq, Repr

structure SignatureStatus where
  confirmationStatus : Option String
  err : Option String
deriving DecidableEq, Repr

/-- What a call of the RPC node comes back with; an error is its chain, outermost first. -/
abbrev Reply (α : Type) := Except (List String) α

/-- What the program's surroundings answer. Every question is asked at a tick of its own, so any
sequence of answers is one of these. -/
structure Env where
  /-- Seconds since the epoch, if the clock is not before it. -/
  clock : Nat → Option UInt64
  /-- `stat` fails, so that `exists` says no. -/
  statFails : Nat → Bool
  /-- What a file-system call fails with that has no other reason to fail. -/
  ioFault : Nat → Option String
  /-- How many bytes a failing write leaves behind. -/
  torn : Nat → Nat
  /-- The key that `OsRng` gives; without randomness it panics. -/
  seed : Nat → Option SigningKey
  draw : Nat → Option UInt64
  /-- The time a waiting loop has taken beyond the sleeps it has made, in milliseconds. -/
  lag : Nat → Nat
  balances : Nat → List Pubkey → Reply (List (Option UInt64))
  balance : Nat → Pubkey → Reply UInt64
  latestBlockhash : Nat → Reply (Bytes 32)
  sendTransaction : Nat → List UInt8 → Reply String
  signatureStatuses : Nat → List String → Reply (List (Option SignatureStatus))

/-- Surroundings without faults at one moment, which give the same key again and again, with an RPC
node on which every account is empty. -/
def Env.calm (secs : UInt64) (kp : SigningKey) : Env where
  clock _ := some secs
  statFails _ := false
  ioFault _ := none
  torn _ := 0
  seed _ := some kp
  draw _ := some 0
  lag _ := 0
  balances _ wallets := .ok (wallets.map fun _ => none)
  balance _ _ := .ok 0
  latestBlockhash _ := .ok (Vector.replicate 32 0)
  sendTransaction _ _ := .ok ""
  signatureStatuses _ sigs := .ok (sigs.map fun _ => none)

/-- A program that is stopped: no call of the file system does anything from then on. -/
def Env.stopAt (env : Env) (tick : Nat) : Env :=
  { env with ioFault := fun t => if tick ≤ t then some "the program was stopped" else env.ioFault t }

inductive Purpose
  | sweep
  | refill
  | distribute
deriving DecidableEq, Repr

/-- What a run has done that its claims are about, with what it knew at that moment. -/
inductive Event
  | today (day : String)
  | removed (path : Path) (bytes : List UInt8)
  | verifiedEmpty (wallets : List SigningKey) (balances : List (Option UInt64))
  | sent (purpose : Purpose) (recipients : List (Pubkey × UInt64)) (tx : List UInt8) (disk : Tree)
deriving DecidableEq

structure World where
  tick : Nat
  disk : Tree
  log : List Event

/-- A part of a run: a failure leaves the world as it had become. -/
abbrev Run (α : Type) := Eff Env World Failure α

namespace World

def init (disk : Tree) : World := ⟨0, disk, []⟩

def logged (w : World) (e : Event) : World := { w with log := w.log ++ [e] }

def withDisk (w : World) (disk : Tree) : World := { w with disk }

@[simp] theorem logged_disk (w : World) (e : Event) : (w.logged e).disk = w.disk := rfl

@[simp] theorem logged_log (w : World) (e : Event) : (w.logged e).log = w.log ++ [e] := rfl

@[simp] theorem withDisk_disk (w : World) (disk : Tree) : (w.withDisk disk).disk = disk := rfl

@[simp] theorem withDisk_log (w : World) (disk : Tree) : (w.withDisk disk).log = w.log := rfl

end World

def sampleKeysDir : Tree := Tree.empty.add "keys" [] .dir (.inl rfl) rfl

theorem isDir_sampleKeysDir : sampleKeysDir.IsDir ["keys"] := .inr rfl

def bail (message : String) : Run α := fail (.error [message])

/-- `anyhow::Context`. -/
def withContext (message : String) (x : Run α) : Run α :=
  mapFailure (fun
    | .error chain => .error (message :: chain)
    | .panic => .panic) x

def ask (question : Env → Nat → α) : Run α := do
  let w ← current
  update fun w => { w with tick := w.tick + 1 }
  let env ← surroundings
  pure (question env w.tick)

def record (e : Event) : Run Unit := update (·.logged e)

/-- A value whose absence is a panic. -/
def orPanic : Option α → Run α
  | some a => pure a
  | none => fail .panic

def fileExists (path : Path) : Run Bool := do
  let fails ← ask (·.statFails)
  let w ← current
  pure (!fails && (w.disk.lookup path).isSome)

/-- A call that the system may refuse for a reason of its own. -/
def syscall : Run Unit := do
  match ← ask (·.ioFault) with
  | none => pure ()
  | some reason => bail reason

def noSuchFile : String := "No such file or directory (os error 2)"

def fileIsThere : String := "File exists (os error 17)"

def isADirectory : String := "Is a directory (os error 21)"

def notADirectory : String := "Not a directory (os error 20)"

def readToString (path : Path) : Run (List Char) := do
  syscall
  let w ← current
  match w.disk.lookup path with
  | none => bail noSuchFile
  | some .dir => bail isADirectory
  | some (.file bytes) =>
    match Text.ofUtf8 bytes with
    | some text => pure text
    | none => bail "stream did not contain valid UTF-8"

def makeDir (name : String) (dir : Path) : Run Unit := do
  syscall
  let w ← current
  match h : w.disk.lookup (name :: dir) with
  | some .dir => pure ()
  | some (.file _) => bail fileIsThere
  | none =>
    if hd : w.disk.IsDir dir then update (·.withDisk (w.disk.add name dir .dir hd h))
    else bail noSuchFile

def createDirAll : Path → Run Unit
  | [] => pure ()
  | name :: dir => do
    createDirAll dir
    makeDir name dir

/-- Open a file that must not be there yet, and write to it. A write that fails leaves what it has
written. -/
def writeNew (path : Path) (bytes : List UInt8) (opening writing : String) : Run Unit := do
  let fault ← ask (·.ioFault)
  let w ← current
  match fault, path with
  | some reason, _ => fail (.error [opening, reason])
  | none, [] => fail (.error [opening, noSuchFile])
  | none, name :: dir =>
    if hd : w.disk.IsDir dir then
      if h : w.disk.lookup (name :: dir) = none then do
        let failing ← ask (·.ioFault)
        let kept ← ask (·.torn)
        match failing with
        | none => update (·.withDisk (w.disk.add name dir (.file bytes) hd h))
        | some reason => do
          update (·.withDisk (w.disk.add name dir (.file (bytes.take kept)) hd h))
          fail (.error [writing, reason])
      else fail (.error [opening, fileIsThere])
    else fail (.error [opening, noSuchFile])

def removeFile (path : Path) : Run Unit := do
  syscall
  let w ← current
  match h : w.disk.lookup path with
  | none => bail noSuchFile
  | some .dir => bail isADirectory
  | some (.file bytes) => do
    update (·.withDisk (w.disk.removeFile path h))
    record (.removed path bytes)

def readDir (dir : Path) : Run (List String) := do
  syscall
  let w ← current
  if w.disk.IsDir dir then pure (w.disk.entries dir)
  else if w.disk.lookup dir = none then bail noSuchFile
  else bail notADirectory

/-- `?` on the reply of the RPC node. -/
def rpc (question : Env → Nat → Reply α) : Run α := do
  let reply ← ask question
  lift (reply.mapError .error)

section Runs
variable {env : Env} {w : World}

theorem ask_run (question : Env → Nat → α) :
    ask question env w = (.ok (question env w.tick), { w with tick := w.tick + 1 }) := rfl

theorem withContext_run_ok {x : Run α} (h : x env w = (.ok a, w')) :
    withContext message x env w = (.ok a, w') := by
  rw [withContext, mapFailure, h]

theorem withContext_run_error {x : Run α} (h : x env w = (.error (.error chain), w')) :
    withContext message x env w = (.error (.error (message :: chain)), w') := by
  rw [withContext, mapFailure, h]

theorem withContext_run_eq_ok {x : Run α} (h : withContext message x env w = (.ok a, w')) :
    x env w = (.ok a, w') := by
  rw [withContext, mapFailure] at h
  split at h
  · rename_i hx
    exact hx.trans h
  · cases h

theorem rpc_run_ok {question : Env → Nat → Reply α} (h : question env w.tick = .ok a) :
    rpc question env w = (.ok a, { w with tick := w.tick + 1 }) := by
  rw [rpc, bind_run_ok (ask_run _), h]
  rfl

theorem rpc_run_error {question : Env → Nat → Reply α} (h : question env w.tick = .error chain) :
    rpc question env w = (.error (.error chain), { w with tick := w.tick + 1 }) := by
  rw [rpc, bind_run_ok (ask_run _), h]
  rfl

end Runs

end TokenPumper
