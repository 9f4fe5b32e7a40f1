import TokenPumper.Lib.Machine
import TokenPumper.Lib.LittleEndian

namespace TokenPumper.Node1
open Machine
set_option autoImplicit true

/-- Where the worker is: about to look at the exit flag, in its `select!`, on its way out with its
end of the queue still open, or gone. -/
inductive WorkerPhase
  | loopHead
  | selecting
  | leaving
  | returned
deriving DecidableEq, Repr

/-- How far `main` has come with the shutdown. -/
inductive MainPhase
  | running
  | exitStored
  | joined
  | awaiting
  | closing
deriving DecidableEq, Repr

/-- Who runs beside `main` with a clone of the submitter: the receiver's thread, the task of the
curve subscription, the batches of sells that it spawns. -/
inductive Holder
  | receiver
  | curveSub
  | deadline
deriving DecidableEq, Repr

/-- Besides the state of the parties, what has come of the submissions: those that returned true,
how many of them had when `shutdown` was called, and what was handed to `send_one`. -/
structure State where
  worker : WorkerPhase
  main : MainPhase
  exit : Bool
  connected : Bool
  holders : List Holder
  queue : List (List UInt8)
  accepted : List (List UInt8)
  acceptedAtShutdown : Option Nat
  handed : List (List UInt8)
deriving DecidableEq, Repr

/-- After `spawn`; the curve subscription is configured or not. -/
def State.init (curveSub : Bool) : State where
  worker := .loopHead
  main := .running
  exit := false
  connected := true
  holders := if curveSub then [.receiver, .curveSub] else [.receiver]
  queue := []
  accepted := []
  acceptedAtShutdown := none
  handed := []

/-- `main` keeps a clone of its own until it ends, behind the shutdown. -/
def State.channelOpen (s : State) : Bool :=
  s.main ≠ .closing || !s.holders.isEmpty

theorem channelOpen_of_main (s : State) (h : s.main ≠ .closing) : s.channelOpen = true := by
  simp [State.channelOpen, h]

theorem channelOpen_of_mem (s : State) (h : holder ∈ s.holders) : s.channelOpen = true := by
  have hne : s.holders ≠ [] := List.ne_nil_of_mem h
  simp [State.channelOpen, hne]

inductive Event
  /-- `Node1Submitter::submit` of somebody who runs. -/
  | submit (holder : Holder) (bytes : List UInt8)
  | spawnsDeadline
  | ends (holder : Holder)
  | connectionLost
  | ctrlC
  | joined
  | shutdown
  | workerAwaited
  | loadExit
  | recv
  | channelClosed
  | connectionClosed
  | returns
deriving DecidableEq, Repr

def Event.isWorker : Event → Bool
  | .loadExit | .recv | .channelClosed | .connectionClosed | .returns => true
  | _ => false

/-- One step of one of the parties. The `select!` looks at the queue first. -/
def step (s : State) : Event → Option State
  | .submit holder bytes =>
    if holder ∉ s.holders then none
    else if s.worker = .returned then some s
    else some { s with queue := s.queue ++ [bytes], accepted := s.accepted ++ [bytes] }
  | .spawnsDeadline =>
    if .curveSub ∈ s.holders then some { s with holders := .deadline :: s.holders } else none
  | .ends holder =>
    if holder ∈ s.holders then some { s with holders := s.holders.erase holder } else none
  | .connectionLost => some { s with connected := false }
  | .ctrlC => if s.main = .running then some { s with main := .exitStored, exit := true } else none
  | .joined =>
    if s.main = .exitStored ∧ .receiver ∉ s.holders then some { s with main := .joined } else none
  | .shutdown =>
    if s.main = .joined then
      some { s with main := .awaiting, acceptedAtShutdown := some s.accepted.length }
    else none
  | .workerAwaited =>
    if s.main = .awaiting ∧ s.worker = .returned then some { s with main := .closing } else none
  | .loadExit =>
    if s.worker = .loopHead then
      some { s with worker := if s.exit then .leaving else .selecting }
    else none
  | .recv =>
    match s.worker, s.queue with
    | .selecting, bytes :: queue =>
      some { s with worker := .loopHead, queue, handed := s.handed ++ [bytes] }
    | _, _ => none
  | .channelClosed =>
    if s.worker = .selecting ∧ s.queue = [] ∧ s.channelOpen = false then
      some { s with worker := .leaving }
    else none
  | .connectionClosed =>
    if s.worker = .selecting ∧ s.queue = [] ∧ s.connected = false then
      some { s with worker := .leaving }
    else none
  | .returns => if s.worker = .leaving then some { s with worker := .returned, queue := [] } else none

/-- Every way in which a step can go, with what it needs. -/
inductive Moves (s : State) : Event → State → Prop
  | refused (hrun : holder ∈ s.holders) (hw : s.worker = .returned) : Moves s (.submit holder bytes) s
  | accepted (hrun : holder ∈ s.holders) (hw : s.worker ≠ .returned) :
    Moves s (.submit holder bytes)
      { s with queue := s.queue ++ [bytes], accepted := s.accepted ++ [bytes] }
  | spawnsDeadline (hrun : .curveSub ∈ s.holders) :
    Moves s .spawnsDeadline { s with holders := .deadline :: s.holders }
  | ends (hrun : holder ∈ s.holders) :
    Moves s (.ends holder) { s with holders := s.holders.erase holder }
  | connectionLost : Moves s .connectionLost { s with connected := false }
  | ctrlC (hm : s.main = .running) : Moves s .ctrlC { s with main := .exitStored, exit := true }
  | joined (hm : s.main = .exitStored) (hr : .receiver ∉ s.holders) :
    Moves s .joined { s with main := .joined }
  | shutdown (hm : s.main = .joined) :
    Moves s .shutdown { s with main := .awaiting, acceptedAtShutdown := some s.accepted.length }
  | workerAwaited (hm : s.main = .awaiting) (hw : s.worker = .returned) :
    Moves s .workerAwaited { s with main := .closing }
  | exitSeen (hw : s.worker = .loopHead) (hexit : s.exit = true) :
    Moves s .loadExit { s with worker := .leaving }
  | noExit (hw : s.worker = .loopHead) (hexit : s.exit = false) :
    Moves s .loadExit { s with worker := .selecting }
  | recv (hw : s.worker = .selecting) (hq : s.queue = bytes :: queue) :
    Moves s .recv { s with worker := .loopHead, queue, handed := s.handed ++ [bytes] }
  | channelClosed (hw : s.worker = .selecting) (hq : s.queue = []) (ho : s.channelOpen = false) :
    Moves s .channelClosed { s with worker := .leaving }
  | connectionClosed (hw : s.worker = .selecting) (hq : s.queue = []) (hc : s.connected = false) :
    Moves s .connectionClosed { s with worker := .leaving }
  | returns (hw : s.worker = .leaving) : Moves s .returns { s with worker := .returned, queue := [] }

theorem moves_of_step (h : step s e = some s') : Moves s e s' := by
  cases e with
  | submit holder bytes =>
    simp only [step] at h
    split at h
    · cases h
    · rename_i hrun
      split at h
      · rename_i hw
        cases h
        exact .refused (not_not.1 hrun) hw
      · rename_i hw
        cases h
        exact .accepted (not_not.1 hrun) hw
  | spawnsDeadline =>
    obtain ⟨hrun, heq⟩ := Option.ite_none_right_eq_some.1 h
    cases heq
    exact .spawnsDeadline hrun
  | ends holder =>
    obtain ⟨hrun, heq⟩ := Option.ite_none_right_eq_some.1 h
    cases heq
    exact .ends hrun
  | connectionLost =>
    cases h
    exact .connectionLost
  | ctrlC =>
    obtain ⟨hm, heq⟩ := Option.ite_none_right_eq_some.1 h
    cases heq
    exact .ctrlC hm
  | joined =>
    obtain ⟨⟨hm, hr⟩, heq⟩ := Option.ite_none_right_eq_some.1 h
    cases heq
    exact .joined hm hr
  | shutdown =>
    obtain ⟨hm, heq⟩ := Option.ite_none_right_eq_some.1 h
    cases heq
    exact .shutdown hm
  | workerAwaited =>
    obtain ⟨⟨hm, hw⟩, heq⟩ := Option.ite_none_right_eq_some.1 h
    cases heq
    exact .workerAwaited hm hw
  | loadExit =>
    obtain ⟨hw, heq⟩ := Option.ite_none_right_eq_some.1 h
    cases heq
    by_cases hexit : s.exit = true
    · rw [if_pos hexit]
      exact .exitSeen hw hexit
    · rw [if_neg hexit]
      exact .noExit hw (Bool.eq_false_iff.2 hexit)
  | recv =>
    simp only [step] at h
    split at h
    · rename_i bytes queue hw hq
      cases h
      exact .recv hw hq
    · cases h
  | channelClosed =>
    obtain ⟨⟨hw, hq, ho⟩, heq⟩ := Option.ite_none_right_eq_some.1 h
    cases heq
    exact .channelClosed hw hq ho
  | connectionClosed =>
    obtain ⟨⟨hw, hq, hc⟩, heq⟩ := Option.ite_none_right_eq_some.1 h
    cases heq
    exact .connectionClosed hw hq hc
  | returns =>
    obtain ⟨hw, heq⟩ := Option.ite_none_right_eq_some.1 h
    cases heq
    exact .returns hw

end TokenPumper.Node1
