import TokenPumper.Senders.RunWorker

namespace TokenPumper.Node1
open Machine
set_option autoImplicit true

/-- In the `select!` with nothing in the queue, while a clone of the submitter is alive and the
connection is healthy. -/
structure Parked (s : State) : Prop where
  selecting : s.worker = .selecting
  empty : s.queue = []
  channelOpen : s.channelOpen = true
  connected : s.connected = true

def CanFinish (s : State) : Prop :=
  ∃ es s', (∀ e ∈ es, e.isWorker = true) ∧ run step s es = some s' ∧ s'.worker = .returned

theorem Parked.stuck (h : Parked s) (he : e.isWorker = true) : step s e = none := by
  rw [Option.eq_none_iff_forall_ne_some]
  intro s' hstep
  cases moves_of_step hstep with
  | exitSeen hw | noExit hw | returns hw => exact absurd (hw.symm.trans h.selecting) (by decide)
  | recv hw hq => exact absurd (hq.symm.trans h.empty) (List.cons_ne_nil _ _)
  | channelClosed hw hq ho => exact absurd (ho.symm.trans h.channelOpen) (by decide)
  | connectionClosed hw hq hc => exact absurd (hc.symm.trans h.connected) (by decide)
  | refused | accepted | spawnsDeadline | ends | connectionLost | ctrlC | joined | shutdown
  | workerAwaited => cases he

theorem Parked.cannot_finish (h : Parked s) : ¬ CanFinish s := by
  intro ⟨es, s', hworker, hrun, hret⟩
  cases es with
  | nil =>
    obtain rfl := Option.some.inj hrun
    exact absurd (h.selecting.symm.trans hret) (by decide)
  | cons e es =>
    obtain ⟨s₁, hstep, -⟩ := Option.bind_eq_some_iff.1 hrun
    rw [h.stuck (hworker e (List.mem_cons_self ..))] at hstep
    cases hstep

/-- The flag is set and the worker has something to wake it. -/
structure Leaves (s : State) : Prop where
  exit : s.exit = true
  woken : ¬ Parked s

theorem Leaves.can_finish (h : Leaves s) : CanFinish s := by
  cases hw : s.worker with
  | loopHead =>
    apply Exists.intro [.loadExit, .returns]
    simp [run, step, Event.isWorker, hw, h.exit]
  | selecting =>
    cases hq : s.queue with
    | cons bytes queue =>
      apply Exists.intro [.recv, .loadExit, .returns]
      simp [run, step, Event.isWorker, hw, hq, h.exit]
    | nil =>
      cases ho : s.channelOpen with
      | false =>
        apply Exists.intro [.channelClosed, .returns]
        simp [run, step, Event.isWorker, hw, hq, ho]
      | true =>
        cases hc : s.connected with
        | false =>
          apply Exists.intro [.connectionClosed, .returns]
          simp [run, step, Event.isWorker, hw, hq, hc]
        | true => exact absurd ⟨hw, hq, ho, hc⟩ h.woken
  | leaving =>
    apply Exists.intro [.returns]
    simp [run, step, Event.isWorker, hw]
  | returned => exact ⟨[], s, by simp, rfl, hw⟩

theorem Leaves.kept (h : Leaves s) (hm : Moves s e s') : Leaves s' := by
  -- A step can only have parked the worker if it closed the way by which it would have left.
  have hopen (hp : s'.worker = s.worker ∧ s'.queue = s.queue ∧ s'.connected = s.connected)
      (ho : s.channelOpen = true) : ¬ Parked s' := by
    intro hpark
    exact h.woken ⟨hp.1 ▸ hpark.selecting, hp.2.1 ▸ hpark.empty, ho, hp.2.2 ▸ hpark.connected⟩
  cases hm with
  | refused hrun hw => exact h
  | accepted hrun hw =>
    constructor
    · exact h.exit
    · intro hpark
      exact absurd hpark.empty (List.append_ne_nil_of_right_ne_nil _ (List.cons_ne_nil _ _))
  | spawnsDeadline hrun => exact ⟨h.exit, hopen ⟨rfl, rfl, rfl⟩ (channelOpen_of_mem s hrun)⟩
  | ends hrun => exact ⟨h.exit, hopen ⟨rfl, rfl, rfl⟩ (channelOpen_of_mem s hrun)⟩
  | connectionLost =>
    constructor
    · exact h.exit
    · intro hpark
      exact Bool.false_ne_true hpark.connected
  | ctrlC hm => exact ⟨rfl, hopen ⟨rfl, rfl, rfl⟩ (channelOpen_of_main s (by simp [hm]))⟩
  | joined hm hr => exact ⟨h.exit, hopen ⟨rfl, rfl, rfl⟩ (channelOpen_of_main s (by simp [hm]))⟩
  | shutdown hm => exact ⟨h.exit, hopen ⟨rfl, rfl, rfl⟩ (channelOpen_of_main s (by simp [hm]))⟩
  | workerAwaited hm hw =>
    exact ⟨h.exit, hopen ⟨rfl, rfl, rfl⟩ (channelOpen_of_main s (by simp [hm]))⟩
  | noExit hw hexit => exact absurd (hexit.symm.trans h.exit) (by decide)
  | exitSeen | recv | channelClosed | connectionClosed | returns =>
    constructor
    · exact h.exit
    · intro hpark
      cases hpark.selecting

/-- `main` sets the flag before it goes on. -/
def ExitFirst (s : State) : Prop :=
  s.main ≠ .running → s.exit = true

theorem ExitFirst.kept (h : ExitFirst s) (hm : Moves s e s') : ExitFirst s' := by
  cases hm with
  | ctrlC => exact fun _ => rfl
  | joined hm | shutdown hm | workerAwaited hm =>
    intro _
    exact h (by simp [hm])
  | refused | accepted | spawnsDeadline | ends | connectionLost | exitSeen | noExit | recv
  | channelClosed | connectionClosed | returns => exact h

/-- Once `shutdown` waits for the worker, the worker can come to its end in every state reached if
it was not parked when `shutdown` was called, and cannot do so if it was: `shutdown` drops a clone
of the submitter, but `main` keeps another one. -/
theorem shutdown_finishes_iff (hbefore : run step (.init curveSub) before = some s₁)
    (hcall : step s₁ .shutdown = some s₂) :
    (∀ after s, run step s₂ after = some s → s.main = .awaiting → CanFinish s) ↔ ¬ Parked s₁ := by
  have hexit : ExitFirst s₁ := by
    apply run_invariant ExitFirst (fun h hstep => h.kept (moves_of_step hstep)) _ hbefore
    exact fun hne => absurd rfl hne
  cases moves_of_step hcall with
  | shutdown hm =>
    constructor
    · intro hall hpark
      have hfin := hall [] _ rfl rfl
      have hpark₂ : Parked { s₁ with
          main := .awaiting, acceptedAtShutdown := some s₁.accepted.length } :=
        ⟨hpark.selecting, hpark.empty, channelOpen_of_main _ (by simp), hpark.connected⟩
      exact hpark₂.cannot_finish hfin
    · intro hwoken after s hafter _
      have h₁ : Leaves s₁ := ⟨hexit (by simp [hm]), hwoken⟩
      have h₂ := h₁.kept (moves_of_step hcall)
      have h := run_invariant Leaves (fun h hstep => h.kept (moves_of_step hstep)) h₂ hafter
      exact h.can_finish

def idleShutdown : List Event :=
  [.loadExit, .ctrlC, .ends .receiver, .joined]

theorem shutdown_finishes_iff_sample :
    (∀ after s, run step
      { State.init false with
        worker := .selecting, main := .awaiting, exit := true, holders := []
        acceptedAtShutdown := some 0 } after = some s → s.main = .awaiting → CanFinish s) ↔
      ¬ Parked { State.init false with
        worker := .selecting, main := .joined, exit := true, holders := [] } := by
  have hbefore : run step (.init false) idleShutdown = some { State.init false with
    worker := .selecting, main := .joined, exit := true, holders := [] } := rfl
  exact shutdown_finishes_iff hbefore rfl

/-- The worker waits for a submission, nothing more is submitted, and `main` waits for the
worker. -/
theorem shutdown_can_be_stuck :
    ¬ ∀ curveSub es s, run step (.init curveSub) es = some s → s.main = .awaiting →
      CanFinish s := by
  intro hall
  have hfin := hall false (idleShutdown ++ [.shutdown]) _ rfl rfl
  apply Parked.cannot_finish _ hfin
  exact ⟨rfl, rfl, rfl, rfl⟩

end TokenPumper.Node1
