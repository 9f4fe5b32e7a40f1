import TokenPumper.Senders.RunWorker

namespace TokenPumper.Node1
open Machine
set_option autoImplicit true

/-- How many submissions were accepted before `shutdown` was called: all of them, until it is. -/
def State.promisedCount (s : State) : Nat :=
  s.acceptedAtShutdown.getD s.accepted.length

def State.promised (s : State) : List (List UInt8) :=
  s.accepted.take s.promisedCount

structure Accounts (s : State) : Prop where
  queued : s.worker ≠ .returned → s.accepted = s.handed ++ s.queue
  inOrder : s.handed <+: s.accepted
  atShutdown : s.promisedCount ≤ s.accepted.length
  called : s.acceptedAtShutdown.isSome → s.main = .awaiting ∨ s.main = .closing

theorem Accounts.init : Accounts (.init curveSub) where
  queued _ := rfl
  inOrder := List.nil_prefix
  atShutdown := Nat.le_refl _
  called h := absurd h Bool.false_ne_true

theorem Accounts.not_called (h : Accounts s) (hm : s.main ≠ .awaiting) (hm' : s.main ≠ .closing) :
    s.acceptedAtShutdown = none := by
  rw [← Option.not_isSome_iff_eq_none]
  intro hsome
  cases h.called hsome with
  | inl h => exact hm h
  | inr h => exact hm' h

theorem Accounts.kept (h : Accounts s) (hm : Moves s e s') : Accounts s' := by
  cases hm with
  | refused => exact h
  | @accepted holder bytes hrun hw =>
    have hlen : s.accepted.length ≤ (s.accepted ++ [bytes]).length := by simp
    constructor
    · intro _
      rw [h.queued hw, List.append_assoc]
    · exact h.inOrder.trans (List.prefix_append ..)
    · have hold := h.atShutdown
      simp only [State.promisedCount] at hold ⊢
      cases hc : s.acceptedAtShutdown with
      | none => exact Nat.le_refl _
      | some n =>
        rw [hc] at hold
        exact hold.trans hlen
    · exact h.called
  | spawnsDeadline | ends | connectionLost => exact ⟨h.queued, h.inOrder, h.atShutdown, h.called⟩
  | ctrlC hm | joined hm =>
    have hnone := h.not_called (by simp [hm]) (by simp [hm])
    exact ⟨h.queued, h.inOrder, h.atShutdown, by simp [hnone]⟩
  | shutdown hm => exact ⟨h.queued, h.inOrder, Nat.le_refl _, fun _ => .inl rfl⟩
  | workerAwaited hm hw => exact ⟨h.queued, h.inOrder, h.atShutdown, fun _ => .inr rfl⟩
  | exitSeen hw | noExit hw | channelClosed hw | connectionClosed hw =>
    constructor
    · intro _
      exact h.queued (by simp [hw])
    · exact h.inOrder
    · exact h.atShutdown
    · exact h.called
  | @recv bytes queue hw hq =>
    have hqueued := h.queued (by simp [hw])
    rw [hq, List.append_cons] at hqueued
    constructor
    · intro _
      exact hqueued
    · rw [hqueued]
      exact List.prefix_append ..
    · exact h.atShutdown
    · exact h.called
  | returns hw => exact ⟨fun hne => absurd rfl hne, h.inOrder, h.atShutdown, h.called⟩

theorem Accounts.of_run (h : run step (.init curveSub) es = some s) : Accounts s :=
  run_invariant Accounts (fun h hstep => h.kept (moves_of_step hstep)) .init h

theorem Accounts.promised_prefix_iff (h : Accounts s) :
    s.promised <+: s.handed ↔ s.promisedCount ≤ s.handed.length := by
  have hlen : s.promised.length = s.promisedCount := by
    rw [State.promised, List.length_take, Nat.min_eq_left h.atShutdown]
  constructor
  · intro hpre
    rw [← hlen]
    exact hpre.length_le
  · intro hle
    rw [← hlen] at hle
    exact List.prefix_of_prefix_length_le (List.take_prefix ..) h.inOrder hle

/-- The worker is past its last `recv`. -/
def State.past (s : State) : Prop :=
  s.worker = .leaving ∨ s.worker = .returned

theorem Moves.past (hm : Moves s e s') (hp : s.past) : s'.past ∧ s'.handed = s.handed := by
  cases hm with
  | exitSeen hw | noExit hw | recv hw | channelClosed hw | connectionClosed hw =>
    simp [State.past, hw] at hp
  | returns => exact ⟨.inr rfl, rfl⟩
  | refused | accepted | spawnsDeadline | ends | connectionLost | ctrlC | joined | shutdown
  | workerAwaited => exact ⟨hp, rfl⟩

/-- The worker looks at a set flag only when it has taken all that was promised, and nothing more
is promised between its leaving and its end. -/
def Drains (s : State) : Event → Prop
  | .loadExit => s.exit = true → s.promisedCount ≤ s.handed.length
  | .submit .. => s.worker = .leaving → s.acceptedAtShutdown.isSome = true
  | _ => True

theorem Accounts.promisedCount_shutdown (h : Accounts s) (hm : s.main = .joined) :
    s.promisedCount = s.accepted.length := by
  rw [State.promisedCount, h.not_called (by simp [hm]) (by simp [hm]), Option.getD_none]

theorem Accounts.promisedCount_le (h : Accounts s) (hm : Moves s e s') :
    s.promisedCount ≤ s'.promisedCount := by
  cases hm with
  | shutdown hm => exact (h.promisedCount_shutdown hm).le
  | accepted hrun hw =>
    simp only [State.promisedCount]
    cases s.acceptedAtShutdown with
    | none => simp
    | some n => exact Nat.le_refl n
  | refused | spawnsDeadline | ends | connectionLost | ctrlC | joined | workerAwaited | exitSeen
  | noExit | recv | channelClosed | connectionClosed | returns => exact Nat.le_refl _

theorem Accounts.promisedCount_eq (h : Accounts s) (hm : Moves s e s') (hfine : Drains s e)
    (hp : s.past) : s'.promisedCount = s.promisedCount := by
  cases hm with
  | shutdown hm => exact (h.promisedCount_shutdown hm).symm
  | accepted hrun hw =>
    obtain ⟨n, hn⟩ := Option.isSome_iff_exists.1 (hfine (hp.resolve_right hw))
    simp [State.promisedCount, hn]
  | refused | spawnsDeadline | ends | connectionLost | ctrlC | joined | workerAwaited | exitSeen
  | noExit | recv | channelClosed | connectionClosed | returns => rfl

/-- All that was promised is handed on when the worker leaves. -/
structure Settled (s : State) : Prop extends Accounts s where
  connected : s.connected = true
  all : s.past → s.promisedCount ≤ s.handed.length

theorem Settled.kept (h : Settled s) (hfine : Drains s e) (he : e ≠ .connectionLost)
    (hm : Moves s e s') : Settled s' := by
  have hacc := h.toAccounts.kept hm
  have hconn : s'.connected = true := by
    cases hm with
    | connectionLost => exact absurd rfl he
    | refused | accepted | spawnsDeadline | ends | ctrlC | joined | shutdown | workerAwaited
    | exitSeen | noExit | recv | channelClosed | connectionClosed | returns => exact h.connected
  by_cases hp : s.past
  · have hall := h.all hp
    rw [← h.promisedCount_eq hm hfine hp, ← (hm.past hp).2] at hall
    exact ⟨hacc, hconn, fun _ => hall⟩
  · refine ⟨hacc, hconn, fun hp' => ?_⟩
    -- The worker leaves by this step.
    cases hm with
    | exitSeen hw hexit => exact hfine hexit
    | channelClosed hw hq ho =>
      have hqueued := h.queued (by simp [hw])
      rw [hq, List.append_nil] at hqueued
      rw [← hqueued]
      exact h.atShutdown
    | connectionClosed hw hq hc => exact absurd (hc.symm.trans h.connected) Bool.false_ne_true
    | returns hw => exact absurd (.inl hw) hp
    | noExit | recv => simp [State.past] at hp'
    | refused | accepted | spawnsDeadline | ends | connectionLost | ctrlC | joined | shutdown
    | workerAwaited => exact absurd hp' hp

/-- Something promised was left behind. -/
structure Missed (s : State) : Prop extends Accounts s where
  past : s.past
  left : s.handed.length < s.promisedCount

theorem Missed.kept (h : Missed s) (hm : Moves s e s') : Missed s' := by
  obtain ⟨hp, hhanded⟩ := hm.past h.past
  refine ⟨h.toAccounts.kept hm, hp, ?_⟩
  rw [hhanded]
  exact h.left.trans_le (h.promisedCount_le hm)

theorem Missed.of_not_drains (h : Accounts s) (hnot : ¬ Drains s e) (hm : Moves s e s') :
    Missed s' := by
  have hacc := h.kept hm
  cases hm with
  | exitSeen hw hexit =>
    simp only [Drains, hexit, forall_const, not_le] at hnot
    exact ⟨hacc, .inl rfl, hnot⟩
  | noExit hw hexit => simp [Drains, hexit] at hnot
  | refused hrun hw => simp [Drains, hw] at hnot
  | accepted hrun hw =>
    simp only [Drains, Classical.not_imp, Bool.not_eq_true, Option.isSome_eq_false_iff,
      Option.isNone_iff_eq_none] at hnot
    obtain ⟨hleaving, hnone⟩ := hnot
    refine ⟨hacc, .inl hleaving, ?_⟩
    have hle := h.inOrder.length_le
    simp only [State.promisedCount, hnone, Option.getD_none, List.length_append,
      List.length_singleton]
    omega
  | spawnsDeadline | ends | connectionLost | ctrlC | joined | shutdown | workerAwaited | recv
  | channelClosed | connectionClosed | returns => exact absurd trivial hnot

/-- While the connection stays open, a worker that has ended has handed on what was accepted before
`shutdown` was called, each of them once and in order, exactly if it never saw the flag set with
some of them still in its queue and none was accepted after it had left its loop. -/
theorem drained_iff (hrun : run step (.init curveSub) es = some s) (hconn : .connectionLost ∉ es)
    (hret : s.worker = .returned) :
    (s.promised <+: s.handed ∧ s.handed <+: s.accepted) ↔
      Along step Drains (.init curveSub) es := by
  have hacc : Accounts s := .of_run hrun
  constructor
  · intro h
    obtain ⟨hpre, -⟩ := h
    by_contra hnot
    obtain ⟨before, e, after, s₁, s₂, hbefore, hmiss, hstep, hafter⟩ :=
      exists_of_not_along hnot hrun
    have h₂ := Missed.of_not_drains (.of_run hbefore) hmiss (moves_of_step hstep)
    have h := run_invariant Missed (fun h hstep => h.kept (moves_of_step hstep)) h₂ hafter
    exact absurd (hacc.promised_prefix_iff.1 hpre) (Nat.not_le.2 h.left)
  · intro hfine
    have hopen : ∀ e ∈ es, e ≠ .connectionLost := fun e he heq => hconn (heq ▸ he)
    have hall := hfine.and hopen
    have hinit : Settled (.init curveSub) := ⟨.init, rfl, by simp [State.past, State.init]⟩
    have h := run_invariant_along Settled
      (fun h hfine hstep => h.kept hfine.1 hfine.2 (moves_of_step hstep)) hall hinit hrun
    exact ⟨hacc.promised_prefix_iff.2 (h.all (.inr hret)), hacc.inOrder⟩

def drainedRun : List Event :=
  [.submit .receiver [1], .loadExit, .recv, .loadExit, .submit .receiver [2], .recv, .ctrlC,
    .loadExit, .returns]

def drainedEnd : State :=
  { State.init true with
    worker := .returned, main := .exitStored, exit := true
    accepted := [[1], [2]], handed := [[1], [2]] }

theorem drained_iff_sample :
    (drainedEnd.promised <+: drainedEnd.handed ∧ drainedEnd.handed <+: drainedEnd.accepted) ↔
      Along step Drains (.init true) drainedRun := by
  have hrun : run step (.init true) drainedRun = some drainedEnd := rfl
  exact drained_iff hrun (by decide) rfl

/-- A submission is accepted, the flag is set before the worker has looked at its queue, and the
worker leaves with the submission in it. -/
theorem shutdown_loses_submission :
    ¬ ∀ curveSub es s, run step (.init curveSub) es = some s → .connectionLost ∉ es →
      s.worker = .returned → s.promised <+: s.handed ∧ s.handed <+: s.accepted := by
  intro hall
  have hlost := hall false [.submit .receiver [1], .ctrlC, .loadExit, .returns] _ rfl
    (by decide) rfl
  exact absurd hlost.1 (by decide)

end TokenPumper.Node1
