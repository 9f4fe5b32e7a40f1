import Mathlib.Tactic.Common

namespace Ticker
set_option autoImplicit true

/-- Where a tick puts the next deadline: not before a period has passed since the deadline that it
has met, and not later than a period from now. -/
structure Policy where
  next : Nat → Nat → Nat → Nat
  le_next : ∀ deadline now period, deadline ≤ now → deadline + period ≤ next deadline now period
  next_le : ∀ deadline now period, deadline ≤ now → next deadline now period ≤ now + period

def Policy.burst : Policy where
  next deadline _ period := deadline + period
  le_next _ _ _ _ := Nat.le_refl _
  next_le _ _ _ h := Nat.add_le_add_right h _

/-- After a tick that is late by more than the grace the next one is a period away. -/
def Policy.delay (grace : Nat) : Policy where
  next deadline now period := if deadline + grace < now then now + period else deadline + period
  le_next deadline now period h := by
    split
    · exact Nat.add_le_add_right h _
    · exact Nat.le_refl _
  next_le deadline now period h := by
    split
    · exact Nat.le_refl _
    · exact Nat.add_le_add_right h _

/-- Ticks do not crowd: a tick that is late by more than the grace is not made up for. -/
def Policy.Spaced (policy : Policy) (grace : Nat) : Prop :=
  ∀ deadline now period, deadline ≤ now → now + period ≤ policy.next deadline now period + grace

theorem Policy.delay_spaced (grace : Nat) : (Policy.delay grace).Spaced grace := by
  intro deadline now period h
  simp only [delay]
  split <;> omega

/-- A loop between two turns; the clock is where the last turn has ended. -/
structure Loop where
  deadline : Nat
  period : Nat
  clock : Nat
deriving DecidableEq, Repr

/-- When the tick of a turn came, and when its work was done. -/
structure Turn where
  ticked : Nat
  finished : Nat
deriving DecidableEq, Repr

namespace Loop
variable {policy : Policy} {l : Loop} {t : Turn}

def starting (now period : Nat) : Loop := ⟨now, period, now⟩

/-- The tick comes after the last turn and not before the deadline. -/
def Takes (l : Loop) (t : Turn) : Prop :=
  l.clock ≤ t.ticked ∧ l.deadline ≤ t.ticked ∧ t.ticked ≤ t.finished

instance : Decidable (l.Takes t) := inferInstanceAs (Decidable (_ ∧ _ ∧ _))

def after (policy : Policy) (l : Loop) (t : Turn) : Loop where
  deadline := policy.next l.deadline t.ticked l.period
  period := l.period
  clock := t.finished

/-- The timer is replaced by one of another period, whose first tick is a period away. -/
def retune (l : Loop) (period : Nat) : Loop := ⟨l.clock + period, period, l.clock⟩

@[simp] theorem retune_deadline (period : Nat) : (l.retune period).deadline = l.clock + period := rfl

@[simp] theorem retune_period (period : Nat) : (l.retune period).period = period := rfl

@[simp] theorem retune_clock (period : Nat) : (l.retune period).clock = l.clock := rfl

/-- The tick is late by no more than the slack, and the work takes no longer than the latency. -/
structure Prompt (slack latency : Nat) (l : Loop) (t : Turn) : Prop where
  ticked : t.ticked ≤ max l.deadline l.clock + slack
  finished : t.finished ≤ t.ticked + latency

def due (slack latency : Nat) (l : Loop) : Nat := max l.deadline l.clock + slack + latency

/-- Nothing is later than if a turn had begun at this time. -/
structure Since (latency : Nat) (begun : Nat) (l : Loop) : Prop where
  deadline : l.deadline ≤ begun + l.period
  clock : l.clock ≤ begun + latency

theorem Since.later (h : l.Since latency begun) (hle : begun ≤ begun') : l.Since latency begun' :=
  ⟨Nat.le_trans h.deadline (Nat.add_le_add_right hle _),
    Nat.le_trans h.clock (Nat.add_le_add_right hle _)⟩

theorem since_after (htakes : l.Takes t) (hprompt : l.Prompt slack latency t) :
    (l.after policy t).Since latency t.ticked where
  deadline := policy.next_le _ _ _ htakes.2.1
  clock := hprompt.finished

theorem Since.due_le (h : l.Since latency begun) :
    l.due slack latency ≤ begun + (max l.period latency + slack) + latency := by
  have hdeadline := h.deadline
  have hclock := h.clock
  have hmax : max l.deadline l.clock ≤ begun + max l.period latency := by
    rw [Nat.max_le]
    exact ⟨by omega, by omega⟩
  rw [due]
  omega

theorem Since.ticked_le (h : l.Since latency begun) (hprompt : l.Prompt slack latency t) :
    t.ticked ≤ begun + (max l.period latency + slack) := by
  have hdeadline := h.deadline
  have hclock := h.clock
  have hticked := hprompt.ticked
  omega

end Loop

end Ticker
