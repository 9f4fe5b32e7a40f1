import TokenPumper.Lib.Machine
import TokenPumper.Lib.Ticker
import Mathlib.Data.List.Chain

namespace TokenPumper.JitoAuth.Shredstream
open Machine Ticker
set_option autoImplicit true

def second : Nat := 1000000000

def millisecond : Nat := 1000000

structure Socket where
  ip : String
  port : Int64
deriving DecidableEq, Repr

structure Heartbeat where
  socket : Option Socket
  regions : List String
deriving DecidableEq, Repr

/-- The address is given as its text. -/
structure HeartbeatConfig where
  advertiseIp : String
  advertisePort : UInt16
  regions : List String

def HeartbeatConfig.beat (cfg : HeartbeatConfig) : Heartbeat where
  socket := some ⟨cfg.advertiseIp, Int64.ofNat cfg.advertisePort.toNat⟩
  regions := cfg.regions

structure HeartbeatStats where
  ok : UInt64
  failed : UInt64
deriving DecidableEq, Repr

/-- The code of a status that is an error; the loop tells one of them from the others. -/
inductive Code
  | invalidArgument
  | other (code : Nat)
deriving DecidableEq, Repr

/-- What one iteration finds outside; a heartbeat that goes through is answered with `ttl_ms`. -/
structure Round where
  exit : Bool
  turn : Turn
  reply : Except Code UInt32

/-- What the loop has between two iterations. The period is the ticker's. -/
structure Heartbeats where
  loop : Loop
  stats : HeartbeatStats
deriving DecidableEq, Repr

/-- A heartbeat, when it was sent and answered, and the period behind it. -/
structure Sent where
  beat : Heartbeat
  turn : Turn
  reply : Except Code UInt32
  period : Nat

def start (now : Nat) : Heartbeats := ⟨Loop.starting now second, ⟨0, 0⟩⟩

def desired (ttlMs : UInt32) : Nat := ttlMs.toNat * millisecond / 3

def retune (loop : Loop) (ttlMs : UInt32) : Loop :=
  if desired ttlMs ≠ 0 ∧ desired ttlMs ≠ loop.period then loop.retune (desired ttlMs) else loop

/-- What is left of the task when the answer is in, if it goes on. -/
def answered (s : Heartbeats) : Except Code UInt32 → Option Heartbeats
  | .ok ttlMs => some ⟨retune s.loop ttlMs, { s.stats with ok := s.stats.ok + 1 }⟩
  | .error .invalidArgument => none
  | .error (.other _) => some { s with stats := { s.stats with failed := s.stats.failed + 1 } }

def tune (period : Nat) : Except Code UInt32 → Nat
  | .ok ttlMs => if desired ttlMs = 0 then period else desired ttlMs
  | .error _ => period

/-- The task has ended where there is no state. -/
def step (policy : Policy) (cfg : HeartbeatConfig) (s : Option Heartbeats) (r : Round) :
    Option (Option Heartbeats × List Sent) := do
  let s ← s
  if r.exit then pure (none, [])
  else if s.loop.Takes r.turn then
    pure (answered { s with loop := s.loop.after policy r.turn } r.reply,
      [⟨cfg.beat, r.turn, r.reply, tune s.loop.period r.reply⟩])
  else none

def heartbeats (policy : Policy) (cfg : HeartbeatConfig) (now : Nat) (rounds : List Round) :
    List Sent :=
  (outputs (step policy cfg) (some (start now)) rounds).flatten

theorem retune_period (loop : Loop) (ttlMs : UInt32) :
    (retune loop ttlMs).period = tune loop.period (.ok ttlMs) := by
  rw [retune, tune]
  by_cases hzero : desired ttlMs = 0
  · rw [if_pos hzero, if_neg fun h => h.1 hzero]
  · rw [if_neg hzero]
    split
    · rfl
    · rename_i hsame
      by_contra hne
      exact hsame ⟨hzero, fun h => hne h.symm⟩

theorem tune_pos (h : 0 < period) (reply : Except Code UInt32) : 0 < tune period reply := by
  cases reply with
  | error => exact h
  | ok ttlMs =>
    rw [tune]
    split
    · exact h
    · rename_i hne
      exact Nat.pos_of_ne_zero hne

section Cadence
variable {policy : Policy} {cfg : HeartbeatConfig} {grace slack latency : Nat}

/-- When the next heartbeat may come: not much sooner than a period, and not much later. -/
structure Follows (grace latency ticked period : Nat) (loop : Loop) : Prop where
  kept : loop.period = period
  soonest : ticked + period ≤ loop.deadline + grace
  latest : loop.deadline ≤ ticked + latency + period
  clock : ticked ≤ loop.clock ∧ loop.clock ≤ ticked + latency

theorem follows_after {loop : Loop} {t : Turn} (hspaced : policy.Spaced grace)
    (htakes : loop.Takes t) (hprompt : loop.Prompt slack latency t) :
    Follows grace latency t.ticked loop.period (loop.after policy t) := by
  have hsince : (loop.after policy t).Since latency t.ticked := Loop.since_after htakes hprompt
  have hdeadline : (loop.after policy t).deadline ≤ t.ticked + loop.period := hsince.deadline
  constructor
  case kept => rfl
  case soonest => exact hspaced loop.deadline t.ticked loop.period htakes.2.1
  case latest => omega
  case clock => exact ⟨htakes.2.2, hsince.clock⟩

theorem Follows.retune {loop : Loop} (h : Follows grace latency ticked period loop)
    (ttlMs : UInt32) :
    Follows grace latency ticked (tune period (.ok ttlMs)) (retune loop ttlMs) := by
  obtain ⟨hafter, hclock⟩ := h.clock
  have hperiod := retune_period loop ttlMs
  rw [h.kept] at hperiod
  rw [Shredstream.retune] at hperiod ⊢
  split
  · rename_i hnew
    rw [if_pos hnew, Loop.retune_period] at hperiod
    rw [← hperiod]
    constructor
    case kept => rw [Loop.retune_period]
    case soonest =>
      rw [Loop.retune_deadline]
      omega
    case latest =>
      rw [Loop.retune_deadline]
      omega
    case clock =>
      rw [Loop.retune_clock]
      exact h.clock
  · rename_i hold
    rw [if_neg hold, h.kept] at hperiod
    rwa [← hperiod]

theorem follows_answered {s s' : Heartbeats} (h : Follows grace latency ticked period s.loop)
    (hreply : answered s reply = some s') :
    Follows grace latency ticked (tune period reply) s'.loop := by
  cases reply with
  | ok ttlMs =>
    obtain rfl := Option.some.inj hreply
    exact h.retune ttlMs
  | error code =>
    cases code with
    | invalidArgument => cases hreply
    | other code =>
      obtain rfl := Option.some.inj hreply
      exact h

structure Cadence (grace slack latency : Nat) (a b : Sent) : Prop where
  period : b.period = tune a.period b.reply
  soonest : a.turn.ticked + a.period ≤ b.turn.ticked + grace
  latest : b.turn.ticked ≤ a.turn.ticked + (a.period + latency + slack)
  answer : b.turn.finished ≤ b.turn.ticked + latency

theorem Follows.cadence {a : Sent} {loop : Loop} {t : Turn}
    (h : Follows grace latency a.turn.ticked a.period loop) (htakes : loop.Takes t)
    (hprompt : loop.Prompt slack latency t) (beat : Heartbeat) (reply : Except Code UInt32) :
    Cadence grace slack latency a ⟨beat, t, reply, tune loop.period reply⟩ := by
  obtain ⟨-, hdeadline, -⟩ := htakes
  obtain ⟨hperiod, hsoonest, hlatest, -, hclock⟩ := h
  have hticked := hprompt.ticked
  constructor
  case period => rw [hperiod]
  case soonest => exact Nat.le_trans hsoonest (Nat.add_le_add_right hdeadline grace)
  case latest =>
    change t.ticked ≤ _
    omega
  case answer => exact hprompt.finished

def Timely (slack latency : Nat) (s : Option Heartbeats) (r : Round) : Prop :=
  ∀ x ∈ s, r.exit = false → x.loop.Prompt slack latency r.turn

def next (policy : Policy) (cfg : HeartbeatConfig) (s : Option Heartbeats) (r : Round) :
    Option (Option Heartbeats) :=
  (step policy cfg s r).map Prod.fst

theorem step_cases {s : Heartbeats} {s' : Option Heartbeats}
    (h : step policy cfg (some s) r = some (s', out)) :
    (r.exit = true ∧ s' = none ∧ out = []) ∨
    (r.exit = false ∧ s.loop.Takes r.turn ∧
      s' = answered { s with loop := s.loop.after policy r.turn } r.reply ∧
      out = [⟨cfg.beat, r.turn, r.reply, tune s.loop.period r.reply⟩]) := by
  simp only [step, Option.bind_eq_bind, Option.bind_some] at h
  cases hexit : r.exit with
  | true =>
    rw [hexit, if_pos rfl] at h
    obtain ⟨rfl, rfl⟩ := Prod.mk.inj (Option.some.inj h)
    exact .inl ⟨rfl, rfl, rfl⟩
  | false =>
    rw [hexit, if_neg Bool.false_ne_true] at h
    split at h
    · rename_i htakes
      obtain ⟨rfl, rfl⟩ := Prod.mk.inj (Option.some.inj h)
      exact .inr ⟨rfl, htakes, rfl, rfl⟩
    · cases h

theorem outputs_ended (rounds : List Round) :
    (outputs (step policy cfg) none rounds).flatten = [] := by
  cases rounds <;> rfl

theorem isChain_outputs {a : Sent} {s' : Option Heartbeats} (hspaced : policy.Spaced grace)
    (hs : ∀ s ∈ s', Follows grace latency a.turn.ticked a.period s.loop)
    (htimely : Along (next policy cfg) (Timely slack latency) s' rounds) :
    (a :: (outputs (step policy cfg) s' rounds).flatten).IsChain
      (Cadence grace slack latency) := by
  induction rounds generalizing a s' with
  | nil => exact .singleton a
  | cons r rounds ih =>
    cases s' with
    | none =>
      rw [outputs_ended]
      exact .singleton a
    | some s =>
      have hfollows := hs s rfl
      obtain ⟨hr, hrest⟩ := htimely
      rw [outputs]
      cases hstep : step policy cfg (some s) r with
      | none => exact .singleton a
      | some res =>
        obtain ⟨s₁, out⟩ := res
        have hnext : next policy cfg (some s) r = some s₁ := by rw [next, hstep, Option.map_some]
        rcases step_cases hstep with ⟨-, rfl, rfl⟩ | ⟨hexit, htakes, rfl, rfl⟩
        · simp only [List.flatten_cons, outputs_ended, List.append_nil]
          exact .singleton a
        · have hprompt := hr s rfl hexit
          rw [List.flatten_cons, List.singleton_append, List.isChain_cons_cons]
          refine ⟨hfollows.cadence htakes hprompt cfg.beat r.reply, ih ?_ (hrest _ hnext)⟩
          intro s₂ hs₂
          exact follows_answered (follows_after hspaced htakes hprompt) hs₂

/-- The first heartbeat has the first answer's period or one second; the rest is in step with it. -/
theorem heartbeats_chain (hspaced : policy.Spaced grace) (now : Nat)
    (htimely : Along (next policy cfg) (Timely slack latency) (some (start now)) rounds) :
    (∀ a ∈ (heartbeats policy cfg now rounds).head?, a.period = tune second a.reply) ∧
      (heartbeats policy cfg now rounds).IsChain (Cadence grace slack latency) := by
  have hnone (out : List Sent) (h : out = []) :
      (∀ a ∈ out.head?, a.period = tune second a.reply) ∧
        out.IsChain (Cadence grace slack latency) := by
    rw [h]
    exact ⟨fun a ha => (nomatch ha), .nil⟩
  cases rounds with
  | nil => exact hnone _ rfl
  | cons r rounds =>
    obtain ⟨hr, hrest⟩ := htimely
    rw [heartbeats, outputs]
    cases hstep : step policy cfg (some (start now)) r with
    | none => exact hnone _ rfl
    | some res =>
      obtain ⟨s', out⟩ := res
      have hnext : next policy cfg (some (start now)) r = some s' := by
        rw [next, hstep, Option.map_some]
      rcases step_cases hstep with ⟨-, rfl, rfl⟩ | ⟨hexit, htakes, rfl, rfl⟩
      · exact hnone _ (by simp only [List.flatten_cons, outputs_ended, List.append_nil])
      · have hprompt := hr _ rfl hexit
        rw [List.flatten_cons, List.singleton_append]
        refine ⟨fun a ha => ?_, isChain_outputs hspaced ?_ (hrest _ hnext)⟩
        · obtain rfl := Option.some.inj ha
          rfl
        · intro s₂ hs₂
          exact follows_answered (follows_after hspaced htakes hprompt) hs₂

theorem Cadence.lost {a b : Sent} {mid post : List Sent}
    (h : (a :: (mid ++ b :: post)).IsChain (Cadence grace slack latency))
    (hlost : ∀ m ∈ mid, m.reply.isOk = false) :
    b.turn.finished ≤
      a.turn.ticked + (mid.length + 1) * (a.period + latency + slack) + latency := by
  induction mid generalizing a with
  | nil =>
    obtain ⟨hcadence, -⟩ := List.isChain_cons_cons.1 h
    have hlatest := hcadence.latest
    have hanswer := hcadence.answer
    rw [List.length_nil, Nat.zero_add, Nat.one_mul]
    omega
  | cons m mid ih =>
    obtain ⟨hcadence, hrest⟩ := List.isChain_cons_cons.1 h
    have hm : m.period = a.period := by
      rw [hcadence.period]
      cases hreply : m.reply with
      | ok ttlMs =>
        have hbad := hlost m List.mem_cons_self
        rw [hreply] at hbad
        cases hbad
      | error code => rfl
    have hafter := ih hrest fun m' hm' => hlost m' (List.mem_cons_of_mem m hm')
    have hlatest := hcadence.latest
    rw [hm] at hafter
    rw [List.length_cons, Nat.add_mul, Nat.one_mul]
    omega

theorem exists_tuned {beats : List Sent}
    (hhead : ∀ a ∈ beats.head?, ∃ p, 0 < p ∧ a.period = tune p a.reply)
    (h : beats.IsChain (Cadence grace slack latency)) :
    ∀ a ∈ beats, ∃ p, 0 < p ∧ a.period = tune p a.reply := by
  induction beats with
  | nil => exact fun a ha => absurd ha List.not_mem_nil
  | cons a beats ih =>
    obtain ⟨p, hp, ha⟩ := hhead a rfl
    have hpos : 0 < a.period := ha ▸ tune_pos hp a.reply
    obtain ⟨hcadence, hrest⟩ := List.isChain_cons.1 h
    rw [List.forall_mem_cons]
    exact ⟨⟨p, hp, ha⟩, ih (fun b hb => ⟨a.period, hpos, (hcadence b hb).period⟩) hrest⟩

/-- What the server sees of the heartbeats. -/
structure KeepsAlive (grace slack latency : Nat) (beats : List Sent) : Prop where
  /-- Until an answer asks for another, the period is a second. -/
  first : ∀ a ∈ beats.head?, a.period = tune second a.reply
  /-- No two heartbeats are closer to each other, or farther apart, than their period says. -/
  paced : beats.IsChain (Cadence grace slack latency)
  positive : ∀ a ∈ beats, 0 < a.period
  /-- Behind one that was answered, with others lost in between, the next comes in time. -/
  next : ∀ before a mid b post ttlMs, beats = before ++ a :: (mid ++ b :: post) →
    a.reply = .ok ttlMs → desired ttlMs ≠ 0 → (∀ m ∈ mid, m.reply.isOk = false) →
    b.turn.finished ≤ a.turn.ticked + (mid.length + 1) * (desired ttlMs + latency + slack) + latency
  /-- One lost heartbeat does not let the time to live run out. -/
  alive : ∀ before a mid b post ttlMs, beats = before ++ a :: (mid ++ b :: post) →
    a.reply = .ok ttlMs → desired ttlMs ≠ 0 → (∀ m ∈ mid, m.reply.isOk = false) →
    mid.length ≤ 1 → 9 * latency + 6 * slack ≤ ttlMs.toNat * millisecond →
    b.turn.finished ≤ a.turn.ticked + ttlMs.toNat * millisecond

theorem heartbeats_keep_alive (hspaced : policy.Spaced grace) (now : Nat)
    (htimely : Along (next policy cfg) (Timely slack latency) (some (start now)) rounds) :
    KeepsAlive grace slack latency (heartbeats policy cfg now rounds) := by
  obtain ⟨hhead, hchain⟩ := heartbeats_chain hspaced now htimely
  have htuned := exists_tuned (fun a ha => ⟨second, by decide, hhead a ha⟩) hchain
  have hnext (before : List Sent) (a : Sent) (mid : List Sent) (b : Sent) (post : List Sent)
      (ttlMs : UInt32)
      (hsplit : heartbeats policy cfg now rounds = before ++ a :: (mid ++ b :: post))
      (hreply : a.reply = .ok ttlMs) (hne : desired ttlMs ≠ 0)
      (hlost : ∀ m ∈ mid, m.reply.isOk = false) :
      b.turn.finished ≤
        a.turn.ticked + (mid.length + 1) * (desired ttlMs + latency + slack) + latency := by
    obtain ⟨p, -, hperiod⟩ := htuned a (by simp [hsplit])
    rw [hreply, tune, if_neg hne] at hperiod
    rw [hsplit] at hchain
    rw [← hperiod]
    exact Cadence.lost hchain.right_of_append hlost
  constructor
  case first => exact hhead
  case paced => exact hchain
  case positive =>
    intro a ha
    obtain ⟨p, hp, hperiod⟩ := htuned a ha
    exact hperiod ▸ tune_pos hp a.reply
  case next => exact hnext
  case alive =>
    intro before a mid b post ttlMs hsplit hreply hne hlost hmid hquick
    have hfinished := hnext before a mid b post ttlMs hsplit hreply hne hlost
    have hmany : (mid.length + 1) * (desired ttlMs + latency + slack) ≤
        2 * (desired ttlMs + latency + slack) := Nat.mul_le_mul_right _ (by omega)
    have hthird : desired ttlMs * 3 ≤ ttlMs.toNat * millisecond := Nat.div_mul_le_self _ 3
    omega

end Cadence

def sampleConfig : HeartbeatConfig := ⟨"203.0.113.7", 20000, ["frankfurt"]⟩

def sampleRound (ticked : Nat) (reply : Except Code UInt32) : Round where
  exit := false
  turn := ⟨ticked * millisecond, (ticked + 100) * millisecond⟩
  reply := reply

/-- Each answer takes 100 milliseconds. The first one asks for another cadence, and the second
heartbeat is lost. -/
def sampleRounds : List Round :=
  [sampleRound 0 (.ok 6000), sampleRound 2100 (.error (.other 14)), sampleRound 4100 (.ok 6000)]

theorem heartbeats_keep_alive_sample :
    (Policy.delay (5 * millisecond)).Spaced (5 * millisecond) ∧
      KeepsAlive (5 * millisecond) 0 (100 * millisecond)
        (heartbeats (.delay (5 * millisecond)) sampleConfig 0 sampleRounds) ∧
      (heartbeats (.delay (5 * millisecond)) sampleConfig 0 sampleRounds).length = 3 := by
  have hspaced := Policy.delay_spaced (5 * millisecond)
  refine ⟨hspaced, heartbeats_keep_alive hspaced 0 ?_, by decide⟩
  refine ⟨fun s hs _ => ?_, fun s₁ hs₁ => ⟨fun s hs _ => ?_, fun s₂ hs₂ =>
    ⟨fun s hs _ => ?_, fun _ _ => trivial⟩⟩⟩
  · obtain rfl := Option.some.inj hs
    exact ⟨by decide, by decide⟩
  · obtain rfl := Option.some.inj hs₁
    obtain rfl := Option.some.inj hs
    exact ⟨by decide, by decide⟩
  · obtain rfl := Option.some.inj hs₁
    obtain rfl := Option.some.inj hs₂
    obtain rfl := Option.some.inj hs
    exact ⟨by decide, by decide⟩

end TokenPumper.JitoAuth.Shredstream
