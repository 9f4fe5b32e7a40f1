import TokenPumper.Keys.World
import TokenPumper.Lib.Machine
import TokenPumper.Lib.Ticker

namespace TokenPumper.Blockhash
open LittleEndian Machine Ticker
set_option autoImplicit true

def second : Nat := 1000000000

def refreshInterval : Nat := 10 * second

/-- One turn of the refresher, with what the fetch came to. -/
structure Round where
  turn : Turn
  reply : Reply (Bytes 32)

structure BlockhashCache where
  current : Bytes 32
  loop : Loop

/-- What happens before the refresher comes to its loop: the first fetch, the start of its timer,
and the first tick, which is dropped. -/
structure Startup where
  begun : Nat
  fetched : Nat
  reply : Reply (Bytes 32)
  spawned : Nat
  firstTick : Nat

/-- The policy is the one that a timer has if nothing else is asked for. -/
def bootstrap (policy : Policy) (s : Startup) : Except (List String) BlockhashCache := do
  let initial ← s.reply
  pure ⟨initial, (Loop.starting s.spawned refreshInterval).after policy ⟨s.firstTick, s.firstTick⟩⟩

def refresh (policy : Policy) (s : BlockhashCache) (r : Round) : Option BlockhashCache :=
  if s.loop.Takes r.turn then
    some ⟨r.reply.toOption.getD s.current, s.loop.after policy r.turn⟩
  else none

def countFailure (failed : Nat) (r : Round) : Nat := if r.reply.isOk then 0 else failed + 1

def failures (rounds : List Round) : Nat := rounds.foldl countFailure 0

/-- A fetch returns the hash that is the latest at some time while it runs. -/
def Fetched (latest : Nat → Bytes 32) (begun finished : Nat) (reply : Reply (Bytes 32)) : Prop :=
  ∀ hash, reply = .ok hash → ∃ u, begun ≤ u ∧ u ≤ finished ∧ latest u = hash

/-- The start is as quick as any turn. -/
structure Startup.Prompt (slack latency : Nat) (s : Startup) : Prop where
  fetched : s.fetched ≤ s.begun + latency
  spawned : s.fetched ≤ s.spawned ∧ s.spawned ≤ s.fetched + slack
  firstTick : s.spawned ≤ s.firstTick ∧ s.firstTick ≤ s.spawned + slack

/-- A turn is as quick as it should be, and the network tells the truth in it. -/
structure Timely (latest : Nat → Bytes 32) (slack latency : Nat) (s : BlockhashCache) (r : Round) :
    Prop where
  prompt : s.loop.Prompt slack latency r.turn
  fetched : Fetched latest r.turn.ticked r.turn.finished r.reply

def pace (slack latency : Nat) : Nat := max refreshInterval latency + slack

/-- The hash was the latest at a time; from then on, or from the start on, so many turns have gone
by without another one. -/
structure Shows (latest : Nat → Bytes 32) (slack latency failed : Nat) (s : BlockhashCache)
    (u : Nat) : Prop where
  hash : latest u = s.current
  past : u ≤ s.loop.clock
  period : s.loop.period = refreshInterval
  since : s.loop.Since latency (u + (latency + 2 * slack) + failed * pace slack latency)

section Age
variable {policy : Policy} {latest : Nat → Bytes 32} {slack latency : Nat}

theorem shows_bootstrap {start : Startup} (h : bootstrap policy start = .ok s)
    (hfetched : Fetched latest start.begun start.fetched start.reply)
    (hprompt : start.Prompt slack latency) :
    ∃ u, Shows latest slack latency 0 s u := by
  cases hreply : start.reply with
  | error e =>
    rw [bootstrap, hreply] at h
    cases h
  | ok initial =>
    rw [bootstrap, hreply] at h
    obtain rfl := Except.ok.inj h
    obtain ⟨u, hbegun, hu, hlatest⟩ := hfetched initial hreply
    have hlate := hprompt.fetched
    obtain ⟨hspawned, hspawned'⟩ := hprompt.spawned
    obtain ⟨htick, htick'⟩ := hprompt.firstTick
    have hnext := policy.next_le start.spawned start.firstTick refreshInterval htick
    refine ⟨u, hlatest, ?_, rfl, ?_, ?_⟩
    · change u ≤ start.firstTick
      omega
    · change policy.next start.spawned start.firstTick refreshInterval ≤ _ + refreshInterval
      omega
    · change start.firstTick ≤ _
      omega

theorem shows_refresh {s s' : BlockhashCache} {r : Round}
    (hshows : Shows latest slack latency failed s u) (htimely : Timely latest slack latency s r)
    (h : refresh policy s r = some s') :
    ∃ u', Shows latest slack latency (countFailure failed r) s' u' := by
  rw [refresh] at h
  split at h
  · rename_i htakes
    obtain rfl := Option.some.inj h
    have hsince : (s.loop.after policy r.turn).Since latency r.turn.ticked :=
      Loop.since_after htakes htimely.prompt
    have hticked := hshows.since.ticked_le htimely.prompt
    rw [hshows.period] at hticked
    cases hreply : r.reply with
    | ok hash =>
      obtain ⟨u', hbegun, hu', hlatest⟩ := htimely.fetched hash hreply
      have hcount : countFailure failed r = 0 := by rw [countFailure, hreply]; rfl
      refine ⟨u', hlatest, hu', hshows.period, hsince.later ?_⟩
      rw [hcount]
      omega
    | error e =>
      have hcount : countFailure failed r = failed + 1 := by rw [countFailure, hreply]; rfl
      refine ⟨u, hshows.hash, ?_, hshows.period, hsince.later ?_⟩
      · exact Nat.le_trans hshows.past (Nat.le_trans htakes.1 htakes.2.2)
      · rw [hcount, Nat.add_mul, Nat.one_mul, ← Nat.add_assoc]
        exact hticked
  · cases h

theorem shows_run {s s' : BlockhashCache} (hshows : Shows latest slack latency failed s u)
    (htimely : Along (refresh policy) (Timely latest slack latency) s rounds)
    (h : run (refresh policy) s rounds = some s') :
    ∃ u', Shows latest slack latency (rounds.foldl countFailure failed) s' u' := by
  induction rounds generalizing s failed u with
  | nil =>
    obtain rfl := Option.some.inj h
    exact ⟨u, hshows⟩
  | cons r rounds ih =>
    obtain ⟨s₁, hr, hrun⟩ := Option.bind_eq_some_iff.1 h
    obtain ⟨u₁, hshows₁⟩ := shows_refresh hshows htimely.1 hr
    exact ih hshows₁ (htimely.2 s₁ hr) hrun

theorem current_of_run {s s' : BlockhashCache} (h : run (refresh policy) s rounds = some s') :
    s'.current = ((rounds.map Round.reply).filterMap Except.toOption).getLast?.getD s.current := by
  induction rounds generalizing s with
  | nil =>
    obtain rfl := Option.some.inj h
    rfl
  | cons r rounds ih =>
    obtain ⟨s₁, hr, hrun⟩ := Option.bind_eq_some_iff.1 h
    have hcurrent : s₁.current = r.reply.toOption.getD s.current := by
      rw [refresh] at hr
      split at hr
      · obtain rfl := Option.some.inj hr
        rfl
      · cases hr
    rw [ih hrun, hcurrent, List.map_cons]
    cases r.reply with
    | ok hash =>
      rw [List.filterMap_cons_some (f := Except.toOption) rfl, List.getLast?_cons]
      rfl
    | error e =>
      rw [List.filterMap_cons_none (f := Except.toOption) rfl]
      rfl

/-- Whenever the cache is read, before, during or after any of the turns, the hash that it shows is
that of the last fetch that has not failed, and was the latest one not longer ago than one pace for
each fetch that has failed since, one more, and what the start takes. -/
theorem shown_hash_age {start : Startup} (hstart : bootstrap policy start = .ok s)
    (hfetched : Fetched latest start.begun start.fetched start.reply)
    (hprompt : start.Prompt slack latency)
    (htimely : Along (refresh policy) (Timely latest slack latency) s rounds)
    (hrun : run (refresh policy) s rounds = some s') (hclock : s'.loop.clock ≤ t)
    (hdue : t ≤ s'.loop.due slack latency) :
    ((start.reply :: rounds.map Round.reply).filterMap Except.toOption).getLast? =
        some s'.current ∧
      ∃ u, latest u = s'.current ∧ u ≤ t ∧
        t ≤ u + (failures rounds + 1) * pace slack latency + 2 * (latency + slack) := by
  have hlast : ((start.reply :: rounds.map Round.reply).filterMap Except.toOption).getLast? =
      some s'.current := by
    cases hreply : start.reply with
    | error e =>
      rw [bootstrap, hreply] at hstart
      cases hstart
    | ok initial =>
      rw [bootstrap, hreply] at hstart
      obtain rfl := Except.ok.inj hstart
      rw [List.filterMap_cons_some (f := Except.toOption) rfl, List.getLast?_cons,
        current_of_run hrun]
  refine ⟨hlast, ?_⟩
  obtain ⟨u₀, hshows₀⟩ := shows_bootstrap hstart hfetched hprompt
  obtain ⟨u, hshows⟩ := shows_run hshows₀ htimely hrun
  have hage : s'.loop.due slack latency ≤ _ := hshows.since.due_le
  rw [hshows.period] at hage
  refine ⟨u, hshows.hash, Nat.le_trans hshows.past hclock, ?_⟩
  rw [failures, Nat.add_mul, Nat.one_mul, pace]
  rw [pace] at hage
  omega

end Age

def sampleLatest (u : Nat) : Bytes 32 := .replicate 32 (u / (60 * second)).toUInt8

def sampleStart : Startup :=
  ⟨50 * second, 51 * second, .ok (sampleLatest (50 * second)), 51 * second, 51 * second⟩

def sampleRounds : List Round :=
  [⟨⟨61 * second, 62 * second⟩, .error ["getLatestBlockhash"]⟩,
    ⟨⟨71 * second, 72 * second⟩, .ok (sampleLatest (71 * second))⟩]

theorem shown_hash_age_sample :
    ∃ s s', bootstrap .burst sampleStart = .ok s ∧
      run (refresh .burst) s sampleRounds = some s' ∧
      ((sampleStart.reply :: sampleRounds.map Round.reply).filterMap Except.toOption).getLast? =
        some s'.current ∧
      ∃ u, sampleLatest u = s'.current ∧ u ≤ 82 * second ∧
        82 * second ≤ u + (failures sampleRounds + 1) * pace 0 second + 2 * (second + 0) := by
  have hfetched : Fetched sampleLatest (50 * second) (51 * second) sampleStart.reply := by
    intro hash h
    exact ⟨50 * second, by decide, by decide, Except.ok.inj h⟩
  have hprompt : sampleStart.Prompt 0 second := ⟨by decide, by decide, by decide⟩
  obtain ⟨s, hstart⟩ : ∃ s, bootstrap .burst sampleStart = .ok s := ⟨_, rfl⟩
  obtain ⟨s', hrun⟩ : ∃ s', run (refresh .burst) s sampleRounds = some s' := by
    obtain rfl := Except.ok.inj hstart
    exact ⟨_, rfl⟩
  have htimely : Along (refresh .burst) (Timely sampleLatest 0 second) s sampleRounds := by
    obtain rfl := Except.ok.inj hstart
    refine ⟨⟨⟨by decide, by decide⟩, fun hash h => nomatch h⟩, fun s₁ hs₁ => ?_⟩
    obtain rfl := Option.some.inj hs₁
    refine ⟨⟨⟨by decide, by decide⟩, fun hash h => ?_⟩, fun _ _ => trivial⟩
    exact ⟨71 * second, by decide, by decide, Except.ok.inj h⟩
  refine ⟨s, s', hstart, hrun, shown_hash_age hstart hfetched hprompt htimely hrun ?_ ?_⟩
  all_goals
    obtain rfl := Except.ok.inj hstart
    obtain rfl := Option.some.inj hrun
    decide

end TokenPumper.Blockhash
