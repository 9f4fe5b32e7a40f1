import TokenPumper.Lib.Streak
import TokenPumper.Leaders.Cache
import TokenPumper.Shreds.Wire

namespace TokenPumper
open Streak
set_option autoImplicit true

/-- The counter cell and the latch of the receiver's handler. -/
structure Trigger where
  currentSlot : UInt64
  shredsInSlot : UInt32
  fired : Bool
deriving DecidableEq, Repr

/-- The counters of the periodic log line. -/
structure RecvStats where
  dataSeen : UInt64
  codingSeen : UInt64
  invalidSeen : UInt64
deriving DecidableEq, Repr

structure Receiver where
  trigger : Trigger
  stats : RecvStats
deriving DecidableEq, Repr

def Trigger.new : Trigger := ⟨0xFFFFFFFFFFFFFFFF, 0, false⟩

def Receiver.new : Receiver := ⟨.new, ⟨0, 0, 0⟩⟩

def Trigger.count (t : Trigger) (slot : UInt64) : Trigger :=
  let t := if slot ≠ t.currentSlot then { t with currentSlot := slot, shredsInSlot := 0 } else t
  { t with shredsInSlot := t.shredsInSlot + 1 }

/-- A data shred has come in: the new cell, and the slot that `fire_launch` is called for. A panic
of the focus lookup is `none`. -/
def Trigger.observe (cache : LeaderCache) (fireAt : UInt32) (t : Trigger) (slot : UInt64) :
    Option (Trigger × Option UInt64) :=
  let t := t.count slot
  if !t.fired && t.shredsInSlot = fireAt then
    match cache.isFocus slot with
    | none => none
    | some true => some ({ t with fired := true }, some slot)
    | some false => some (t, none)
  else some (t, none)

/-- The closure that the receiver thread runs on every packet. -/
def handler (cache : LeaderCache) (fireAt : UInt32) (r : Receiver) (buf : List UInt8) :
    Option (Receiver × Option UInt64) :=
  match buf[sizeOfSignature]? with
  | none => some ({ r with stats.invalidSeen := r.stats.invalidSeen + 1 }, none)
  | some vbyte =>
    match variantOf vbyte with
    | .coding => some ({ r with stats.codingSeen := r.stats.codingSeen + 1 }, none)
    | .invalid => some ({ r with stats.invalidSeen := r.stats.invalidSeen + 1 }, none)
    | .data _ _ _ =>
      let stats := { r.stats with dataSeen := r.stats.dataSeen + 1 }
      match getSlot buf with
      | none => some ({ r with stats := { stats with invalidSeen := stats.invalidSeen + 1 } }, none)
      | some slot =>
        (r.trigger.observe cache fireAt slot).map fun (t, out) => (⟨t, stats⟩, out)

/-- What each packet made the handler launch; after a panic the thread is gone. -/
def receive (cache : LeaderCache) (fireAt : UInt32) : Receiver → List (List UInt8) →
    List (Option UInt64)
  | _, [] => []
  | r, buf :: packets =>
    match handler cache fireAt r buf with
    | none => []
    | some (r', out) => out :: receive cache fireAt r' packets

/-- The calls of `fire_launch` over a packet sequence: position of the packet, and slot. -/
def launches (cache : LeaderCache) (fireAt : UInt32) (packets : List (List UInt8)) :
    List (Nat × UInt64) :=
  (receive cache fireAt .new packets).zipIdx.filterMap fun (out, i) => out.map fun slot => (i, slot)

def dataSlot (buf : List UInt8) : Option UInt64 :=
  match buf[sizeOfSignature]? with
  | none => none
  | some vbyte =>
    match classifyVariant vbyte with
    | .data _ _ _ => getSlot buf
    | _ => none

def dataSlots (packets : List (List UInt8)) : List UInt64 := packets.filterMap dataSlot

theorem handler_trigger (cache : LeaderCache) (fireAt : UInt32) (r : Receiver)
    (buf : List UInt8) :
    (handler cache fireAt r buf).map (fun (r', out) => (r'.trigger, out)) =
      match dataSlot buf with
      | none => some (r.trigger, none)
      | some slot => r.trigger.observe cache fireAt slot := by
  simp only [handler, dataSlot, variantOf_eq]
  cases buf[sizeOfSignature]? with
  | none => rfl
  | some vbyte =>
    dsimp only
    cases classifyVariant vbyte with
    | invalid => rfl
    | coding => rfl
    | data proofSize resigned capacity =>
      dsimp only
      cases getSlot buf with
      | none => rfl
      | some slot =>
        dsimp only
        cases r.trigger.observe cache fireAt slot with
        | none => rfl
        | some res => rfl

/-- The trigger alone, on the slots of data shreds with noise in between. -/
def Trigger.run (cache : LeaderCache) (fireAt : UInt32) : Trigger → List (Option UInt64) →
    List (Option UInt64)
  | _, [] => []
  | t, none :: slots => none :: run cache fireAt t slots
  | t, some slot :: slots =>
    match t.observe cache fireAt slot with
    | none => []
    | some (t', out) => out :: run cache fireAt t' slots

theorem receive_eq (cache : LeaderCache) (fireAt : UInt32) (r : Receiver)
    (packets : List (List UInt8)) :
    receive cache fireAt r packets = r.trigger.run cache fireAt (packets.map dataSlot) := by
  induction packets generalizing r with
  | nil => rfl
  | cons buf packets ih =>
    have h := handler_trigger cache fireAt r buf
    rw [receive, List.map_cons]
    cases hd : dataSlot buf with
    | none =>
      rw [hd] at h
      obtain ⟨⟨r', out⟩, hr, he⟩ := Option.map_eq_some_iff.1 h
      obtain ⟨ht, rfl⟩ := Prod.mk.inj he
      simp only [hr, Trigger.run, ih, ht]
    | some slot =>
      rw [hd] at h
      have h' : r.trigger.observe cache fireAt slot = _ := h.symm
      rw [Trigger.run, h']
      cases handler cache fireAt r buf with
      | none => rfl
      | some res => simp only [Option.map_some, ih]

section Run
variable {cache : LeaderCache} {fireAt : UInt32} {t : Trigger} {slots : List UInt64} {s : UInt64}

def Completed (cache : LeaderCache) (fireAt : UInt32) (slots : List UInt64) : Prop :=
  ∃ s, cache.isFocus s = some true ∧ List.replicate fireAt.toNat s <:+: slots

theorem not_completed_nil (h : 1 ≤ fireAt) : ¬Completed cache fireAt [] := by
  rintro ⟨s, -, hs⟩
  rw [List.infix_nil, List.replicate_eq_nil_iff] at hs
  rw [UInt32.le_iff_toNat_le, hs] at h
  exact absurd h (by decide)

theorem completed_concat (h : 1 ≤ fireAt) :
    Completed cache fireAt (slots ++ [s]) ↔ Completed cache fireAt slots ∨
      cache.isFocus s = some true ∧ fireAt.toNat ≤ streak s slots + 1 := by
  have hpos : 0 < fireAt.toNat := UInt32.le_iff_toNat_le.1 h
  constructor
  · rintro ⟨a, ha, hin⟩
    rcases (replicate_infix_concat_iff a s slots).1 hin with hin | hle
    · exact .inl ⟨a, ha, hin⟩
    · obtain rfl := eq_of_streak_concat_pos (Nat.lt_of_lt_of_le hpos hle)
      rw [streak_concat_self] at hle
      exact .inr ⟨ha, hle⟩
  · rintro (⟨a, ha, hin⟩ | ⟨hs, hle⟩)
    · exact ⟨a, ha, (replicate_infix_concat_iff a s slots).2 (.inl hin)⟩
    · refine ⟨s, hs, (replicate_infix_concat_iff s s slots).2 (.inr ?_)⟩
      rwa [streak_concat_self]

/-- The cell counts the streak of its slot, and the latch tells a completed run. -/
structure Trigger.Tracks (cache : LeaderCache) (fireAt : UInt32) (t : Trigger)
    (slots : List UInt64) : Prop where
  count : t.shredsInSlot.toNat = streak t.currentSlot slots % 2 ^ 32
  other : ∀ s, s ≠ t.currentSlot → streak s slots = 0
  fired : t.fired = true ↔ Completed cache fireAt slots

theorem Trigger.tracks_new (h : 1 ≤ fireAt) : Trigger.new.Tracks cache fireAt [] where
  count := rfl
  other := fun _ _ => rfl
  fired := iff_of_false Bool.false_ne_true (not_completed_nil h)

theorem Trigger.count_fired (t : Trigger) (s : UInt64) : (t.count s).fired = t.fired := by
  simp only [count]
  split <;> rfl

theorem Trigger.count_currentSlot (t : Trigger) (s : UInt64) : (t.count s).currentSlot = s := by
  simp only [count]
  split
  · rfl
  · rename_i h
    exact (Decidable.not_not.1 h).symm

theorem Trigger.count_shredsInSlot (ht : t.Tracks cache fireAt slots) :
    (t.count s).shredsInSlot.toNat = (streak s slots + 1) % 2 ^ 32 := by
  simp only [count]
  split
  · rename_i h
    rw [ht.other s h]
    rfl
  · rename_i h
    rw [Decidable.not_not.1 h, UInt32.toNat_add, ht.count, UInt32.toNat_one, Nat.mod_add_mod]

theorem Trigger.count_tracks (ht : t.Tracks cache fireAt slots) (hfired : b = true ↔
    Completed cache fireAt (slots ++ [s])) :
    { t.count s with fired := b }.Tracks cache fireAt (slots ++ [s]) where
  count := by
    rw [count_shredsInSlot ht, count_currentSlot, streak_concat_self]
  other a ha := by
    rw [count_currentSlot] at ha
    exact streak_concat_of_ne (Ne.symm ha) slots
  fired := hfired

/-- The counter of a focus slot meets the threshold as soon as the streak is long enough. -/
theorem Trigger.count_eq_fireAt (ht : t.Tracks cache fireAt slots)
    (hdone : ¬Completed cache fireAt slots) (hs : cache.isFocus s = some true) :
    (t.count s).shredsInSlot = fireAt ↔ fireAt.toNat ≤ streak s slots + 1 := by
  have hlt : streak s slots < fireAt.toNat := by
    by_contra hle
    exact hdone ⟨s, hs, replicate_infix_of_le_streak (Nat.le_of_not_lt hle)⟩
  have hmax := fireAt.toNat_lt
  have hmod : (streak s slots + 1) % 2 ^ 32 = streak s slots + 1 := Nat.mod_eq_of_lt (by omega)
  rw [← UInt32.toNat_inj, count_shredsInSlot ht, hmod]
  omega

/-- On the next data shred the trigger launches exactly if the shred completes a run and none was
completed before. -/
theorem Trigger.observe_tracks (h : 1 ≤ fireAt) (ht : t.Tracks cache fireAt slots)
    (hf : cache.isFocus s ≠ none) :
    ∃ t' out, t.observe cache fireAt s = some (t', out) ∧ t'.Tracks cache fireAt (slots ++ [s]) ∧
      (∀ a, out = some a ↔ s = a ∧ ¬Completed cache fireAt slots ∧
        Completed cache fireAt (slots ++ [s])) := by
  have hc : Completed cache fireAt (slots ++ [s]) ↔ _ := completed_concat h
  by_cases hdone : Completed cache fireAt slots
  · have hfired : (t.count s).fired = true := by
      rw [count_fired]
      exact ht.fired.2 hdone
    refine ⟨t.count s, none, ?_, ?_, ?_⟩
    · simp only [observe, hfired, Bool.not_true, Bool.false_and, Bool.false_eq_true, ↓reduceIte]
    · have hb : (t.count s).fired = true ↔ Completed cache fireAt (slots ++ [s]) :=
        iff_of_true hfired (hc.2 (.inl hdone))
      exact count_tracks ht hb
    · simp [hdone]
  · have hfired : (t.count s).fired = false := by
      rw [count_fired, ← Bool.not_eq_true]
      exact fun hb => hdone (ht.fired.1 hb)
    cases hs : cache.isFocus s with
    | none => exact absurd hs hf
    | some focus =>
      cases focus with
      | false =>
        have hnot : ¬Completed cache fireAt (slots ++ [s]) := by
          rw [hc, hs]
          simp [hdone]
        have hb : (t.count s).fired = true ↔ Completed cache fireAt (slots ++ [s]) :=
          iff_of_false (by rw [hfired]; exact Bool.false_ne_true) hnot
        refine ⟨t.count s, none, ?_, count_tracks ht hb, by simp [hnot]⟩
        simp only [observe, hs]
        split <;> rfl
      | true =>
        have hiff : Completed cache fireAt (slots ++ [s]) ↔ (t.count s).shredsInSlot = fireAt := by
          rw [hc, count_eq_fireAt ht hdone hs]
          simp [hdone, hs]
        by_cases hcount : (t.count s).shredsInSlot = fireAt
        · have hdone' := hiff.2 hcount
          refine ⟨{ t.count s with fired := true }, some s, ?_,
            count_tracks ht (iff_of_true rfl hdone'), by simp [hdone, hdone']⟩
          simp only [observe, hfired, hcount, hs, Bool.not_false, decide_true, Bool.and_self,
            ↓reduceIte]
        · have hnot := mt hiff.1 hcount
          have hb : (t.count s).fired = true ↔ Completed cache fireAt (slots ++ [s]) :=
            iff_of_false (by rw [hfired]; exact Bool.false_ne_true) hnot
          refine ⟨t.count s, none, ?_, count_tracks ht hb, by simp [hnot]⟩
          simp only [observe, hcount, decide_false, Bool.and_false, Bool.false_eq_true, ↓reduceIte]

theorem Trigger.run_launches (h : 1 ≤ fireAt) (ht : t.Tracks cache fireAt slots)
    (hf : ∀ s, cache.isFocus s ≠ none) (xs : List (Option UInt64)) (i : Nat) :
    (t.run cache fireAt xs)[i]? = some (some s) ↔
      xs[i]? = some (some s) ∧ ¬Completed cache fireAt (slots ++ (xs.take i).filterMap id) ∧
        Completed cache fireAt (slots ++ (xs.take (i + 1)).filterMap id) := by
  induction xs generalizing t slots i with
  | nil => simp [run]
  | cons x xs ih =>
    cases x with
    | none =>
      rw [run]
      cases i with
      | zero => simp
      | succ i => simpa using ih ht i
    | some a =>
      obtain ⟨t', out, ho, ht', hout⟩ := observe_tracks h ht (hf a)
      simp only [run, ho]
      cases i with
      | zero => simp [hout]
      | succ i => simpa using ih ht' i

theorem Trigger.observe_launch (h : t.observe cache fireAt s = some (t', some a)) :
    a = s ∧ cache.isFocus s = some true ∧ t'.fired = true := by
  simp only [observe] at h
  split at h
  · split at h
    · cases h
    · rename_i hs
      obtain ⟨rfl, hout⟩ := Prod.mk.inj (Option.some.inj h)
      exact ⟨(Option.some.inj hout).symm, hs, rfl⟩
    · cases h
  · cases h

theorem Trigger.observe_fired (hf : t.fired = true) :
    t.observe cache fireAt s = some (t.count s, none) := by
  have hc : (t.count s).fired = true := by rwa [count_fired]
  simp only [observe, hc, Bool.not_true, Bool.false_and, Bool.false_eq_true, ↓reduceIte]

theorem Trigger.run_fired (hf : t.fired = true) (xs : List (Option UInt64)) :
    (t.run cache fireAt xs).filterMap id = [] := by
  induction xs generalizing t with
  | nil => rfl
  | cons x xs ih =>
    cases x with
    | none => simpa [run] using ih hf
    | some a =>
      have hc : (t.count a).fired = true := by rwa [count_fired]
      simpa [run, observe_fired hf] using ih hc

theorem Trigger.run_length_le (t : Trigger) (xs : List (Option UInt64)) :
    ((t.run cache fireAt xs).filterMap id).length ≤ 1 := by
  induction xs generalizing t with
  | nil => exact Nat.zero_le 1
  | cons x xs ih =>
    cases x with
    | none => simpa [run] using ih t
    | some a =>
      rw [run]
      cases ho : t.observe cache fireAt a with
      | none => exact Nat.zero_le 1
      | some res =>
        obtain ⟨t', out⟩ := res
        cases out with
        | none => simpa using ih t'
        | some b =>
          obtain ⟨-, -, hf⟩ := observe_launch ho
          have hr : (t'.run cache fireAt xs).filterMap id = [] := run_fired hf xs
          have hb : (some b :: t'.run cache fireAt xs).filterMap id = [b] := by
            rw [List.filterMap_cons, hr]
            rfl
          exact Nat.le_of_eq (congrArg List.length hb)

theorem Trigger.run_filter (t : Trigger) (xs : List (Option UInt64)) :
    (t.run cache fireAt (xs.filter Option.isSome)).filterMap id =
      (t.run cache fireAt xs).filterMap id := by
  induction xs generalizing t with
  | nil => rfl
  | cons x xs ih =>
    cases x with
    | none => simpa [run] using ih t
    | some a =>
      simp only [List.filter_cons, Option.isSome_some, ↓reduceIte, run]
      cases t.observe cache fireAt a with
      | none => rfl
      | some res =>
        obtain ⟨t', out⟩ := res
        cases out with
        | none => simpa using ih t'
        | some b => simpa using ih t'

theorem Trigger.run_of_noFocus (hf : ∀ s, cache.isFocus s ≠ some true) (t : Trigger)
    (xs : List (Option UInt64)) (i : Nat) (a : UInt64) :
    (t.run cache fireAt xs)[i]? ≠ some (some a) := by
  induction xs generalizing t i with
  | nil => simp [run]
  | cons x xs ih =>
    cases x with
    | none =>
      cases i with
      | zero => simp [run]
      | succ i => simpa [run] using ih t i
    | some b =>
      rw [run]
      cases ho : t.observe cache fireAt b with
      | none => simp
      | some res =>
        obtain ⟨t', out⟩ := res
        cases i with
        | zero =>
          rintro hout
          have hout' : out = some a := by simpa using hout
          subst hout'
          exact hf b (observe_launch ho).2.1
        | succ i => simpa using ih t' i

end Run

end TokenPumper
