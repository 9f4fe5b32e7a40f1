import Mathlib.Data.Nat.Find
import TokenPumper.Shreds.Stream

namespace TokenPumper
open Streak
set_option autoImplicit true

/-- Packet `i` is a data shred of a focus slot and the last of `fireAt` such shreds in a row. -/
structure CompletesRun (cache : LeaderCache) (fireAt : UInt32) (packets : List (List UInt8))
    (i : Nat) (s : UInt64) : Prop where
  shred : (packets[i]?).bind dataSlot = some s
  focus : cache.isFocus s = some true
  run : List.replicate fireAt.toNat s <:+ dataSlots (packets.take (i + 1))

theorem dataSlots_take_succ (packets : List (List UInt8)) (i : Nat) :
    dataSlots (packets.take (i + 1)) =
      dataSlots (packets.take i) ++ ((packets[i]?).bind dataSlot).toList := by
  rw [List.take_add_one, dataSlots, List.filterMap_append]
  cases packets[i]? with
  | none => rfl
  | some buf => cases h : dataSlot buf <;> simp [dataSlots, h]

section Launches
variable {cache : LeaderCache} {fireAt : UInt32} {packets : List (List UInt8)}

theorem exists_completesRun_iff (h : (packets[i]?).bind dataSlot = some a) :
    (∃ s, CompletesRun cache fireAt packets i s) ↔ cache.isFocus a = some true ∧
      fireAt.toNat ≤ streak a (dataSlots (packets.take i)) + 1 := by
  have hd := dataSlots_take_succ packets i
  rw [h, Option.toList_some] at hd
  constructor
  · rintro ⟨s, hs⟩
    obtain rfl : a = s := Option.some.inj (h.symm.trans hs.shred)
    have hr := hs.run
    rw [hd, replicate_suffix_iff, streak_concat_self] at hr
    exact ⟨hs.focus, hr⟩
  · rintro ⟨hf, hr⟩
    refine ⟨a, h, hf, ?_⟩
    rwa [hd, replicate_suffix_iff, streak_concat_self]

theorem completed_take_succ_iff (h : 1 ≤ fireAt) (i : Nat) :
    Completed cache fireAt (dataSlots (packets.take (i + 1))) ↔
      Completed cache fireAt (dataSlots (packets.take i)) ∨
        ∃ s, CompletesRun cache fireAt packets i s := by
  rw [dataSlots_take_succ]
  cases hb : (packets[i]?).bind dataSlot with
  | none =>
    rw [Option.toList_none, List.append_nil]
    refine ⟨.inl, fun hor => hor.resolve_right ?_⟩
    rintro ⟨s, hs⟩
    exact absurd (hb.symm.trans hs.shred) (by simp)
  | some a => rw [Option.toList_some, completed_concat h, exists_completesRun_iff hb]

theorem completed_take_iff (h : 1 ≤ fireAt) (i : Nat) :
    Completed cache fireAt (dataSlots (packets.take i)) ↔
      ∃ j < i, ∃ s, CompletesRun cache fireAt packets j s := by
  induction i with
  | zero => simp [dataSlots, not_completed_nil h]
  | succ i ih =>
    rw [completed_take_succ_iff h, ih]
    constructor
    · rintro (⟨j, hj, hs⟩ | hs)
      · exact ⟨j, Nat.lt_succ_of_lt hj, hs⟩
      · exact ⟨i, Nat.lt_succ_self i, hs⟩
    · rintro ⟨j, hj, hs⟩
      rcases Nat.lt_succ_iff_lt_or_eq.1 hj with hj | rfl
      · exact .inl ⟨j, hj, hs⟩
      · exact .inr hs

theorem receive_getElem? (h : 1 ≤ fireAt) (i : Nat) (s : UInt64) :
    (receive cache fireAt .new packets)[i]? = some (some s) ↔
      CompletesRun cache fireAt packets i s ∧
        ∀ j < i, ∀ t, ¬CompletesRun cache fireAt packets j t := by
  have hbefore : (¬Completed cache fireAt (dataSlots (packets.take i))) ↔
      ∀ j < i, ∀ t, ¬CompletesRun cache fireAt packets j t := by
    rw [completed_take_iff h]
    simp only [not_exists, not_and]
  rw [receive_eq, ← hbefore]
  rcases cache.isFocus_total with hf | hf
  · have hrun := Trigger.run_launches h (Trigger.tracks_new h) hf (packets.map dataSlot) i (s := s)
    have hd (k : Nat) : ((packets.map dataSlot).take k).filterMap id =
        dataSlots (packets.take k) := by
      rw [← List.map_take, List.filterMap_map]
      rfl
    have hx : (packets.map dataSlot)[i]? = some (some s) ↔
        (packets[i]?).bind dataSlot = some s := by
      rw [List.getElem?_map]
      cases packets[i]? <;> simp
    rw [List.nil_append, List.nil_append, hd, hd, hx] at hrun
    refine hrun.trans ⟨?_, ?_⟩
    · rintro ⟨hs, hno, hdone⟩
      obtain ⟨a, ha⟩ := ((completed_take_succ_iff h i).1 hdone).resolve_left hno
      obtain rfl : a = s := Option.some.inj (ha.shred.symm.trans hs)
      exact ⟨ha, hno⟩
    · rintro ⟨hs, hno⟩
      exact ⟨hs.shred, hno, (completed_take_succ_iff h i).2 (.inr ⟨s, hs⟩)⟩
  · refine iff_of_false (Trigger.run_of_noFocus hf _ _ i s) ?_
    rintro ⟨hs, -⟩
    exact hf s hs.focus

theorem mem_launches (i : Nat) (s : UInt64) :
    (i, s) ∈ launches cache fireAt packets ↔
      (receive cache fireAt .new packets)[i]? = some (some s) := by
  rw [launches, List.mem_filterMap]
  constructor
  · rintro ⟨⟨out, j⟩, hmem, heq⟩
    obtain ⟨a, rfl, ha⟩ := Option.map_eq_some_iff.1 heq
    obtain ⟨rfl, rfl⟩ := Prod.mk.inj ha
    exact List.mk_mem_zipIdx_iff_getElem?.1 hmem
  · intro h
    exact ⟨(some s, i), List.mk_mem_zipIdx_iff_getElem?.2 h, rfl⟩

theorem filterMap_zipIdx (outs : List (Option UInt64)) (n : Nat) :
    ((outs.zipIdx n).filterMap fun (out, i) => out.map fun slot => (i, slot)).map Prod.snd =
      outs.filterMap id := by
  induction outs generalizing n with
  | nil => rfl
  | cons out outs ih => cases out <;> simp [ih]

theorem launches_slots : (launches cache fireAt packets).map Prod.snd =
    (Trigger.new.run cache fireAt (packets.map dataSlot)).filterMap id := by
  rw [launches, filterMap_zipIdx, receive_eq]
  rfl

/-- Too short for a slot, a coding shred, or of no known variant. -/
def isNoise (buf : List UInt8) : Bool :=
  buf.length < 73 ||
    match buf[sizeOfSignature]? with
    | none => true
    | some vbyte =>
      match classifyVariant vbyte with
      | .data _ _ _ => false
      | _ => true

theorem isNoise_iff (buf : List UInt8) : isNoise buf = true ↔ dataSlot buf = none := by
  simp only [isNoise, dataSlot]
  cases buf[sizeOfSignature]? with
  | none => simp
  | some vbyte =>
    dsimp only
    cases classifyVariant vbyte with
    | invalid => simp
    | coding => simp
    | data proofSize resigned capacity => simp [getSlot]

theorem filter_isSome_map_dataSlot (packets : List (List UInt8)) :
    (packets.map dataSlot).filter Option.isSome =
      (packets.filter fun buf => !isNoise buf).map dataSlot := by
  induction packets with
  | nil => rfl
  | cons buf packets ih =>
    have hb := isNoise_iff buf
    cases hd : dataSlot buf with
    | none => simp [hb.2 hd, hd, ih]
    | some s =>
      have hn : isNoise buf = false := by
        rw [← Bool.not_eq_true, hb, hd]
        simp
      simp [hn, hd, ih]

/-- At most one launch, at the first packet that completes a run of a focus slot; noise added to or
removed from the packets does not change for which slot. -/
theorem launches_first_run (cache : LeaderCache) (fireAt : UInt32) (h : 1 ≤ fireAt)
    (packets : List (List UInt8)) :
    (launches cache fireAt packets).length ≤ 1 ∧
      (∀ i s, (i, s) ∈ launches cache fireAt packets ↔
        CompletesRun cache fireAt packets i s ∧
          ∀ j < i, ∀ t, ¬CompletesRun cache fireAt packets j t) ∧
      ∀ packets', (packets'.filter fun buf => !isNoise buf) =
          packets.filter (fun buf => !isNoise buf) →
        (launches cache fireAt packets').map Prod.snd =
          (launches cache fireAt packets).map Prod.snd := by
  refine ⟨?_, ?_, ?_⟩
  · rw [← List.length_map (f := Prod.snd), launches_slots]
    exact Trigger.run_length_le .new _
  · intro i s
    rw [mem_launches, receive_getElem? h]
  · intro packets' hp
    rw [launches_slots, launches_slots, ← Trigger.run_filter,
      ← Trigger.run_filter .new (packets.map _),
      filter_isSome_map_dataSlot, filter_isSome_map_dataSlot, hp]

/-- The launch has happened exactly if some focus slot had its data shreds in a row. -/
theorem launches_ne_nil (h : 1 ≤ fireAt) :
    launches cache fireAt packets ≠ [] ↔ Completed cache fireAt (dataSlots packets) := by
  have hall : Completed cache fireAt (dataSlots (packets.take packets.length)) ↔ _ :=
    completed_take_iff h packets.length
  rw [List.take_length] at hall
  rw [hall]
  constructor
  · intro hne
    obtain ⟨⟨i, s⟩, hmem⟩ := List.exists_mem_of_ne_nil _ hne
    have hs := ((receive_getElem? h i s).1 ((mem_launches i s).1 hmem)).1
    obtain ⟨buf, hbuf, -⟩ := Option.bind_eq_some_iff.1 hs.shred
    exact ⟨i, (List.getElem?_eq_some_iff.1 hbuf).1, s, hs⟩
  · rintro ⟨j, -, hj⟩
    classical
    have hex : ∃ i, ∃ s, CompletesRun cache fireAt packets i s := ⟨j, hj⟩
    obtain ⟨s, hs⟩ := Nat.find_spec hex
    have hfirst : ∀ i < Nat.find hex, ∀ t, ¬CompletesRun cache fireAt packets i t :=
      fun i hi t ht => Nat.find_min hex hi ⟨t, ht⟩
    have hmem := (mem_launches _ s).2 ((receive_getElem? h _ s).2 ⟨hs, hfirst⟩)
    exact List.ne_nil_of_mem hmem

/-- Some focus slot has that many data shreds, wherever they stand. -/
def Accumulates (cache : LeaderCache) (fireAt : UInt32) (packets : List (List UInt8)) : Prop :=
  ∃ s, cache.isFocus s = some true ∧ fireAt.toNat ≤ (dataSlots packets).count s

/-- Shreds that have accumulated launch exactly if those of some focus slot came in a row. -/
theorem launches_of_accumulates_iff (cache : LeaderCache) (fireAt : UInt32) (h : 1 ≤ fireAt)
    (packets : List (List UInt8)) :
    (Accumulates cache fireAt packets → launches cache fireAt packets ≠ []) ↔
      ¬Accumulates cache fireAt packets ∨
        ∃ s, cache.isFocus s = some true ∧
          List.replicate fireAt.toNat s <:+: dataSlots packets := by
  rw [launches_ne_nil h, imp_iff_not_or]
  rfl

end Launches

def sampleMap : EpochLeaderMap where
  epoch := 815
  epochStartSlot := 100
  epochEndSlot := 103
  slotsInEpoch := 4
  regions := [⟨#v[68, 69, 0, 0]⟩]
  softwareClients := []
  slotCodes := [0, 0, 255, 255]
  validators := []
  slotCodes_length := rfl
  span_eq := by decide
  regions_length := by decide
  softwareClients_length := by decide
  slotCodes_inTable := by decide +kernel
  validators_inTable := by decide +kernel

def sampleCache : LeaderCache := ⟨sampleMap, some 0⟩

def sampleShred (slot : UInt64) : List UInt8 :=
  List.replicate sizeOfSignature 0 ++ [0x90] ++ LittleEndian.u64 slot

theorem launches_first_run_sample :
    (launches sampleCache 2 [sampleShred 100, [], sampleShred 100]).length ≤ 1 ∧
      (∀ i s, (i, s) ∈ launches sampleCache 2 [sampleShred 100, [], sampleShred 100] ↔
        CompletesRun sampleCache 2 [sampleShred 100, [], sampleShred 100] i s ∧
          ∀ j < i, ∀ t, ¬CompletesRun sampleCache 2 [sampleShred 100, [], sampleShred 100] j t) ∧
      ∀ packets', (packets'.filter fun buf => !isNoise buf) =
          [sampleShred 100, [], sampleShred 100].filter (fun buf => !isNoise buf) →
        (launches sampleCache 2 packets').map Prod.snd =
          (launches sampleCache 2 [sampleShred 100, [], sampleShred 100]).map Prod.snd :=
  launches_first_run sampleCache 2 (by decide) [sampleShred 100, [], sampleShred 100]

theorem launches_of_accumulates_sample :
    (Accumulates sampleCache 2 [sampleShred 100, sampleShred 100] →
        launches sampleCache 2 [sampleShred 100, sampleShred 100] ≠ []) ↔
      ¬Accumulates sampleCache 2 [sampleShred 100, sampleShred 100] ∨
        ∃ s, sampleCache.isFocus s = some true ∧
          List.replicate 2 s <:+: dataSlots [sampleShred 100, sampleShred 100] :=
  launches_of_accumulates_iff sampleCache 2 (by decide) [sampleShred 100, sampleShred 100]

/-- One stray shred of another slot between two of a focus slot, and nothing is launched. -/
theorem launches_not_of_accumulates :
    ¬∀ (cache : LeaderCache) (fireAt : UInt32) (packets : List (List UInt8)), 1 ≤ fireAt →
      Accumulates cache fireAt packets → launches cache fireAt packets ≠ [] := by
  intro hall
  have hacc : Accumulates sampleCache 2 [sampleShred 100, sampleShred 102, sampleShred 100] :=
    ⟨100, by decide +kernel, by decide +kernel⟩
  refine hall sampleCache 2 [sampleShred 100, sampleShred 102, sampleShred 100] (by decide) hacc ?_
  decide +kernel

end TokenPumper
