import TokenPumper.Shreds.Launches

namespace TokenPumper
open Streak
set_option autoImplicit true

/-- The length of a run that launches: the counter starts at zero and comes back to it after as
many shreds as it has values. -/
def threshold (fireAt : UInt32) : Nat := if fireAt = 0 then 2 ^ 32 else fireAt.toNat

theorem threshold_pos (fireAt : UInt32) : 0 < threshold fireAt := by
  rw [threshold]
  split
  · exact Nat.two_pow_pos 32
  · rename_i h
    apply Nat.pos_of_ne_zero
    intro h0
    exact h (UInt32.toNat_inj.1 h0)

/-- Up to the threshold, the counter cut down to a `u32` meets `fire_at` at the threshold only. -/
theorem mod_eq_fireAt_iff (h : n ≤ threshold fireAt) (hpos : 0 < n) :
    n % 2 ^ 32 = fireAt.toNat ↔ threshold fireAt ≤ n := by
  have hmax := fireAt.toNat_lt
  rw [threshold] at h ⊢
  split at h
  · rename_i h0
    rw [if_pos h0, h0, UInt32.toNat_zero]
    omega
  · rename_i h0
    rw [if_neg h0, Nat.mod_eq_of_lt (by omega)]
    omega

def LeaderCache.focus (cache : LeaderCache) (slot : UInt64) : Bool :=
  decide (cache.isFocus slot = some true)

/-- The cell holds the streak of its slot, no other slot has one, and nothing was launched. -/
structure Trigger.Holds (t : Trigger) (f : UInt64 → Nat) : Prop where
  count : t.shredsInSlot.toNat = f t.currentSlot % 2 ^ 32
  other : ∀ s, s ≠ t.currentSlot → f s = 0
  fired : t.fired = false

section Run
variable {cache : LeaderCache} {fireAt : UInt32} {t : Trigger} {f : UInt64 → Nat} {s : UInt64}

theorem Trigger.holds_new : Trigger.new.Holds fun a => streak a [] where
  count := rfl
  other := fun _ _ => rfl
  fired := rfl

theorem Trigger.Holds.countOf (h : t.Holds f) :
    (t.count s).shredsInSlot.toNat = (f s + 1) % 2 ^ 32 := by
  simp only [Trigger.count]
  split
  · rename_i hs
    rw [h.other s hs]
    rfl
  · rename_i hs
    rw [Decidable.not_not.1 hs, UInt32.toNat_add, h.count, UInt32.toNat_one, Nat.mod_add_mod]

theorem Trigger.Holds.push (h : t.Holds f) (s : UInt64) : (t.count s).Holds (push f s) where
  count := by rw [h.countOf, Trigger.count_currentSlot, push_self]
  other a ha := by
    rw [Trigger.count_currentSlot] at ha
    exact push_of_ne ha f
  fired := by rw [Trigger.count_fired, h.fired]

/-- On a data shred the trigger launches exactly if the streak of a focus slot gets long enough. -/
theorem Trigger.Holds.observe (h : t.Holds f) (hlt : cache.focus s = true → f s < threshold fireAt)
    (hf : cache.isFocus s ≠ none) :
    if cache.focus s = true ∧ threshold fireAt ≤ f s + 1 then
      ∃ t', t.observe cache fireAt s = some (t', some s) ∧ t'.fired = true
    else t.observe cache fireAt s = some (t.count s, none) := by
  have hfired : (t.count s).fired = false := by rw [count_fired, h.fired]
  have hcount : (t.count s).shredsInSlot = fireAt ↔ (f s + 1) % 2 ^ 32 = fireAt.toNat := by
    rw [← UInt32.toNat_inj, h.countOf]
  simp only [Trigger.observe, hfired, Bool.not_false, Bool.true_and, decide_eq_true_eq]
  cases hs : cache.isFocus s with
  | none => exact absurd hs hf
  | some focus =>
    cases focus with
    | false => simp [LeaderCache.focus, hs]
    | true =>
      have hfocus : cache.focus s = true := decide_eq_true hs
      have hmeets := hcount.trans (mod_eq_fireAt_iff (hlt hfocus) (Nat.succ_pos _))
      by_cases hle : threshold fireAt ≤ f s + 1
      · simp [hfocus, hle, hmeets]
      · simp [hfocus, hle, hmeets]

theorem Trigger.Holds.run (h : t.Holds f)
    (hlt : ∀ a, cache.focus a = true → f a < threshold fireAt)
    (hf : ∀ s, cache.isFocus s ≠ none) (xs : List (Option UInt64)) (n : Nat) :
    ((t.run cache fireAt xs).zipIdx n).filterMap (fun (out, i) => out.map fun slot => (i, slot)) =
      ((firstRun cache.focus (threshold fireAt) f xs).map fun (i, a) => (i + n, a)).toList := by
  induction xs generalizing t f n with
  | nil => rfl
  | cons x xs ih =>
    cases x with
    | none =>
      simp only [Trigger.run, List.zipIdx_cons, List.filterMap_cons, Option.map_none]
      rw [ih h hlt, firstRun, shift_shift]
    | some s =>
      have hobs := h.observe (hlt s) (hf s)
      rw [Trigger.run, firstRun]
      by_cases hfire : cache.focus s = true ∧ threshold fireAt ≤ f s + 1
      · rw [if_pos hfire] at hobs ⊢
        obtain ⟨t', ht', hfired⟩ := hobs
        have hsilent : (((t'.run cache fireAt xs).zipIdx (n + 1)).filterMap
            fun (out, i) => out.map fun slot => (i, slot)) = [] := by
          have hmap := filterMap_zipIdx (t'.run cache fireAt xs) (n + 1)
          rw [Trigger.run_fired hfired, List.map_eq_nil_iff] at hmap
          exact hmap
        simp only [ht', List.zipIdx_cons, List.filterMap_cons, Option.map_some, hsilent,
          Nat.zero_add]
        rfl
      · rw [if_neg hfire] at hobs ⊢
        simp only [hobs, List.zipIdx_cons, List.filterMap_cons, Option.map_none]
        rw [ih (h.push s) (push_lt hlt hfire), shift_shift]

theorem firstRun_of_unwanted {wanted : UInt64 → Bool} (h : ∀ a, wanted a ≠ true) :
    firstRun wanted n f xs = none := by
  induction xs generalizing f with
  | nil => rfl
  | cons x xs ih =>
    cases x with
    | none => rw [firstRun, ih, Option.map_none]
    | some x =>
      rw [firstRun, if_neg fun hx => h x hx.1, ih, Option.map_none]

theorem launches_eq_firstRun (cache : LeaderCache) (fireAt : UInt32) (packets : List (List UInt8)) :
    launches cache fireAt packets =
      (firstRun cache.focus (threshold fireAt) (fun a => streak a [])
        (packets.map dataSlot)).toList := by
  rcases cache.isFocus_total with hf | hf
  · have hlt : ∀ a, cache.focus a = true → streak a [] < threshold fireAt :=
      fun a _ => threshold_pos fireAt
    rw [launches, receive_eq]
    refine (Trigger.holds_new.run hlt hf (packets.map dataSlot) 0).trans ?_
    simp
  · have hno : ∀ a, cache.focus a ≠ true := fun a ha => hf a (of_decide_eq_true ha)
    rw [firstRun_of_unwanted hno, launches, receive_eq]
    apply List.filterMap_eq_nil_iff.2
    intro entry hmem
    obtain ⟨out, i⟩ := entry
    cases out with
    | none => rfl
    | some a =>
      have hget := List.mk_mem_zipIdx_iff_getElem?.1 hmem
      exact absurd hget (Trigger.run_of_noFocus hf _ _ i a)

end Run

theorem toList_inj {a b : Option α} : a.toList = b.toList ↔ a = b := by
  cases a with
  | none => cases b <;> simp
  | some a => cases b <;> simp

/-- A shred of slot `s` between two packet sequences helps a run of `s` to complete, or breaks one
of another slot that would complete. -/
def Disturbs (cache : LeaderCache) (fireAt : UInt32) (s : UInt64) (pre post : List (List UInt8)) :
    Prop :=
  ∃ a, cache.isFocus a = some true ∧
    (a = s ∧ threshold fireAt ≤ streak a (dataSlots pre) + 1 + lead a (dataSlots post) ∨
      a ≠ s ∧ 0 < streak a (dataSlots pre) ∧
        threshold fireAt ≤ streak a (dataSlots pre) + lead a (dataSlots post))

/-- The place that an original packet has once a packet is inserted at place `k`. -/
def shifted (k : Nat) (launch : Nat × UInt64) : Nat × UInt64 :=
  (if launch.1 < k then launch.1 else launch.1 + 1, launch.2)

theorem disturbs_iff (cache : LeaderCache) (fireAt : UInt32) (s : UInt64)
    (pre post : List (List UInt8)) :
    Disturbs cache fireAt s pre post ↔
      Disagree cache.focus (threshold fireAt) (fun a => streak a (dataSlots pre))
        (push (fun a => streak a (dataSlots pre)) s) (dataSlots post) := by
  rw [Disturbs, Disagree]
  apply exists_congr
  intro a
  rw [LeaderCache.focus, decide_eq_true_eq]
  apply and_congr_right
  intro _
  by_cases ha : a = s
  · subst ha
    rw [push_self, Nat.max_eq_right (Nat.le_succ _)]
    simp
  · rw [push_of_ne ha, Nat.max_eq_left (Nat.zero_le _)]
    simp [ha, Nat.pos_iff_ne_zero]

/-- A copy of a data shred counts like any other shred of its slot: it leaves the launch where it
is exactly if the launch was before it or it disturbs no run. -/
theorem launches_insert_iff (cache : LeaderCache) (fireAt : UInt32) (pre post : List (List UInt8))
    (d : List UInt8) (hd : dataSlot d = some s) :
    launches cache fireAt (pre ++ d :: post) =
        (launches cache fireAt (pre ++ post)).map (shifted pre.length) ↔
      launches cache fireAt pre ≠ [] ∨ ¬Disturbs cache fireAt s pre post := by
  simp only [launches_eq_firstRun, List.map_append, List.map_cons, hd]
  cases hpre :
      firstRun cache.focus (threshold fireAt) (fun a => streak a []) (pre.map dataSlot) with
  | some r =>
    have hlt := firstRun_lt hpre
    rw [List.length_map] at hlt
    rw [firstRun_append_of_some hpre, firstRun_append_of_some hpre]
    simp [shifted, hlt]
  | none =>
    have hslots (packets : List (List UInt8)) :
        (packets.map dataSlot).filterMap id = dataSlots packets := by
      rw [List.filterMap_map]
      rfl
    have hstreaks := foldl_push_streak ([] : List UInt64) (dataSlots pre)
    have hsmall := foldl_push_lt hpre fun a _ => threshold_pos fireAt
    rw [firstRun_append_of_none hpre, firstRun_append_of_none hpre]
    rw [hslots, hstreaks] at hsmall ⊢
    simp only [List.nil_append, List.length_map] at hsmall ⊢
    have hmoved (r : Option (Nat × UInt64)) :
        (r.map fun (i, a) => (i + pre.length, a)).toList.map (shifted pre.length) =
          (r.map fun (i, a) => (i + (pre.length + 1), a)).toList := by
      cases r with
      | none => rfl
      | some r => simp [shifted, Nat.add_assoc]
    rw [hmoved, firstRun, disturbs_iff]
    simp only [ne_eq, Option.toList_none, not_true_eq_false, false_or]
    by_cases hfire : cache.focus s = true ∧ threshold fireAt ≤ streak s (dataSlots pre) + 1
    · -- the copy itself launches
      rw [if_pos hfire]
      apply iff_of_false
      · intro h
        cases hr : firstRun cache.focus (threshold fireAt) (fun a => streak a (dataSlots pre))
          (post.map dataSlot) with
        | none =>
          rw [hr] at h
          cases h
        | some r =>
          rw [hr] at h
          simp only [Option.map_some, Option.toList_some, List.cons.injEq, Prod.mk.injEq] at h
          omega
      · intro h
        apply h
        refine ⟨s, hfire.1, ?_, ?_⟩
        · simp only [push_self]
          omega
        · simp only [push_self]
          omega
    · rw [if_neg hfire, shift_shift, toList_inj, (Option.map_injective shift_injective).eq_iff,
        eq_comm, firstRun_eq_iff hsmall (push_lt hsmall hfire), hslots]

theorem launches_insert_sample :
    launches sampleCache 3 ([sampleShred 100] ++ sampleShred 100 :: [sampleShred 102]) =
        (launches sampleCache 3 ([sampleShred 100] ++ [sampleShred 102])).map (shifted 1) ↔
      launches sampleCache 3 [sampleShred 100] ≠ [] ∨
        ¬Disturbs sampleCache 3 100 [sampleShred 100] [sampleShred 102] :=
  launches_insert_iff sampleCache 3 [sampleShred 100] [sampleShred 102] (sampleShred 100)
    (by decide +kernel)

/-- One data shred that arrives twice launches where two shreds are asked for. -/
theorem launches_on_copy :
    ¬∀ (cache : LeaderCache) (fireAt : UInt32) (pre post : List (List UInt8)) (d : List UInt8),
      d ∈ pre → dataSlot d ≠ none →
        launches cache fireAt (pre ++ d :: post) =
          (launches cache fireAt (pre ++ post)).map (shifted pre.length) := by
  intro h
  have hcopy := h sampleCache 2 [sampleShred 100] [] (sampleShred 100) (List.mem_singleton.2 rfl)
    (by decide +kernel)
  revert hcopy
  decide +kernel

end TokenPumper
