import TokenPumper.Leaders.Window

namespace TokenPumper
open BitStream
set_option autoImplicit true

namespace EpochLeaderMap

/-- There is at least one slot, and the table has an entry for each slot from start to end. -/
def Spans (map : EpochLeaderMap) : Prop :=
  map.slotCodes.length + map.epochStartSlot.toNat = map.epochEndSlot.toNat + 1

instance (map : EpochLeaderMap) : Decidable map.Spans := inferInstanceAs (Decidable (_ = _))

def InEpoch (map : EpochLeaderMap) (slot : UInt64) : Prop :=
  map.epochStartSlot ≤ slot ∧ slot ≤ map.epochEndSlot

instance (map : EpochLeaderMap) (slot : UInt64) : Decidable (map.InEpoch slot) :=
  inferInstanceAs (Decidable (_ ∧ _))

/-- A slot of the epoch whose region code has its bit in the mask of the allowed ones. -/
def Marked (map : EpochLeaderMap) (allowedMask : UInt64) (slot : UInt64) : Prop :=
  map.InEpoch slot ∧ ∃ code, map.slotCodes[(slot - map.epochStartSlot).toNat]? = some code ∧
    regionAllowed allowedMask code = true

/-- The same of a number that may be past the last slot that there can be. -/
def markedAt (map : EpochLeaderMap) (allowedMask : UInt64) (n : Nat) : Bool :=
  decide (map.epochStartSlot.toNat ≤ n) &&
    (map.slotCodes[n - map.epochStartSlot.toNat]?).any (regionAllowed allowedMask)

/-- One of the 64 slots from a base on, if they do not run past the last slot that there can be. -/
def Covers (base : Nat) (slot : UInt64) : Prop :=
  base ≤ slot.toNat ∧ slot.toNat ≤ base + 63 ∧ base + 63 < 2 ^ 64

instance (base : Nat) (slot : UInt64) : Decidable (Covers base slot) :=
  inferInstanceAs (Decidable (_ ∧ _ ∧ _))

/-- Where the window begins when a call has last moved it to a slot. -/
def position (map : EpochLeaderMap) : Option UInt64 → Nat
  | none => map.epochStartSlot.toNat
  | some slot =>
    if map.InEpoch slot then max (slot.toNat - 31) map.epochStartSlot.toNat else slot.toNat - 31

/-- A call moves the window unless the window covers its slot. -/
def moved (map : EpochLeaderMap) (last : Option UInt64) (slot : UInt64) : Option UInt64 :=
  if Covers (map.position last) slot then last else some slot

/-- The slot that a sequence of calls has last moved the window to. -/
def lastMove (map : EpochLeaderMap) (slots : List UInt64) : Option UInt64 :=
  slots.foldl map.moved none

variable {map : EpochLeaderMap} {allowedMask : UInt64}

theorem markedAt_lt (hspan : map.Spans) (h : map.markedAt allowedMask n = true) : n < 2 ^ 64 := by
  rw [markedAt, Bool.and_eq_true, decide_eq_true_eq] at h
  obtain ⟨hstart, hcode⟩ := h
  have hend := map.epochEndSlot.toNat_lt
  rw [Spans] at hspan
  cases hc : map.slotCodes[n - map.epochStartSlot.toNat]? with
  | none =>
    rw [hc] at hcode
    cases hcode
  | some code =>
    obtain ⟨hlt, -⟩ := List.getElem?_eq_some_iff.1 hc
    omega

/-- In the epoch, the table has the slot's entry where the slot's distance from the start says. -/
theorem markedAt_toNat (hspan : map.Spans) (slot : UInt64) :
    map.markedAt allowedMask slot.toNat = true ↔ map.Marked allowedMask slot := by
  rw [Spans] at hspan
  rw [markedAt, Bool.and_eq_true, decide_eq_true_eq, Marked, InEpoch, UInt64.le_iff_toNat_le,
    UInt64.le_iff_toNat_le, Option.any_eq_true]
  constructor
  · rintro ⟨hstart, code, hcode, hallowed⟩
    obtain ⟨hlt, -⟩ := List.getElem?_eq_some_iff.1 hcode
    rw [UInt64.toNat_sub_of_le _ _ (UInt64.le_iff_toNat_le.2 hstart)]
    exact ⟨⟨hstart, by omega⟩, code, hcode, hallowed⟩
  · rintro ⟨⟨hstart, -⟩, code, hcode, hallowed⟩
    rw [UInt64.toNat_sub_of_le _ _ (UInt64.le_iff_toNat_le.2 hstart)] at hcode
    exact ⟨hstart, code, hcode, hallowed⟩

theorem moved_eq_or (map : EpochLeaderMap) (last : Option UInt64) (slot : UInt64) :
    map.moved last slot = last ∨ map.moved last slot = some slot := by
  rw [moved]
  split
  · exact .inl rfl
  · exact .inr rfl

theorem lastMove_mem (h : map.lastMove slots = some x) : x ∈ slots := by
  have hall : ∀ last, slots.foldl map.moved last = some x → last = some x ∨ x ∈ slots := by
    clear h
    induction slots with
    | nil => exact fun last h => .inl h
    | cons slot slots ih =>
      intro last h
      rcases ih _ h with hmoved | hmem
      · rcases map.moved_eq_or last slot with heq | heq
        · exact .inl (heq.symm.trans hmoved)
        · obtain rfl := Option.some.inj (heq.symm.trans hmoved)
          exact .inr List.mem_cons_self
      · exact .inr (List.mem_cons_of_mem slot hmem)
  rcases hall none h with hnone | hmem
  · cases hnone
  · exact hmem

theorem position_moved (last : Option UInt64) (h : map.InEpoch slot) :
    map.position (map.moved last slot) ≤ slot.toNat ∧
      slot.toNat < map.position (map.moved last slot) + 64 := by
  have hstart := UInt64.le_iff_toNat_le.1 h.1
  rw [moved]
  split
  · rename_i hcovers
    obtain ⟨hle, hlt, -⟩ := hcovers
    omega
  · rw [position, if_pos h]
    omega

end EpochLeaderMap

open EpochLeaderMap

namespace FraWindow

variable {map : EpochLeaderMap} {allowedMask : UInt64} {window : FraWindow} {last : Option UInt64}

/-- The mask shows what `f` says about the 64 numbers from the base on. -/
def Shows (window : FraWindow) (f : Nat → Bool) : Prop :=
  ∀ i < 64, window.mask.toBitVec.getLsbD i = f (window.base.toNat + i)

/-- The window over a map, after calls that have last moved it to `last`. Outside the epoch it is
blind. -/
structure Follows (map : EpochLeaderMap) (allowedMask : UInt64) (last : Option UInt64)
    (window : FraWindow) : Prop where
  start : window.epochStartSlot = map.epochStartSlot
  stop : window.epochEndSlot = map.epochEndSlot
  presence : window.presence = buildPresenceBitmap map allowedMask
  base : window.base.toNat = map.position last
  sees : (∀ x, last = some x → map.InEpoch x) → window.Shows (map.markedAt allowedMask)
  blind : ∀ x, last = some x → ¬map.InEpoch x → window.mask = 0

theorem contains_iff : window.contains slot = true ↔
    slot - window.base < 64 ∧ window.mask.toBitVec.getLsbD (slot - window.base).toNat = true := by
  rw [contains]
  by_cases hlt : slot - window.base < 64
  · have hn : (slot - window.base).toNat < 64 := UInt64.lt_iff_toNat_lt.1 hlt
    have hamount : (slot - window.base).toUInt32.toUInt64.toNat % 64 =
        (slot - window.base).toNat := by
      rw [UInt32.toNat_toUInt64, UInt64.toNat_toUInt32]
      omega
    have hbit := toBitVec_lowBit window.mask (slot - window.base).toUInt32.toUInt64
    rw [hamount] at hbit
    simp only [hlt, ↓reduceIte, true_and, bne_iff_ne, ne_eq, ← UInt64.toBitVec_inj,
      UInt64.toBitVec_and, hbit]
    cases window.mask.toBitVec.getLsbD (slot - window.base).toNat <;> decide
  · simp [hlt]

/-- A mask that shows a table has the bits of its slots, also where the 64 numbers run past the
last slot: there the table has none. -/
theorem contains_of_shows (h : window.Shows f) (hf : ∀ n, f n = true → n < 2 ^ 64) :
    window.contains slot = true ↔
      (window.base.toNat ≤ slot.toNat ∧ slot.toNat < window.base.toNat + 64) ∧
        f slot.toNat = true := by
  have hslot := slot.toNat_lt
  have hbase := window.base.toNat_lt
  rw [contains_iff]
  constructor
  · rintro ⟨hlt, hbit⟩
    have hn : (slot - window.base).toNat < 64 := UInt64.lt_iff_toNat_lt.1 hlt
    rw [h _ hn] at hbit
    have hsum := hf _ hbit
    have hback : window.base.toNat + (slot - window.base).toNat = slot.toNat := by
      rw [UInt64.toNat_sub] at hsum ⊢
      omega
    rw [hback] at hbit
    exact ⟨by omega, hbit⟩
  · rintro ⟨⟨hle, hlt⟩, hbit⟩
    have hoff : (slot - window.base).toNat = slot.toNat - window.base.toNat :=
      UInt64.toNat_sub_of_le _ _ (UInt64.le_iff_toNat_le.2 hle)
    have hn : slot.toNat - window.base.toNat < 64 := by omega
    refine ⟨?_, ?_⟩
    · rw [UInt64.lt_iff_toNat_lt, hoff]
      exact hn
    · rw [hoff, h _ hn, Nat.add_sub_cancel' hle, hbit]

theorem not_contains_of_blind (h : window.mask = 0) : window.contains slot = false := by
  rw [Bool.eq_false_iff, ne_eq, contains_iff, h]
  simp

theorem covered_iff (base slot : UInt64) :
    slot ≤ base + 63 ∧ slot ≥ base ↔ Covers base.toNat slot := by
  have hbase := base.toNat_lt
  have hslot := slot.toNat_lt
  have hlit : (63 : UInt64).toNat = 63 := rfl
  rw [ge_iff_le, UInt64.le_iff_toNat_le, UInt64.le_iff_toNat_le, UInt64.toNat_add, hlit, Covers]
  omega

/-- Reading the bitmap at a slot of the epoch, or at its start, shows the table from there on. -/
theorem shows_read {newBase : UInt64} (hbase : map.epochStartSlot ≤ newBase) :
    Shows ⟨newBase, readU64AtBitOffset (buildPresenceBitmap map allowedMask)
      (newBase - map.epochStartSlot), start, stop, bits⟩ (map.markedAt allowedMask) := by
  intro i hi
  have hle := UInt64.le_iff_toNat_le.1 hbase
  have hoff : (newBase - map.epochStartSlot).toNat + i =
      newBase.toNat + i - map.epochStartSlot.toNat := by
    rw [UInt64.toNat_sub_of_le _ _ hbase]
    omega
  have hstart : map.epochStartSlot.toNat ≤ newBase.toNat + i := by omega
  rw [getLsbD_readU64AtBitOffset _ _ hi, hoff, bit_presence, markedAt, decide_eq_true hstart,
    Bool.true_and]

theorem follows_fromMap (map : EpochLeaderMap) (allowed : List String) :
    Follows map (map.allowedMask allowed) none (fromMap map allowed) where
  start := rfl
  stop := rfl
  presence := rfl
  base := rfl
  sees _ := by
    have hread : Shows ⟨map.epochStartSlot, readU64AtBitOffset
        (buildPresenceBitmap map (map.allowedMask allowed))
        (map.epochStartSlot - map.epochStartSlot), map.epochStartSlot, map.epochEndSlot, []⟩
        (map.markedAt (map.allowedMask allowed)) := shows_read (UInt64.le_refl _)
    rw [UInt64.sub_self] at hread
    exact hread
  blind := nofun

theorem Follows.slideTo (h : Follows map allowedMask last window) (slot : UInt64) :
    Follows map allowedMask (map.moved last slot) (window.slideTo slot) := by
  have hbase (highest : UInt64) : (saturatingSub highest halfWindow).toNat = highest.toNat - 31 :=
    toNat_saturatingSub highest halfWindow
  simp only [FraWindow.slideTo, covered_iff, h.base]
  by_cases hcovers : Covers (map.position last) slot
  · rw [if_pos hcovers, moved, if_pos hcovers]
    exact h
  · rw [if_neg hcovers, moved, if_neg hcovers, h.start, h.stop]
    by_cases hin : map.InEpoch slot
    · have hnot : ¬(slot < map.epochStartSlot ∨ slot > map.epochEndSlot) := by
        rw [not_or, UInt64.not_lt, gt_iff_lt, UInt64.not_lt]
        exact hin
      have hmax : map.epochStartSlot ≤ max (saturatingSub slot halfWindow) map.epochStartSlot := by
        rw [UInt64.le_iff_toNat_le, UInt64.toNat_max]
        exact Nat.le_max_right _ _
      rw [if_neg hnot, h.presence]
      refine ⟨rfl, rfl, rfl, ?_, ?_, ?_⟩
      · rw [position, if_pos hin, UInt64.toNat_max, hbase]
      · exact fun _ => shows_read hmax
      · intro x hx hout
        obtain rfl := Option.some.inj hx
        exact absurd hin hout
    · have hout : slot < map.epochStartSlot ∨ slot > map.epochEndSlot := by
        rw [InEpoch, not_and_or, UInt64.not_le, UInt64.not_le] at hin
        exact hin
      rw [if_pos hout]
      refine ⟨rfl, rfl, h.presence, ?_, ?_, ?_⟩
      · rw [position, if_neg hin, hbase]
      · exact fun hall => absurd (hall slot rfl) hin
      · exact fun _ _ _ => rfl

theorem Follows.slides (h : Follows map allowedMask last window) (slots : List UInt64) :
    Follows map allowedMask (slots.foldl map.moved last) (window.slides slots) := by
  induction slots generalizing last window with
  | nil => exact h
  | cons slot slots ih => exact ih (h.slideTo slot)

theorem Follows.contains_iff (hspan : map.Spans) (h : Follows map allowedMask last window)
    (hsees : ∀ x, last = some x → map.InEpoch x) (slot : UInt64) :
    window.contains slot = true ↔
      (window.base.toNat ≤ slot.toNat ∧ slot.toNat < window.base.toNat + 64) ∧
        map.Marked allowedMask slot := by
  rw [contains_of_shows (h.sees hsees) fun n hn => markedAt_lt hspan hn, markedAt_toNat hspan]

theorem Follows.marked (hspan : map.Spans) (h : Follows map allowedMask last window)
    (hslot : window.contains slot = true) : map.Marked allowedMask slot := by
  by_cases hsees : ∀ x, last = some x → map.InEpoch x
  · exact ((h.contains_iff hspan hsees slot).1 hslot).2
  · rw [not_forall] at hsees
    obtain ⟨x, hx⟩ := hsees
    rw [Classical.not_imp] at hx
    rw [not_contains_of_blind (h.blind x hx.1 hx.2)] at hslot
    cases hslot

end FraWindow

open FraWindow

/-- The bit of a single allowed country is the code that the focus test compares with. -/
theorem regionAllowed_singleton (map : EpochLeaderMap) (country : String) (code : UInt8) :
    regionAllowed (map.allowedMask [country]) code = true ↔
      resolveRegionIdx map country = some code := by
  simp only [regionAllowed_iff, getLsbD_allowedMask, List.mem_singleton, exists_eq_left,
    resolveRegionIdx_firstCode, Option.map_eq_some_iff]
  have hback : ∀ c, map.firstCode country = some c → (UInt8.ofNat c).toNat = c := by
    intro c hc
    apply UInt8.toNat_ofNat_of_lt'
    exact Nat.lt_trans (firstCode_lt hc) (by decide)
  constructor
  · intro ⟨_, hc⟩
    exact ⟨_, hc, UInt8.toNat_inj.1 (hback _ hc)⟩
  · intro ⟨c, hc, heq⟩
    rw [← heq, hback c hc]
    exact ⟨firstCode_lt hc, hc⟩

theorem marked_singleton (map : EpochLeaderMap) (country : String) (h : map.InEpoch slot) :
    map.Marked (map.allowedMask [country]) slot ↔
      LeaderCache.isFocus ⟨map, resolveRegionIdx map country⟩ slot = some true := by
  have hnot : ¬(slot < map.epochStartSlot ∨ slot > map.epochEndSlot) := by
    rw [not_or, UInt64.not_lt, gt_iff_lt, UInt64.not_lt]
    exact h
  simp only [Marked, h, true_and, regionAllowed_singleton, LeaderCache.isFocus]
  cases resolveRegionIdx map country with
  | none => simp
  | some idx => simp [hnot, eq_comm]

/-- The window never contains a slot that the plain table does not mark. While the calls stay in
the epoch, it contains exactly the marked ones among 64 slots that include the last call's. -/
theorem window_refines_table (map : EpochLeaderMap) (hspan : map.Spans) (allowed : List String)
    (slots : List UInt64) :
    (∀ slot, ((fromMap map allowed).slides slots).contains slot = true →
      map.Marked (map.allowedMask allowed) slot) ∧
    ((∀ slot ∈ slots, map.InEpoch slot) →
      (∀ slot, ((fromMap map allowed).slides slots).contains slot = true ↔
        (((fromMap map allowed).slides slots).base.toNat ≤ slot.toNat ∧
          slot.toNat < ((fromMap map allowed).slides slots).base.toNat + 64) ∧
        map.Marked (map.allowedMask allowed) slot) ∧
      ∀ last, slots.getLast? = some last →
        ((fromMap map allowed).slides slots).base.toNat ≤ last.toNat ∧
          last.toNat < ((fromMap map allowed).slides slots).base.toNat + 64) ∧
    ∀ country slot, map.InEpoch slot → (map.Marked (map.allowedMask [country]) slot ↔
      LeaderCache.isFocus ⟨map, resolveRegionIdx map country⟩ slot = some true) := by
  have hfollows := (follows_fromMap map allowed).slides slots
  refine ⟨fun slot => hfollows.marked hspan, fun hin => ⟨fun slot => ?_, fun last hlast => ?_⟩,
    fun country slot => marked_singleton map country⟩
  · exact hfollows.contains_iff hspan (fun x hx => hin x (lastMove_mem hx)) slot
  · obtain ⟨past, rfl⟩ := List.getLast?_eq_some_iff.1 hlast
    rw [hfollows.base, List.foldl_append]
    exact position_moved _ (hin last List.mem_concat_self)

/-- The calls so far have left the window blind, over slots with this one among them. -/
def BlindOver (map : EpochLeaderMap) (past : List UInt64) (slot : UInt64) : Prop :=
  ∃ x, map.lastMove past = some x ∧ ¬map.InEpoch x ∧ Covers (x.toNat - 31) slot

/-- After a last call for a slot of the epoch, the window is right about that slot exactly if the
slot is not to be refused anyway or the calls before have not left the window blind over it. -/
theorem contains_last_iff (map : EpochLeaderMap) (hspan : map.Spans) (allowed : List String)
    (past : List UInt64) (slot : UInt64) (hin : map.InEpoch slot) :
    (((fromMap map allowed).slides (past ++ [slot])).contains slot = true ↔
        map.Marked (map.allowedMask allowed) slot) ↔
      ¬map.Marked (map.allowedMask allowed) slot ∨ ¬BlindOver map past slot := by
  have hfollows := (follows_fromMap map allowed).slides (past ++ [slot])
  have hlast : (past ++ [slot]).foldl map.moved none = map.moved (map.lastMove past) slot := by
    rw [List.foldl_append]
    rfl
  rw [hlast] at hfollows
  by_cases hblind : BlindOver map past slot
  · obtain ⟨x, hx, hout, hcovers⟩ := hblind
    have hstay : map.moved (map.lastMove past) slot = some x := by
      rw [hx, moved, position, if_neg hout, if_pos hcovers]
    have hzero := hfollows.blind x hstay hout
    have hnot : ¬((fromMap map allowed).slides (past ++ [slot])).contains slot = true := by
      rw [not_contains_of_blind hzero]
      exact Bool.false_ne_true
    have hdark : BlindOver map past slot := ⟨x, hx, hout, hcovers⟩
    rw [iff_false_left hnot]
    simp only [hdark, not_true_eq_false, or_false]
  · have hsees : ∀ x, map.moved (map.lastMove past) slot = some x → map.InEpoch x := by
      intro x hx
      by_contra hout
      rw [moved] at hx
      split at hx
      · rename_i hcovers
        rw [hx, position, if_neg hout] at hcovers
        exact hblind ⟨x, hx, hout, hcovers⟩
      · obtain rfl := Option.some.inj hx
        exact hout hin
    have hinside : ((fromMap map allowed).slides (past ++ [slot])).base.toNat ≤ slot.toNat ∧
        slot.toNat < ((fromMap map allowed).slides (past ++ [slot])).base.toNat + 64 := by
      rw [hfollows.base]
      exact position_moved _ hin
    simp only [hfollows.contains_iff hspan hsees, hinside, hblind, true_and, not_false_eq_true,
      or_true]

theorem length_noClients : ([] : List SoftwareClient).length ≤ maxSoftwareClients := by decide

def sampleEpoch : EpochLeaderMap where
  epoch := 2
  epochStartSlot := 1000
  epochEndSlot := 1063
  slotsInEpoch := 64
  regions := [⟨#v[70, 82, 65, 0]⟩]
  softwareClients := []
  slotCodes := List.replicate 64 0
  validators := []
  slotCodes_length := rfl
  span_eq := by decide
  regions_length := by decide
  softwareClients_length := length_noClients
  slotCodes_inTable := by decide +kernel
  validators_inTable := by decide +kernel

theorem window_refines_table_sample :
    (∀ slot, ((fromMap sampleEpoch ["FRA"]).slides [1040, 1060]).contains slot = true →
      sampleEpoch.Marked (sampleEpoch.allowedMask ["FRA"]) slot) ∧
    ((∀ slot ∈ [1040, 1060], sampleEpoch.InEpoch slot) →
      (∀ slot, ((fromMap sampleEpoch ["FRA"]).slides [1040, 1060]).contains slot = true ↔
        (((fromMap sampleEpoch ["FRA"]).slides [1040, 1060]).base.toNat ≤ slot.toNat ∧
          slot.toNat < ((fromMap sampleEpoch ["FRA"]).slides [1040, 1060]).base.toNat + 64) ∧
        sampleEpoch.Marked (sampleEpoch.allowedMask ["FRA"]) slot) ∧
      ∀ last : UInt64, [1040, 1060].getLast? = some last →
        ((fromMap sampleEpoch ["FRA"]).slides [1040, 1060]).base.toNat ≤ last.toNat ∧
          last.toNat < ((fromMap sampleEpoch ["FRA"]).slides [1040, 1060]).base.toNat + 64) ∧
    ∀ country slot, sampleEpoch.InEpoch slot →
      (sampleEpoch.Marked (sampleEpoch.allowedMask [country]) slot ↔
        LeaderCache.isFocus ⟨sampleEpoch, resolveRegionIdx sampleEpoch country⟩ slot =
          some true) :=
  window_refines_table sampleEpoch (by decide) ["FRA"] [1040, 1060]

theorem contains_last_iff_sample :
    (((fromMap sampleEpoch ["FRA"]).slides ([2000] ++ [1000])).contains 1000 = true ↔
        sampleEpoch.Marked (sampleEpoch.allowedMask ["FRA"]) 1000) ↔
      ¬sampleEpoch.Marked (sampleEpoch.allowedMask ["FRA"]) 1000 ∨
        ¬BlindOver sampleEpoch [2000] 1000 :=
  contains_last_iff sampleEpoch (by decide) ["FRA"] [2000] 1000 (by decide)

/-- A straggler of the epoch before blinds the window for the first slots of this one. -/
theorem contains_last_fails :
    ¬∀ (map : EpochLeaderMap) (allowed : List String) (past : List UInt64) (slot : UInt64),
      map.Spans → map.InEpoch slot →
      (((fromMap map allowed).slides (past ++ [slot])).contains slot = true ↔
        map.Marked (map.allowedMask allowed) slot) := by
  intro hall
  have hcode : sampleEpoch.slotCodes[((1000 : UInt64) - sampleEpoch.epochStartSlot).toNat]? =
      some 0 := by decide +kernel
  have hallowed : regionAllowed (sampleEpoch.allowedMask ["FRA"]) 0 = true := by decide +kernel
  have hmarked : sampleEpoch.Marked (sampleEpoch.allowedMask ["FRA"]) 1000 :=
    ⟨by decide, 0, hcode, hallowed⟩
  have hcontains := (hall sampleEpoch ["FRA"] [999] 1000 (by decide) (by decide)).2 hmarked
  revert hcontains
  decide +kernel

end TokenPumper
