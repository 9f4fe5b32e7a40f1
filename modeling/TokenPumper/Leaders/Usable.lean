import Mathlib.Data.Set.Card
import Mathlib.Algebra.BigOperators.Intervals
import TokenPumper.Leaders.Loads
import TokenPumper.Leaders.Slides

namespace TokenPumper
open LittleEndian
set_option autoImplicit true

/-- The span where an overflow of the sum is a panic, which is `none`. -/
def slotSpanChecked (start stop : UInt64) : Option UInt64 :=
  if stop.toNat - start.toNat + 1 < 2 ^ 64 then
    some (UInt64.ofNat (stop.toNat - start.toNat) + 1)
  else none

/-- The loader with that check. The span is computed only if the slots are as many as announced. -/
def EpochLeaderMap.fromWireChecked [Base58] (wire : EpochLeaderMapWire) (path : String) :
    Option (Except String EpochLeaderMap) :=
  if wire.slots.length = wire.slotsInEpoch.toNat then
    (slotSpanChecked wire.epochStartSlot wire.epochEndSlot).map fun _ => fromWire wire path
  else some (fromWire wire path)

/-- Number of slots in the table whose leader is in the focus country. -/
def LeaderCache.focusSlotCount (cache : LeaderCache) : Nat :=
  match cache.focusRegionIdx with
  | none => 0
  | some idx => cache.map.slotCodes.count idx

/-- `mask |= 1u64 << i`, where a shift by 64 or more is a panic. -/
def setBit (mask : UInt64) (i : Nat) : Option UInt64 :=
  if i < 64 then some (mask ||| (1 <<< UInt64.ofNat i)) else none

def EpochLeaderMap.allowedMaskChecked (map : EpochLeaderMap) (allowed : List String) :
    Option UInt64 :=
  allowed.foldlM (fun mask name =>
    match Region.fromStr name with
    | none => some mask
    | some needle =>
      match map.regions.findIdx? fun r => decide (r = needle) with
      | none => some mask
      | some i => setBit mask i) 0

/-- `bits[i >> 6] |= hit << (i & 63)`, where an index past the end is a panic. -/
def markSlotChecked (allowedMask : UInt64) (bits : List UInt64) (entry : UInt8 × Nat) :
    Option (List UInt64) :=
  if entry.1.toNat < maxRegions ∧ bits.length ≤ entry.2 / 64 then none
  else some (markSlot allowedMask bits entry)

def buildPresenceBitmapChecked (map : EpochLeaderMap) (allowedMask : UInt64) :
    Option (List UInt64) :=
  map.slotCodes.zipIdx.foldlM (markSlotChecked allowedMask)
    (List.replicate ((map.slotCodes.length + 63) / 64) 0)

def FraWindow.newChecked (presence : List UInt64) (epochStartSlot epochEndSlot : UInt64) :
    Option FraWindow :=
  if epochEndSlot ≥ epochStartSlot then some (new presence epochStartSlot epochEndSlot) else none

def FraWindow.fromMapChecked (map : EpochLeaderMap) (allowed : List String) :
    Option FraWindow := do
  let mask ← map.allowedMaskChecked allowed
  let presence ← buildPresenceBitmapChecked map mask
  newChecked presence map.epochStartSlot map.epochEndSlot

/-- What the code that uses a loaded map relies on. -/
structure EpochLeaderMap.Usable (map : EpochLeaderMap) : Prop where
  ordered : map.epochStartSlot ≤ map.epochEndSlot
  span : map.slotCodes.length = map.epochEndSlot.toNat - map.epochStartSlot.toNat + 1
  slotsInEpoch : map.slotCodes.length = map.slotsInEpoch.toNat
  regions : map.regions.length ≤ 64
  slotCodes : ∀ code ∈ map.slotCodes, code = 255 ∨ code.toNat < map.regions.length
  validators : ∀ v ∈ map.validators, v.regionIdx = 255 ∨ v.regionIdx.toNat < map.regions.length
  clients : ∀ v ∈ map.validators,
    v.softwareClientIdx = 255 ∨ v.softwareClientIdx.toNat < map.softwareClients.length
  isFocus : ∀ idx slot, LeaderCache.isFocus ⟨map, idx⟩ slot ≠ none
  focusSlotCount : ∀ idx, LeaderCache.focusSlotCount ⟨map, idx⟩ =
    Set.ncard {slot | LeaderCache.isFocus ⟨map, idx⟩ slot = some true}
  allowedMask : ∀ allowed, map.allowedMaskChecked allowed = some (map.allowedMask allowed)
  presence : ∀ mask, buildPresenceBitmapChecked map mask = some (buildPresenceBitmap map mask)
  fromMap : ∀ allowed, FraWindow.fromMapChecked map allowed = some (FraWindow.fromMap map allowed)

/-- The document of an epoch of all slots at once: its span does not fit. -/
structure EpochLeaderMapWire.WholeRange (wire : EpochLeaderMapWire) : Prop where
  slots_length : wire.slots.length = wire.slotsInEpoch.toNat
  first : wire.epochStartSlot = 0
  last : wire.epochEndSlot.toNat = 2 ^ 64 - 1

/-- A document of one slot whose epoch ends before it starts, with nothing else to object to. -/
structure EpochLeaderMapWire.Reversed [Base58] (wire : EpochLeaderMapWire) : Prop where
  reversed : wire.epochEndSlot < wire.epochStartSlot
  slots_length : wire.slots.length = 1
  slotsInEpoch : wire.slotsInEpoch = 1
  tables : wire.TablesFit

theorem foldlM_eq_some {f : β → α → Option β} {g : β → α → β} {as : List α}
    (h : ∀ b, ∀ a ∈ as, f b a = some (g b a)) (b : β) :
    as.foldlM f b = some (as.foldl g b) := by
  induction as generalizing b with
  | nil => rfl
  | cons a as ih =>
    rw [List.foldlM_cons, h b a List.mem_cons_self, Option.bind_eq_bind, Option.bind_some,
      List.foldl_cons]
    exact ih (fun b a ha => h b a (List.mem_cons_of_mem _ ha)) (g b a)

theorem lt_of_findIdx? {as : List α} (h : as.findIdx? p = some i) : i < as.length :=
  (List.findIdx?_eq_some_iff_getElem.1 h).1

namespace EpochLeaderMap

theorem allowedMaskChecked_eq (map : EpochLeaderMap) (allowed : List String) :
    map.allowedMaskChecked allowed = some (map.allowedMask allowed) := by
  apply foldlM_eq_some
  intro mask name _
  cases Region.fromStr name with
  | none => rfl
  | some needle =>
    cases hi : map.regions.findIdx? fun r => decide (r = needle) with
    | none => simp only [hi]
    | some i =>
      have hlt : i < 64 := Nat.lt_of_lt_of_le (lt_of_findIdx? hi) map.regions_length
      simp only [hi, setBit, if_pos hlt]

theorem markSlotsChecked_eq (allowedMask : UInt64) {bits : List UInt64} (codes : List UInt8)
    (hlen : n + codes.length ≤ 64 * bits.length) :
    (codes.zipIdx n).foldlM (markSlotChecked allowedMask) bits =
      some ((codes.zipIdx n).foldl (markSlot allowedMask) bits) := by
  induction codes generalizing n bits with
  | nil => rfl
  | cons code codes ih =>
    rw [List.length_cons] at hlen
    have hplace : ¬(code.toNat < maxRegions ∧ bits.length ≤ n / 64) := by
      intro hbad
      have hle := hbad.2
      omega
    rw [List.zipIdx_cons, List.foldlM_cons, markSlotChecked, if_neg hplace, Option.bind_eq_bind,
      Option.bind_some, List.foldl_cons]
    apply ih
    rw [markSlot_length]
    omega

theorem buildPresenceBitmapChecked_eq (map : EpochLeaderMap) (allowedMask : UInt64) :
    buildPresenceBitmapChecked map allowedMask = some (buildPresenceBitmap map allowedMask) := by
  apply markSlotsChecked_eq
  rw [List.length_replicate]
  omega

theorem fromMapChecked_eq {map : EpochLeaderMap} (h : map.epochStartSlot ≤ map.epochEndSlot)
    (allowed : List String) :
    FraWindow.fromMapChecked map allowed = some (FraWindow.fromMap map allowed) := by
  rw [FraWindow.fromMapChecked, allowedMaskChecked_eq, Option.bind_eq_bind, Option.bind_some,
    buildPresenceBitmapChecked_eq, Option.bind_eq_bind, Option.bind_some]
  exact if_pos h

/-- A span that did not overflow, between bounds in their order, is the number of slots. -/
theorem spans {map : EpochLeaderMap} (h : map.epochStartSlot ≤ map.epochEndSlot)
    (hwhole : ¬(map.epochStartSlot = 0 ∧ map.epochEndSlot.toNat = 2 ^ 64 - 1)) : map.Spans := by
  have hle := UInt64.le_iff_toNat_le.1 h
  have hend := map.epochEndSlot.toNat_lt
  have hlen := map.slotCodes_length
  have hgap : map.epochEndSlot.toNat - map.epochStartSlot.toNat + 1 < 2 ^ 64 := by
    by_contra hover
    apply hwhole
    constructor
    · apply UInt64.toNat_inj.1
      rw [UInt64.toNat_zero]
      omega
    · omega
  rw [← map.span_eq, slotSpan, UInt64.toNat_add,
    UInt64.toNat_ofNat_of_lt' (by simp only [UInt64.size]; omega), UInt64.toNat_one,
    Nat.mod_eq_of_lt hgap] at hlen
  rw [Spans]
  omega

end EpochLeaderMap

theorem card_positions [DecidableEq α] (a : α) (as : List α) :
    ((Finset.range as.length).filter fun i => as[i]? = some a).card = as.count a := by
  induction as with
  | nil => rfl
  | cons b as ih =>
    rw [Finset.card_filter, List.length_cons, Finset.sum_range_succ', List.count_cons, ← ih,
      Finset.card_filter]
    simp

namespace LeaderCache

/-- In an epoch with an entry for each of its slots, the focus slots are the places of the code. -/
theorem isFocus_iff {map : EpochLeaderMap} (hspan : map.Spans) (idx : UInt8) (slot : UInt64) :
    isFocus ⟨map, some idx⟩ slot = some true ↔
      ∃ i, map.slotCodes[i]? = some idx ∧ slot.toNat = map.epochStartSlot.toNat + i := by
  rw [EpochLeaderMap.Spans] at hspan
  have hend := map.epochEndSlot.toNat_lt
  simp only [isFocus]
  split
  · rename_i hout
    simp only [Option.some.injEq, Bool.false_eq_true, false_iff, not_exists, not_and]
    intro i hi heq
    obtain ⟨hlt, -⟩ := List.getElem?_eq_some_iff.1 hi
    rw [UInt64.lt_iff_toNat_lt, gt_iff_lt, UInt64.lt_iff_toNat_lt] at hout
    omega
  · rename_i hin
    rw [not_or, UInt64.not_lt, gt_iff_lt, UInt64.not_lt] at hin
    have hsub := UInt64.toNat_sub_of_le slot map.epochStartSlot hin.1
    have hle := UInt64.le_iff_toNat_le.1 hin.1
    rw [Option.map_eq_some_iff]
    constructor
    · intro h
      obtain ⟨code, hcode, heq⟩ := h
      obtain rfl := of_decide_eq_true heq
      exact ⟨_, hcode, by omega⟩
    · intro h
      obtain ⟨i, hi, heq⟩ := h
      have hoff : (slot - map.epochStartSlot).toNat = i := by omega
      exact ⟨idx, by rw [hoff, hi], decide_eq_true rfl⟩

theorem focusSlotCount_eq {map : EpochLeaderMap} (hspan : map.Spans) (idx : Option UInt8) :
    focusSlotCount ⟨map, idx⟩ = Set.ncard {slot | isFocus ⟨map, idx⟩ slot = some true} := by
  cases idx with
  | none =>
    have hempty : {slot | isFocus ⟨map, none⟩ slot = some true} = ∅ := by
      apply Set.eq_empty_of_forall_notMem
      intro slot h
      cases h
    rw [hempty, Set.ncard_empty]
    rfl
  | some idx =>
    have hend := map.epochEndSlot.toNat_lt
    have hslot : ∀ i, map.slotCodes[i]? = some idx →
        (UInt64.ofNat (map.epochStartSlot.toNat + i)).toNat = map.epochStartSlot.toNat + i := by
      intro i hi
      obtain ⟨hlt, -⟩ := List.getElem?_eq_some_iff.1 hi
      rw [EpochLeaderMap.Spans] at hspan
      apply UInt64.toNat_ofNat_of_lt'
      simp only [UInt64.size]
      omega
    have himage : {slot | isFocus ⟨map, some idx⟩ slot = some true} =
        (fun i => UInt64.ofNat (map.epochStartSlot.toNat + i)) ''
          ((Finset.range map.slotCodes.length).filter fun i => map.slotCodes[i]? = some idx) := by
      apply Set.ext
      intro slot
      simp only [Set.mem_ofPred_eq, isFocus_iff hspan, Set.mem_image, Finset.mem_coe,
        Finset.mem_filter, Finset.mem_range]
      constructor
      · intro h
        obtain ⟨i, hi, heq⟩ := h
        obtain ⟨hlt, -⟩ := List.getElem?_eq_some_iff.1 hi
        refine ⟨i, ⟨hlt, hi⟩, ?_⟩
        apply UInt64.toNat_inj.1
        rw [hslot i hi, heq]
      · intro h
        obtain ⟨i, ⟨-, hi⟩, heq⟩ := h
        exact ⟨i, hi, by rw [← heq, hslot i hi]⟩
    rw [himage, Set.InjOn.ncard_image, Set.ncard_coe_finset, card_positions]
    · rfl
    · intro i hi j hj heq
      rw [Finset.mem_coe, Finset.mem_filter] at hi hj
      have hnat := congrArg UInt64.toNat heq
      simp only [hslot i hi.2, hslot j hj.2] at hnat
      omega

end LeaderCache

theorem EpochLeaderMap.usable {map : EpochLeaderMap} (h : map.epochStartSlot ≤ map.epochEndSlot)
    (hwhole : ¬(map.epochStartSlot = 0 ∧ map.epochEndSlot.toNat = 2 ^ 64 - 1)) : map.Usable := by
  have hspan := spans h hwhole
  have hlen : map.slotCodes.length =
      map.epochEndSlot.toNat - map.epochStartSlot.toNat + 1 := by
    have hle := UInt64.le_iff_toNat_le.1 h
    rw [Spans] at hspan
    omega
  constructor
  · exact h
  · exact hlen
  · exact map.slotCodes_length
  · exact map.regions_length
  · exact map.slotCodes_inTable
  · exact fun v hv => (map.validators_inTable v hv).1
  · exact fun v hv => (map.validators_inTable v hv).2
  · intro idx slot hnone
    have hne : map.slotCodes ≠ [] := by
      intro hnil
      rw [hnil] at hlen
      cases hlen
    simp only [LeaderCache.isFocus] at hnone
    split at hnone
    · cases hnone
    · split at hnone
      · cases hnone
      · rename_i hin
        rw [not_or] at hin
        have hlt := map.offset_lt slot hne hin.1 hin.2
        simp [hlt] at hnone
  · exact LeaderCache.focusSlotCount_eq hspan
  · exact allowedMaskChecked_eq map
  · exact buildPresenceBitmapChecked_eq map
  · exact fromMapChecked_eq h

theorem slotSpanChecked_eq_none (start stop : UInt64) :
    slotSpanChecked start stop = none ↔ start = 0 ∧ stop.toNat = 2 ^ 64 - 1 := by
  have hstop := stop.toNat_lt
  rw [slotSpanChecked, ite_eq_right_iff]
  constructor
  · intro h
    have hover : ¬stop.toNat - start.toNat + 1 < 2 ^ 64 := fun hlt => by cases h hlt
    constructor
    · apply UInt64.toNat_inj.1
      rw [UInt64.toNat_zero]
      omega
    · omega
  · intro ⟨hstart, hmax⟩ hlt
    rw [hstart, hmax] at hlt
    exact absurd hlt (by decide)

theorem EpochLeaderMap.fromWireChecked_eq_none [Base58] (wire : EpochLeaderMapWire)
    (path : String) : fromWireChecked wire path = none ↔ wire.WholeRange := by
  rw [fromWireChecked]
  split
  · rename_i hl
    rw [Option.map_eq_none_iff, slotSpanChecked_eq_none]
    constructor
    · intro ⟨hfirst, hlast⟩
      exact ⟨hl, hfirst, hlast⟩
    · intro h
      exact ⟨h.first, h.last⟩
  · rename_i hl
    constructor
    · intro h
      cases h
    · intro h
      exact absurd h.slots_length hl

theorem EpochLeaderMapWire.Reversed.fromWire_isOk [Base58] {wire : EpochLeaderMapWire}
    (h : wire.Reversed) : ∃ map, EpochLeaderMap.fromWire wire path = .ok map := by
  apply EpochLeaderMap.fromWire_isOk_of_fits
  · rw [h.slots_length, h.slotsInEpoch]
    rfl
  · have hlt := UInt64.lt_iff_toNat_lt.1 h.reversed
    have hsub : wire.epochEndSlot.toNat - wire.epochStartSlot.toNat = 0 := by omega
    rw [slotSpan, hsub, h.slotsInEpoch]
    rfl
  · exact h.tables

theorem EpochLeaderMapWire.reversed_of_ok [Base58] {wire : EpochLeaderMapWire}
    (h : EpochLeaderMap.fromWire wire path = .ok map)
    (hlt : wire.epochEndSlot < wire.epochStartSlot) : wire.Reversed := by
  obtain ⟨hl, hlen, htables⟩ := EpochLeaderMap.fromWire_cases h
  have hspan := hl.fits.2.2
  have hlt' := UInt64.lt_iff_toNat_lt.1 hlt
  have hsub : wire.epochEndSlot.toNat - wire.epochStartSlot.toNat = 0 := by omega
  rw [slotSpan, hsub] at hspan
  have hone : wire.slotsInEpoch = 1 := hspan.symm
  refine ⟨hlt, ?_, hone, htables⟩
  rw [hlen, hone]
  rfl

/-- The loader neither overflows nor lets an unusable map through. -/
def EpochLeaderMapWire.Admitted [Base58] (wire : EpochLeaderMapWire) (path : String) : Prop :=
  EpochLeaderMap.fromWireChecked wire path ≠ none ∧
    ∀ map, EpochLeaderMap.fromWire wire path = .ok map → map.Usable

theorem EpochLeaderMapWire.admitted_iff [Base58] (wire : EpochLeaderMapWire) (path : String) :
    wire.Admitted path ↔ ¬wire.WholeRange ∧ ¬wire.Reversed := by
  rw [Admitted, ne_eq, EpochLeaderMap.fromWireChecked_eq_none]
  apply and_congr_right
  intro hwhole
  constructor
  · intro husable hrev
    obtain ⟨map, hmap⟩ : ∃ map, EpochLeaderMap.fromWire wire path = .ok map := hrev.fromWire_isOk
    have hl := EpochLeaderMap.loaded hmap
    have hle := (husable map hmap).ordered
    rw [hl.epochStartSlot, hl.epochEndSlot] at hle
    exact UInt64.not_le.2 hrev.reversed hle
  · intro hrev map hmap
    obtain ⟨hl, hlen, -⟩ := EpochLeaderMap.fromWire_cases hmap
    apply EpochLeaderMap.usable
    · rw [hl.epochStartSlot, hl.epochEndSlot, ← UInt64.not_lt]
      intro hlt
      exact hrev (reversed_of_ok hmap hlt)
    · rw [hl.epochStartSlot, hl.epochEndSlot]
      intro ⟨hfirst, hlast⟩
      exact hwhole ⟨hlen, hfirst, hlast⟩

def bareWire (regions : List String) (start stop count : UInt64) (slots : List UInt8) :
    EpochLeaderMapWire where
  epoch := 1
  epochStartSlot := start
  epochEndSlot := stop
  slotsInEpoch := count
  regions := regions
  softwareClients := []
  validators := []
  slots := slots

theorem bareWire_tablesFit [Base58] (hlen : regions.length ≤ 64) (hr : ∀ r ∈ regions, r = "FR")
    (h : slots.all fun code => code.toNat < regions.length) :
    (bareWire regions start stop count slots).TablesFit := by
  constructor
  · exact hlen
  · exact Nat.zero_le _
  · intro r hmem
    obtain rfl := hr r hmem
    constructor
    · decide
    · decide
  · intro c hc
    cases hc
  · intro v hv
    cases hv
  · intro code hc
    exact .inr (of_decide_eq_true (List.all_eq_true.1 h code hc))

/-- The span of all slots overflows; wrapped to zero it lets an empty table pass, on which every
lookup panics. -/
theorem wholeRange_accepted [Base58] (path : String) :
    EpochLeaderMap.fromWireChecked (bareWire ["FR"] 0 18446744073709551615 0 []) path = none ∧
      ∃ map, EpochLeaderMap.fromWire (bareWire ["FR"] 0 18446744073709551615 0 []) path = .ok map ∧
        LeaderCache.isFocus ⟨map, some 0⟩ 7 = none := by
  have hfit : (bareWire ["FR"] 0 18446744073709551615 0 []).TablesFit :=
    bareWire_tablesFit (by decide) (by decide) (by decide)
  obtain ⟨map, hmap⟩ : ∃ map,
      EpochLeaderMap.fromWire (bareWire ["FR"] 0 18446744073709551615 0 []) path = .ok map :=
    EpochLeaderMap.fromWire_isOk_of_fits rfl rfl hfit
  have hl := EpochLeaderMap.loaded hmap
  refine ⟨rfl, map, hmap, ?_⟩
  simp only [LeaderCache.isFocus, hl.epochStartSlot, hl.epochEndSlot, hl.slotCodes]
  rfl

/-- An epoch that ends before it starts passes with one slot, a focus slot in the count that no
slot number reaches. -/
theorem reversed_accepted [Base58] (path : String) :
    ∃ map, EpochLeaderMap.fromWire (bareWire ["FR"] 5 3 1 [0]) path = .ok map ∧
      map.epochEndSlot < map.epochStartSlot ∧ LeaderCache.focusSlotCount ⟨map, some 0⟩ = 1 ∧
      ∀ slot, LeaderCache.isFocus ⟨map, some 0⟩ slot = some false := by
  have hfit : (bareWire ["FR"] 5 3 1 [0]).TablesFit :=
    bareWire_tablesFit (by decide) (by decide) (by decide)
  obtain ⟨map, hmap⟩ : ∃ map, EpochLeaderMap.fromWire (bareWire ["FR"] 5 3 1 [0]) path = .ok map :=
    EpochLeaderMap.fromWire_isOk_of_fits rfl rfl hfit
  have hl := EpochLeaderMap.loaded hmap
  refine ⟨map, hmap, ?_, ?_, ?_⟩
  · rw [hl.epochStartSlot, hl.epochEndSlot]
    decide
  · simp only [LeaderCache.focusSlotCount, hl.slotCodes]
    rfl
  · intro slot
    simp only [LeaderCache.isFocus, hl.epochStartSlot, hl.epochEndSlot]
    apply if_pos
    by_contra hin
    rw [not_or, UInt64.not_lt, gt_iff_lt, UInt64.not_lt] at hin
    exact absurd (UInt64.le_trans hin.1 hin.2) (by decide)

abbrev noKeys : Base58 := .ofTable []

theorem loader_admits_unusable :
    ¬@EpochLeaderMapWire.Admitted noKeys (bareWire ["FR"] 0 18446744073709551615 0 [])
        "leaders.json" ∧
      ¬@EpochLeaderMapWire.Admitted noKeys (bareWire ["FR"] 5 3 1 [0]) "leaders.json" := by
  constructor
  · intro h
    exact h.1 (@wholeRange_accepted noKeys "leaders.json").1
  · intro h
    obtain ⟨map, hmap, hlt, -⟩ := @reversed_accepted noKeys "leaders.json"
    exact UInt64.not_le.2 hlt (h.2 map hmap).ordered

end TokenPumper
