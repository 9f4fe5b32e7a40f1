import TokenPumper.Leaders.Cache
import TokenPumper.Lib.BitStream
import TokenPumper.Saturating

namespace TokenPumper
open LittleEndian BitStream
set_option autoImplicit true

def halfWindow : UInt64 := 31

/-- The bits of the codes of the regions named; a name that is not in the table sets none. -/
def EpochLeaderMap.allowedMask (map : EpochLeaderMap) (allowed : List String) : UInt64 :=
  allowed.foldl (fun mask name =>
    match Region.fromStr name with
    | none => mask
    | some needle =>
      match map.regions.findIdx? fun r => decide (r = needle) with
      | none => mask
      | some i => mask ||| (1 <<< UInt64.ofNat i)) 0

def markSlot (allowedMask : UInt64) (bits : List UInt64) (entry : UInt8 × Nat) : List UInt64 :=
  let (code, i) := entry
  if code.toNat < maxRegions then
    let hit := (allowedMask >>> code.toUInt64) &&& 1
    bits.modify (i / 64) (· ||| (hit <<< UInt64.ofNat (i % 64)))
  else bits

def buildPresenceBitmap (map : EpochLeaderMap) (allowedMask : UInt64) : List UInt64 :=
  map.slotCodes.zipIdx.foldl (markSlot allowedMask)
    (List.replicate ((map.slotCodes.length + 63) / 64) 0)

def readU64AtBitOffset (bits : List UInt64) (bitOff : UInt64) : UInt64 :=
  let word := (bitOff >>> 6).toNat
  let shift := bitOff &&& 63
  let lo := bits.getD word 0 >>> shift
  if shift = 0 then lo
  else
    let hi := bits.getD (word + 1) 0 <<< (64 - shift)
    lo ||| hi

structure FraWindow where
  base : UInt64
  mask : UInt64
  epochStartSlot : UInt64
  epochEndSlot : UInt64
  presence : List UInt64

namespace FraWindow

def new (presence : List UInt64) (epochStartSlot epochEndSlot : UInt64) : FraWindow :=
  ⟨epochStartSlot, readU64AtBitOffset presence 0, epochStartSlot, epochEndSlot, presence⟩

def fromMap (map : EpochLeaderMap) (allowed : List String) : FraWindow :=
  new (buildPresenceBitmap map (map.allowedMask allowed)) map.epochStartSlot map.epochEndSlot

/-- The shift takes the low bits of its amount, as `wrapping_shr` does. -/
def contains (window : FraWindow) (slot : UInt64) : Bool :=
  let off := slot - window.base
  let bit := (window.mask >>> off.toUInt32.toUInt64) &&& 1
  let inRange : UInt64 := if off < 64 then 1 else 0
  bit &&& inRange != 0

def slideTo (window : FraWindow) (highest : UInt64) : FraWindow :=
  let curEdge := window.base + 63
  if highest ≤ curEdge ∧ highest ≥ window.base then window
  else if highest < window.epochStartSlot ∨ highest > window.epochEndSlot then
    { window with mask := 0, base := saturatingSub highest halfWindow }
  else
    let newBase := max (saturatingSub highest halfWindow) window.epochStartSlot
    let bitOff := newBase - window.epochStartSlot
    { window with mask := readU64AtBitOffset window.presence bitOff, base := newBase }

def slides (window : FraWindow) (slots : List UInt64) : FraWindow := slots.foldl slideTo window

end FraWindow

abbrev streamOf (bits : List UInt64) : List (BitVec 64) := bits.map UInt64.toBitVec

/-- The bit of a region code in the mask of the allowed ones. The unknown code has none. -/
def regionAllowed (allowedMask : UInt64) (code : UInt8) : Bool :=
  decide (code.toNat < maxRegions) && allowedMask.toBitVec.getLsbD code.toNat

theorem regionAllowed_iff : regionAllowed allowedMask code = true ↔
    code.toNat < 64 ∧ allowedMask.toBitVec.getLsbD code.toNat = true := by
  rw [regionAllowed, Bool.and_eq_true, decide_eq_true_eq]
  rfl

theorem getD_streamOf (bits : List UInt64) (i : Nat) :
    (streamOf bits).getD i 0#64 = (bits.getD i 0).toBitVec := by
  rw [List.getD_eq_getElem?_getD, List.getD_eq_getElem?_getD, List.getElem?_map]
  cases bits[i]? <;> rfl

theorem toBitVec_shiftRight (a b : UInt64) :
    (a >>> b).toBitVec = a.toBitVec >>> (b.toNat % 64) := by
  rw [UInt64.toBitVec_shiftRight, BitVec.ushiftRight_eq', BitVec.toNat_umod]
  rfl

theorem toBitVec_shiftLeft (a b : UInt64) : (a <<< b).toBitVec = a.toBitVec <<< (b.toNat % 64) := by
  rw [UInt64.toBitVec_shiftLeft, BitVec.shiftLeft_eq', BitVec.toNat_umod]
  rfl

theorem toBitVec_lowBit (a b : UInt64) :
    ((a >>> b) &&& 1).toBitVec =
      (BitVec.ofBool (a.toBitVec.getLsbD (b.toNat % 64))).setWidth 64 := by
  apply BitVec.eq_of_getLsbD_eq
  intro i hi
  rw [UInt64.toBitVec_and, BitVec.getLsbD_and, toBitVec_shiftRight, BitVec.getLsbD_ushiftRight,
    BitVec.getLsbD_setWidth, BitVec.getLsbD_ofBool]
  cases i with
  | zero => simp
  | succ i => simp

/-- Bit `i` of what is read at an offset is the bit of the stream that far behind the offset. -/
theorem getLsbD_readU64AtBitOffset (bits : List UInt64) (bitOff : UInt64) (hi : i < 64) :
    (readU64AtBitOffset bits bitOff).toBitVec.getLsbD i =
      bit (streamOf bits) (bitOff.toNat + i) := by
  have hword : (bitOff >>> 6).toNat = bitOff.toNat / 64 := by
    rw [UInt64.toNat_shiftRight, Nat.shiftRight_eq_div_pow]
    rfl
  have hshift : (bitOff &&& 63).toNat = bitOff.toNat % 64 := by
    rw [UInt64.toNat_and]
    exact Nat.and_two_pow_sub_one_eq_mod bitOff.toNat 6
  rw [← getLsbD_joined (streamOf bits) bitOff.toNat hi, getD_streamOf, getD_streamOf,
    readU64AtBitOffset, hword]
  have hlt : bitOff.toNat % 64 < 64 := Nat.mod_lt _ (by decide)
  split
  · rename_i hzero
    have hz : bitOff.toNat % 64 = 0 := by
      rw [← hshift, hzero]
      rfl
    rw [toBitVec_shiftRight, hshift, hz]
    simp
  · rename_i hne
    have hnz : bitOff.toNat % 64 ≠ 0 := by
      rw [← hshift]
      exact fun h => hne (UInt64.toNat_inj.1 h)
    have hsub : (64 - (bitOff &&& 63)).toNat = 64 - bitOff.toNat % 64 := by
      rw [UInt64.toNat_sub_of_le, hshift]
      · rfl
      · rw [UInt64.le_iff_toNat_le, hshift]
        exact Nat.le_of_lt hlt
    have hgap : 64 - bitOff.toNat % 64 < 64 := by omega
    rw [UInt64.toBitVec_or, toBitVec_shiftRight, toBitVec_shiftLeft, hshift, hsub,
      Nat.mod_mod, Nat.mod_eq_of_lt hgap]

theorem markSlot_length (allowedMask : UInt64) (bits : List UInt64) (entry : UInt8 × Nat) :
    (markSlot allowedMask bits entry).length = bits.length := by
  obtain ⟨code, i⟩ := entry
  rw [markSlot]
  split
  · exact List.length_modify _ _ _
  · rfl

theorem streamOf_modify (bits : List UInt64) (i : Nat) (f : UInt64 → UInt64)
    (g : BitVec 64 → BitVec 64) (h : ∀ word, (f word).toBitVec = g word.toBitVec) :
    streamOf (bits.modify i f) = (streamOf bits).modify i g := by
  apply List.ext_getElem?
  intro j
  rw [List.getElem?_map, List.getElem?_modify, List.getElem?_modify, List.getElem?_map]
  cases bits[j]? with
  | none => rfl
  | some word =>
    by_cases hij : i = j
    · simp [hij, h]
    · simp [hij]

theorem bit_markSlot (allowedMask : UInt64) {bits : List UInt64} (code : UInt8)
    (hi : i / 64 < bits.length) :
    bit (streamOf (markSlot allowedMask bits (code, i))) j =
      (bit (streamOf bits) j || (decide (j = i) && regionAllowed allowedMask code)) := by
  rw [markSlot]
  split
  · rename_i hcode
    have hcode' : code.toNat < 64 := hcode
    have hlow : code.toUInt64.toNat % 64 = code.toNat := by
      rw [UInt8.toNat_toUInt64, Nat.mod_eq_of_lt hcode']
    have hplace : (UInt64.ofNat (i % 64)).toNat % 64 = i % 64 := by
      rw [UInt64.toNat_ofNat_of_lt' (by simp only [UInt64.size]; omega), Nat.mod_mod]
    have hlen : i / 64 < (streamOf bits).length := by rwa [List.length_map]
    rw [streamOf_modify bits (i / 64) _ (· ||| (BitVec.ofBool (regionAllowed allowedMask
      code)).setWidth 64 <<< (i % 64)), bit_modify (by decide) hlen]
    intro word
    rw [UInt64.toBitVec_or, toBitVec_shiftLeft, toBitVec_lowBit, hlow, hplace, regionAllowed,
      decide_eq_true hcode, Bool.true_and]
  · rename_i hcode
    rw [regionAllowed, decide_eq_false hcode, Bool.false_and, Bool.and_false, Bool.or_false]

theorem bit_markSlots (allowedMask : UInt64) (codes : List UInt8) {bits : List UInt64}
    (hlen : n + codes.length ≤ 64 * bits.length) :
    bit (streamOf ((codes.zipIdx n).foldl (markSlot allowedMask) bits)) j =
      (bit (streamOf bits) j ||
        (decide (n ≤ j) && (codes[j - n]?).any (regionAllowed allowedMask))) := by
  induction codes generalizing n bits with
  | nil => simp
  | cons code codes ih =>
    have hn : n / 64 < bits.length := by
      rw [List.length_cons] at hlen
      omega
    have hrest : n + 1 + codes.length ≤ 64 * (markSlot allowedMask bits (code, n)).length := by
      rw [markSlot_length]
      rw [List.length_cons] at hlen
      omega
    rw [List.zipIdx_cons, List.foldl_cons, ih hrest, bit_markSlot allowedMask code hn,
      Bool.or_assoc]
    congr 1
    rcases Nat.lt_trichotomy j n with hlt | rfl | hgt
    · have h₁ : ¬n ≤ j := Nat.not_le.2 hlt
      have h₂ : ¬n + 1 ≤ j := by omega
      have h₃ : j ≠ n := Nat.ne_of_lt hlt
      simp [h₁, h₂, h₃]
    · have h₂ : ¬j + 1 ≤ j := by omega
      simp [h₂]
    · have h₁ : n ≤ j := Nat.le_of_lt hgt
      have h₂ : n + 1 ≤ j := hgt
      have h₃ : j ≠ n := Nat.ne_of_gt hgt
      have hsub : j - n = j - (n + 1) + 1 := by omega
      simp [h₁, h₂, h₃, hsub]

theorem bit_presence (map : EpochLeaderMap) (allowedMask : UInt64) (j : Nat) :
    bit (streamOf (buildPresenceBitmap map allowedMask)) j =
      (map.slotCodes[j]?).any (regionAllowed allowedMask) := by
  have hlen : 0 + map.slotCodes.length ≤
      64 * (List.replicate ((map.slotCodes.length + 63) / 64) (0 : UInt64)).length := by
    rw [List.length_replicate]
    omega
  have hzero : streamOf (List.replicate ((map.slotCodes.length + 63) / 64) 0) =
      List.replicate ((map.slotCodes.length + 63) / 64) 0#64 := by
    rw [streamOf, List.map_replicate]
    rfl
  rw [buildPresenceBitmap, bit_markSlots allowedMask map.slotCodes hlen, hzero,
    bit_replicate_zero]
  simp

/-- The place of a name in the table, where both searches end. -/
def EpochLeaderMap.firstCode (map : EpochLeaderMap) (name : String) : Option Nat :=
  (Region.fromStr name).bind fun needle => map.regions.findIdx? fun r => decide (r = needle)

theorem EpochLeaderMap.firstCode_lt {map : EpochLeaderMap} (h : map.firstCode name = some c) :
    c < 64 := by
  obtain ⟨needle, -, h⟩ := Option.bind_eq_some_iff.1 h
  obtain ⟨hlt, -⟩ := List.findIdx?_eq_some_iff_getElem.1 h
  exact Nat.lt_of_lt_of_le hlt map.regions_length

theorem resolveRegionIdx_firstCode (map : EpochLeaderMap) (country : String) :
    resolveRegionIdx map country = (map.firstCode country).map UInt8.ofNat := by
  rw [resolveRegionIdx, EpochLeaderMap.firstCode]
  cases Region.fromStr country with
  | none => rfl
  | some needle =>
    simp only [Option.bind_eq_bind, Option.bind_some]
    cases map.regions.findIdx? fun r => decide (r = needle) <;> rfl

theorem getLsbD_setBit (mask : UInt64) (hi : i < 64) :
    (mask ||| (1 <<< UInt64.ofNat i)).toBitVec.getLsbD c = true ↔
      mask.toBitVec.getLsbD c = true ∨ c = i := by
  have hamount : (UInt64.ofNat i).toNat % 64 = i := by
    rw [UInt64.toNat_ofNat_of_lt' (by simp only [UInt64.size]; omega), Nat.mod_eq_of_lt hi]
  have hone : (1 : UInt64).toBitVec = 1#64 := rfl
  rw [UInt64.toBitVec_or, toBitVec_shiftLeft, hamount, hone]
  simp only [BitVec.getLsbD_or, BitVec.getLsbD_shiftLeft, BitVec.getLsbD_one, Bool.or_eq_true,
    Bool.and_eq_true, decide_eq_true_eq, Bool.not_eq_true', decide_eq_false_iff_not]
  apply or_congr_right
  omega

theorem EpochLeaderMap.getLsbD_allowedMask (map : EpochLeaderMap) :
    (map.allowedMask allowed).toBitVec.getLsbD c = true ↔
      ∃ name ∈ allowed, map.firstCode name = some c := by
  suffices h : ∀ mask : UInt64, (allowed.foldl (fun mask name =>
      match Region.fromStr name with
      | none => mask
      | some needle =>
        match map.regions.findIdx? fun r => decide (r = needle) with
        | none => mask
        | some i => mask ||| (1 <<< UInt64.ofNat i)) mask).toBitVec.getLsbD c = true ↔
      mask.toBitVec.getLsbD c = true ∨ ∃ name ∈ allowed, map.firstCode name = some c by
    rw [allowedMask, h 0]
    simp
  intro mask
  induction allowed generalizing mask with
  | nil => simp
  | cons name allowed ih =>
    simp only [List.foldl_cons, ih, List.mem_cons, exists_eq_or_imp, ← or_assoc]
    apply or_congr_left
    cases hs : Region.fromStr name with
    | none => simp [firstCode, hs]
    | some needle =>
      cases hi : map.regions.findIdx? fun r => decide (r = needle) with
      | none => simp [firstCode, hs, hi]
      | some i =>
        have hfirst : map.firstCode name = some i := by rw [firstCode, hs, Option.bind_some, hi]
        simp only [hfirst, hi, Option.some.injEq, getLsbD_setBit mask (firstCode_lt hfirst)]
        exact or_congr_right eq_comm

end TokenPumper
