import TokenPumper.Lib.Text
import TokenPumper.Lib.Fallible
import TokenPumper.Base58
import TokenPumper.Ed25519

namespace TokenPumper
open LittleEndian Fallible
set_option autoImplicit true

def unknownRegionCode : UInt8 := 255

def maxRegions : Nat := 64

def regionLen : Nat := 4

def unknownSoftwareClientIdx : UInt8 := 255

def maxSoftwareClients : Nat := 32

def softwareClientNameLen : Nat := 32

/-- A nonempty text of at most `n` bytes, padded with zeros. -/
def packText (n : Nat) (s : String) : Option (Bytes n) :=
  if h : (Borsh.utf8 s).isEmpty ∨ n < (Borsh.utf8 s).length then none
  else
    some (ofList (Borsh.utf8 s ++ List.replicate (n - (Borsh.utf8 s).length) 0) (by
      rw [List.length_append, List.length_replicate]
      omega))

structure Region where
  bytes : Bytes regionLen
deriving DecidableEq, Repr

def Region.fromStr (s : String) : Option Region := (packText regionLen s).map Region.mk

structure SoftwareClient where
  bytes : Bytes softwareClientNameLen
deriving DecidableEq, Repr

def SoftwareClient.fromStr (s : String) : Option SoftwareClient :=
  (packText softwareClientNameLen s).map SoftwareClient.mk

structure Validator where
  pubkey : Pubkey
  votekey : Pubkey
  regionIdx : UInt8
  isDz : UInt8
  softwareClientIdx : UInt8
deriving DecidableEq, Repr

structure ValidatorWire where
  pubkey : String
  votekey : Option String
  region : Option UInt8
  isDz : Option Bool
  softwareClient : Option UInt8

structure EpochLeaderMapWire where
  epoch : UInt64
  epochStartSlot : UInt64
  epochEndSlot : UInt64
  slotsInEpoch : UInt64
  regions : List String
  softwareClients : List String
  validators : List ValidatorWire
  slots : List UInt8

/-- `epoch_end_slot.saturating_sub(epoch_start_slot) + 1`; a release build wraps the sum. -/
def slotSpan (start stop : UInt64) : UInt64 :=
  UInt64.ofNat (stop.toNat - start.toNat) + 1

def codeInTable (unknown : UInt8) (table : List α) (code : UInt8) : Prop :=
  code = unknown ∨ code.toNat < table.length

instance : Decidable (codeInTable unknown table code) :=
  inferInstanceAs (Decidable (_ ∨ _))

/-- The loaded map with what the loader has checked about it. -/
structure EpochLeaderMap where
  epoch : UInt64
  epochStartSlot : UInt64
  epochEndSlot : UInt64
  slotsInEpoch : UInt64
  regions : List Region
  softwareClients : List SoftwareClient
  slotCodes : List UInt8
  validators : List Validator
  slotCodes_length : slotCodes.length = slotsInEpoch.toNat
  span_eq : slotSpan epochStartSlot epochEndSlot = slotsInEpoch
  regions_length : regions.length ≤ maxRegions
  softwareClients_length : softwareClients.length ≤ maxSoftwareClients
  slotCodes_inTable : ∀ code ∈ slotCodes, codeInTable unknownRegionCode regions code
  validators_inTable : ∀ v ∈ validators, codeInTable unknownRegionCode regions v.regionIdx ∧
    codeInTable unknownSoftwareClientIdx softwareClients v.softwareClientIdx

def decodePubkey [Base58] (s : String) : Except String Pubkey := do
  let bytes ← context s!"base58 decode {Text.debug s}" (Base58.decode s)
  -- the output buffer has 32 bytes
  if 32 < bytes.length then
    .error (s!"base58 decode {Text.debug s}: " ++
      "buffer provided to decode base58 string into was too small")
  else if h : bytes.length = 32 then .ok (ofList bytes h)
  else .error s!"expected 32 bytes, got {bytes.length}"

/-- Pack every name of a table, or report the first that does not fit. -/
def packAll (pack : String → Option α) (report : String → String) :
    (names : List String) → Except String { as : List α // as.length = names.length }
  | [] => .ok ⟨[], rfl⟩
  | name :: names =>
    match pack name with
    | none => .error (report name)
    | some a => do
      let ⟨as, h⟩ ← packAll pack report names
      .ok ⟨a :: as, congrArg (· + 1) h⟩

def ValidatorWire.load [Base58] (v : ValidatorWire) (path : String) (regions : List Region)
    (softwareClients : List SoftwareClient) :
    Except String { v : Validator // codeInTable unknownRegionCode regions v.regionIdx ∧
      codeInTable unknownSoftwareClientIdx softwareClients v.softwareClientIdx } := do
  let pubkey ← context s!"leader cache {path}: bad validator pubkey" (decodePubkey v.pubkey)
  let votekey ← match v.votekey with
    | some s => context s!"leader cache {path}: bad validator votekey" (decodePubkey s)
    | none => .ok (Vector.replicate 32 0)
  let regionIdx := v.region.getD unknownRegionCode
  if hr : codeInTable unknownRegionCode regions regionIdx then
    let softwareClientIdx := v.softwareClient.getD unknownSoftwareClientIdx
    if hc : codeInTable unknownSoftwareClientIdx softwareClients softwareClientIdx then
      .ok ⟨⟨pubkey, votekey, regionIdx, if v.isDz.getD false then 1 else 0, softwareClientIdx⟩,
        hr, hc⟩
    else .error <| s!"leader cache {path}: validator software-client index {softwareClientIdx} " ++
      s!"out of range (softwareClients.len() = {softwareClients.length})"
  else .error <| s!"leader cache {path}: validator region index {regionIdx} out of range " ++
    s!"(regions.len() = {regions.length})"

/-- The first code, with its position, that is neither unknown nor in the table. -/
def badSlot (regions : List Region) : Nat → List UInt8 → Option (Nat × UInt8)
  | _, [] => none
  | i, code :: codes =>
    if codeInTable unknownRegionCode regions code then badSlot regions (i + 1) codes
    else some (i, code)

theorem badSlot_eq_none (h : badSlot regions i codes = none) :
    ∀ code ∈ codes, codeInTable unknownRegionCode regions code := by
  induction codes generalizing i with
  | nil => exact fun code hc => absurd hc List.not_mem_nil
  | cons c codes ih =>
    rw [badSlot] at h
    split at h
    · rename_i hc
      exact List.forall_mem_cons.2 ⟨hc, ih h⟩
    · cases h

def EpochLeaderMap.fromWire [Base58] (wire : EpochLeaderMapWire) (path : String) :
    Except String EpochLeaderMap :=
  if hl : wire.slots.length = wire.slotsInEpoch.toNat then
    if hs : slotSpan wire.epochStartSlot wire.epochEndSlot = wire.slotsInEpoch then
      if hr : wire.regions.length ≤ maxRegions then
        if hc : wire.softwareClients.length ≤ maxSoftwareClients then do
          let ⟨regions, hregions⟩ ← packAll Region.fromStr (fun r =>
            s!"leader cache {path}: region {Text.debug r} is empty or longer than " ++
              s!"{regionLen} bytes") wire.regions
          let ⟨softwareClients, hclients⟩ ← packAll SoftwareClient.fromStr (fun c =>
            s!"leader cache {path}: software client {Text.debug c} is empty or longer than " ++
              s!"{softwareClientNameLen} bytes") wire.softwareClients
          let validators ← wire.validators.mapM (·.load path regions softwareClients)
          match hb : badSlot regions 0 wire.slots with
          | some (i, code) =>
            .error <| s!"leader cache {path}: slots[{i}] = {code} but only " ++
              s!"{regions.length} regions in table"
          | none =>
            .ok {
              epoch := wire.epoch
              epochStartSlot := wire.epochStartSlot
              epochEndSlot := wire.epochEndSlot
              slotsInEpoch := wire.slotsInEpoch
              regions := regions
              softwareClients := softwareClients
              slotCodes := wire.slots
              validators := validators.map Subtype.val
              slotCodes_length := hl
              span_eq := hs
              regions_length := by rwa [hregions]
              softwareClients_length := by rwa [hclients]
              slotCodes_inTable := badSlot_eq_none hb
              validators_inTable := by
                intro v hv
                obtain ⟨w, -, rfl⟩ := List.mem_map.1 hv
                exact w.2
            }
        else .error <| s!"leader cache {path}: softwareClients table has " ++
          s!"{wire.softwareClients.length} entries, max is {maxSoftwareClients}"
      else .error <| s!"leader cache {path}: regions table has {wire.regions.length} entries, " ++
        s!"max is {maxRegions}"
    else .error <| s!"leader cache {path}: epochEndSlot - epochStartSlot + 1 = " ++
      s!"{slotSpan wire.epochStartSlot wire.epochEndSlot} but slotsInEpoch = {wire.slotsInEpoch}"
  else .error <| s!"leader cache {path}: slots.len() = {wire.slots.length} but slotsInEpoch = " ++
    s!"{wire.slotsInEpoch}"

structure LeaderCache where
  map : EpochLeaderMap
  focusRegionIdx : Option UInt8

def resolveRegionIdx (map : EpochLeaderMap) (country : String) : Option UInt8 := do
  let needle ← Region.fromStr country
  let i ← map.regions.findIdx? fun r => decide (r = needle)
  pure (UInt8.ofNat i)

/-- Is the leader of a slot in the focus country? An index past the table is a panic. -/
def LeaderCache.isFocus (cache : LeaderCache) (slot : UInt64) : Option Bool :=
  match cache.focusRegionIdx with
  | none => some false
  | some idx =>
    if slot < cache.map.epochStartSlot ∨ slot > cache.map.epochEndSlot then some false
    else
      (cache.map.slotCodes[(slot - cache.map.epochStartSlot).toNat]?).map fun code =>
        decide (code = idx)

theorem EpochLeaderMap.offset_lt (map : EpochLeaderMap) (slot : UInt64)
    (hne : map.slotCodes ≠ []) (hs : ¬slot < map.epochStartSlot) (he : ¬slot > map.epochEndSlot) :
    (slot - map.epochStartSlot).toNat < map.slotCodes.length := by
  have hlen := map.slotCodes_length
  rw [← map.span_eq, slotSpan] at hlen
  have hpos : map.slotCodes.length ≠ 0 := fun h => hne (List.eq_nil_of_length_eq_zero h)
  have hsl : map.epochStartSlot.toNat ≤ slot.toNat := by
    rw [UInt64.lt_iff_toNat_lt] at hs
    omega
  have hse : slot.toNat ≤ map.epochEndSlot.toNat := by
    rw [gt_iff_lt, UInt64.lt_iff_toNat_lt] at he
    omega
  have hend := map.epochEndSlot.toNat_lt
  have hoff : (slot - map.epochStartSlot).toNat = slot.toNat - map.epochStartSlot.toNat :=
    UInt64.toNat_sub_of_le slot map.epochStartSlot (UInt64.le_iff_toNat_le.2 hsl)
  rw [UInt64.toNat_add, UInt64.toNat_ofNat_of_lt' (by simp only [UInt64.size]; omega),
    UInt64.toNat_one] at hlen
  omega

/-- Only the map of all slots at once, whose span wraps to zero, makes the lookup panic. -/
theorem LeaderCache.isFocus_total (cache : LeaderCache) :
    (∀ slot, cache.isFocus slot ≠ none) ∨ ∀ slot, cache.isFocus slot ≠ some true := by
  by_cases hne : cache.map.slotCodes = []
  · refine .inr fun slot => ?_
    simp only [isFocus, hne, List.getElem?_nil, Option.map_none]
    split
    · simp
    · split <;> simp
  · refine .inl fun slot => ?_
    simp only [isFocus]
    split
    · simp
    · split
      · simp
      · rename_i hout
        rw [not_or] at hout
        have hlt := cache.map.offset_lt slot hne hout.1 hout.2
        simp [hlt]

end TokenPumper
