import TokenPumper.Leaders.Loads
import TokenPumper.Leaders.Merged

namespace TokenPumper
open Interning Fallible
set_option autoImplicit true

/-- What the fetcher itself asks for. -/
structure Fetched.Builds (f : Fetched) : Prop where
  countries : (f.schedule.keys.filterMap f.mergedCountry).toFinset.card ≤ maxRegions
  clients : (f.schedule.keys.filterMap f.mergedClient).toFinset.card ≤ maxSoftwareClients
  slots : f.epochInfo.slotsInEpoch.toNat < 2 ^ 63

/-- Names that are not longer than the loader's fields. -/
structure Fetched.NamesFit (f : Fetched) : Prop where
  countries : ∀ identity ∈ f.schedule.keys, ∀ country, f.mergedCountry identity = some country →
    (Borsh.utf8 country).length ≤ regionLen
  clients : ∀ identity ∈ f.schedule.keys, ∀ client, f.mergedClient identity = some client →
    (Borsh.utf8 client).length ≤ softwareClientNameLen

/-- What only the loader asks for. -/
structure Fetched.Loads [Base58] (f : Fetched) : Prop extends f.NamesFit where
  span : slotSpan f.epochStartSlot f.epochEndSlot = f.epochInfo.slotsInEpoch
  identities : ∀ identity ∈ f.schedule.keys, ∃ key, decodePubkey identity = .ok key
  votekeys : ∀ identity ∈ f.schedule.keys, ∀ votekey,
    (f.metas identity).bind (·.votePubkey) = some votekey → ∃ key, decodePubkey votekey = .ok key

/-- What it asks for of answers whose keys decode. -/
structure Fetched.Fits (f : Fetched) : Prop extends f.NamesFit where
  slots : f.epochStartSlot.toNat + f.epochInfo.slotsInEpoch.toNat ≤ 2 ^ 64

theorem utf8_ne (h : s ≠ "") : Borsh.utf8 s ≠ [] := by
  intro hs
  exact h (utf8_inj (hs.trans (by decide : [] = Borsh.utf8 "")))

theorem filledVec_eq_ok (h : filledVec byte n = .ok bytes) :
    n.toNat < 2 ^ 63 ∧ bytes = List.replicate n.toNat byte := by
  rw [filledVec] at h
  split at h
  · cases h
  · rename_i hn
    exact ⟨Nat.lt_of_not_le hn, (Except.ok.inj h).symm⟩

structure Fetched.Made (f : Fetched) (file : EpochLeaderMapFile) (regions clients : Table String)
    (time : UInt64) : Prop where
  regions_eq : regionTable f.metas f.schedule.keys = .ok regions
  clients_eq : softwareClientTable f.metas f.schedule.keys = .ok clients
  slots : f.epochInfo.slotsInEpoch.toNat < 2 ^ 63
  file_eq : file = f.document regions clients
    (List.replicate f.epochInfo.slotsInEpoch.toNat unknownRegionCode) time

theorem Fetched.made (f : Fetched) {file : EpochLeaderMapFile} (h : f.file time = .ok file) :
    ∃ regions clients, f.Made file regions clients time := by
  obtain ⟨regions, hregions, h⟩ := bind_eq_ok h
  obtain ⟨clients, hclients, h⟩ := bind_eq_ok h
  obtain ⟨slots, hslots, h⟩ := bind_eq_ok h
  obtain ⟨hlt, rfl⟩ := filledVec_eq_ok hslots
  exact ⟨regions, clients, hregions, hclients, hlt, (Except.ok.inj h).symm⟩

theorem Fetched.file_isOk_iff (f : Fetched) : (∃ file, f.file time = .ok file) ↔ f.Builds := by
  have hr : (∃ table, regionTable f.metas f.schedule.keys = .ok table) ↔ _ :=
    internField_isOk_iff f.metas_country
  have hc : (∃ table, softwareClientTable f.metas f.schedule.keys = .ok table) ↔ _ :=
    internField_isOk_iff f.metas_softwareClient
  constructor
  · intro h
    obtain ⟨file, h⟩ := h
    obtain ⟨regions, clients, h⟩ := f.made h
    exact ⟨hr.1 ⟨regions, h.regions_eq⟩, hc.1 ⟨clients, h.clients_eq⟩, h.slots⟩
  · intro h
    apply bind_isOk (hr.2 h.countries)
    intro regions _
    apply bind_isOk (hc.2 h.clients)
    intro clients _
    have hslots : filledVec unknownRegionCode f.epochInfo.slotsInEpoch = .ok _ :=
      if_neg (Nat.not_le.2 h.slots)
    apply bind_isOk ⟨_, hslots⟩
    intro slots _
    exact ⟨_, rfl⟩

theorem slotSpan_eq_iff (start n : UInt64) (hn : 1 ≤ n.toNat) :
    slotSpan start (start + n - 1) = n ↔ start.toNat + n.toNat ≤ 2 ^ 64 := by
  have hs := start.toNat_lt
  have hn' := n.toNat_lt
  have hend : (start + n - 1).toNat = (start.toNat + n.toNat - 1) % 2 ^ 64 := by
    rw [UInt64.toNat_sub, UInt64.toNat_add, UInt64.toNat_one]
    omega
  rw [slotSpan, ← UInt64.toNat_inj, UInt64.toNat_add, UInt64.toNat_ofNat', UInt64.toNat_one, hend]
  omega

theorem codeIn_lt {table : Table String} (hlen : table.names.length ≤ 256)
    (h : codeIn table field metas identity = some code) : code.toNat < table.names.length := by
  obtain ⟨i, hi, rfl⟩ := Option.map_eq_some_iff.1 h
  obtain ⟨name, -, hcode⟩ := Option.bind_eq_some_iff.1 hi
  have hlt := table.code_lt hcode
  rwa [UInt8.toNat_ofNat_of_lt' (by simp only [UInt8.size]; omega)]

section Made
variable {f : Fetched} {file : EpochLeaderMapFile} {regions clients : Table String}
  (h : f.Made file regions clients time)
include h

theorem Fetched.Made.mem_regions :
    name ∈ regions.names ↔ ∃ identity ∈ f.schedule.keys, f.mergedCountry identity = some name :=
  mem_internField f.metas_country h.regions_eq

theorem Fetched.Made.mem_clients :
    name ∈ clients.names ↔ ∃ identity ∈ f.schedule.keys, f.mergedClient identity = some name :=
  mem_internField f.metas_softwareClient h.clients_eq

theorem Fetched.Made.regions_length : regions.names.length ≤ maxRegions :=
  length_internField_le h.regions_eq

theorem Fetched.Made.clients_length : clients.names.length ≤ maxSoftwareClients :=
  length_internField_le h.clients_eq

theorem Fetched.Made.valid [Base58] (hloads : f.Loads) : file.wire.Valid := by
  have hr := h.regions_length
  have hc := h.clients_length
  have hlen : regions.names.length ≤ 256 := hr.trans (by decide)
  rw [h.file_eq]
  constructor
  case slots_length => simp [EpochLeaderMapFile.wire, Fetched.document]
  case span => exact hloads.span
  case regions_length => exact hr
  case clients_length => exact hc
  case regions =>
    intro country hmem
    obtain ⟨identity, hkey, hcountry⟩ := h.mem_regions.1 hmem
    exact ⟨utf8_ne (f.mergedCountry_ne hcountry), hloads.countries identity hkey country hcountry⟩
  case clients =>
    intro client hmem
    obtain ⟨identity, hkey, hclient⟩ := h.mem_clients.1 hmem
    exact ⟨utf8_ne (f.mergedClient_ne hclient), hloads.clients identity hkey client hclient⟩
  case validators =>
    intro v hv
    obtain ⟨out, hout, rfl⟩ := List.mem_map.1 hv
    obtain ⟨identity, hkey, rfl⟩ := List.mem_map.1 hout
    refine ⟨⟨hloads.identities identity hkey, hloads.votekeys identity hkey⟩, ?_, ?_⟩
    · intro code hcode
      exact codeIn_lt hlen hcode
    · intro code hcode
      exact codeIn_lt (hc.trans (by decide)) hcode
  case slots =>
    intro code hmem
    simp only [EpochLeaderMapFile.wire, Fetched.document] at hmem
    rcases mem_slotTable hmem with hmem | hmem
    · exact .inl (List.eq_of_mem_replicate hmem)
    · obtain ⟨entry, -, rfl⟩ := hmem
      exact codeInTable_getD unknownRegionCode fun code hcode => codeIn_lt hlen hcode

/-- A document that was made from what is fetched loads exactly if the loader has nothing against
it. -/
theorem Fetched.Made.loads_iff [Base58] (path : String) :
    (∃ map, EpochLeaderMap.fromWire file.wire path = .ok map) ↔ f.Loads := by
  constructor
  · intro hmap
    obtain ⟨map, hmap⟩ := hmap
    have hl := EpochLeaderMap.loaded hmap
    obtain ⟨hregions, hclients, hspan⟩ := hl.fits
    have hvalidators := hl.validators
    rw [h.file_eq] at hregions hclients hspan hvalidators
    have hout : ∀ identity ∈ f.schedule.keys,
        (validatorOut f.metas regions clients identity).wire.Decodes := by
      intro identity hkey
      exact hvalidators _ (List.mem_map_of_mem (List.mem_map_of_mem hkey))
    constructor
    case toNamesFit =>
      constructor
      · intro identity hkey country hcountry
        exact (hregions country (h.mem_regions.2 ⟨identity, hkey, hcountry⟩)).2
      · intro identity hkey client hclient
        exact (hclients client (h.mem_clients.2 ⟨identity, hkey, hclient⟩)).2
    case span => exact hspan
    case identities => exact fun identity hkey => (hout identity hkey).pubkey
    case votekeys => exact fun identity hkey => (hout identity hkey).votekey
  · intro hloads
    exact EpochLeaderMap.fromWire_isOk (h.valid hloads)

end Made

/-- Of keys that decode, only the names and the end of the epoch are left to ask about. -/
theorem Fetched.loads_iff_fits [Base58] (f : Fetched) (hpos : 1 ≤ f.epochInfo.slotsInEpoch)
    (hidentity : ∀ identity ∈ f.schedule.keys, ∃ key, decodePubkey identity = .ok key)
    (hvote : ∀ v ∈ f.vote.current ++ f.vote.delinquent, ∃ key, decodePubkey v.votePubkey = .ok key) :
    f.Loads ↔ f.Fits := by
  have hspan := slotSpan_eq_iff f.epochStartSlot f.epochInfo.slotsInEpoch
    (UInt64.le_iff_toNat_le.1 hpos)
  constructor
  · intro h
    exact ⟨h.toNamesFit, hspan.1 h.span⟩
  · intro h
    refine ⟨h.toNamesFit, hspan.2 h.slots, hidentity, ?_⟩
    intro identity _ votekey hvotekey
    obtain ⟨v, hv, rfl⟩ := f.mem_of_metas hvotekey
    exact hvote v hv

/-- What the fetcher writes, the loader accepts, unless a name is longer than its field or the
epoch ends behind the last slot that there is. -/
theorem fetched_loads_iff [Base58] (f : Fetched) (time : UInt64) (path : String)
    (hpos : 1 ≤ f.epochInfo.slotsInEpoch)
    (hidentity : ∀ identity ∈ f.schedule.keys, ∃ key, decodePubkey identity = .ok key)
    (hvote : ∀ v ∈ f.vote.current ++ f.vote.delinquent, ∃ key, decodePubkey v.votePubkey = .ok key) :
    (∀ file, f.file time = .ok file → ∃ map, EpochLeaderMap.fromWire file.wire path = .ok map) ↔
      (f.Builds → f.Fits) := by
  rw [← f.loads_iff_fits hpos hidentity hvote]
  constructor
  · intro hall hbuilds
    obtain ⟨file, hfile⟩ := f.file_isOk_iff.2 hbuilds
    obtain ⟨regions, clients, h⟩ := f.made hfile
    exact (h.loads_iff path).1 (hall file hfile)
  · intro hloads file hfile
    obtain ⟨regions, clients, h⟩ := f.made hfile
    exact (h.loads_iff path).2 (hloads (f.file_isOk_iff.1 ⟨file, hfile⟩))

/-- An epoch of three slots with two leaders, the first of them in the country of the given data
center. -/
def sampleFetched (dataCenterKey : String) : Fetched where
  epochInfo := ⟨2, 1, 3, 1001⟩
  schedule := {
    entries := [("11111111111111111111111111111111", [0, 2]),
      ("11111111111111111111111111111112", [1])]
    nodup := by decide
  }
  vote := ⟨[⟨"11111111111111111111111111111111", "11111111111111111111111111111112"⟩], []⟩
  vapp := .wrapped [⟨some "11111111111111111111111111111111", some dataCenterKey, some true,
    some " Agave 2.0.4 "⟩, ⟨none, none, none, none⟩]

abbrev sampleIdentities : Base58 := .ofTable
  [("11111111111111111111111111111111", List.replicate 32 0),
    ("11111111111111111111111111111112", List.replicate 31 0 ++ [1])]

theorem sampleFetched_decodes (dataCenterKey : String) :
    (∀ identity ∈ (sampleFetched dataCenterKey).schedule.keys,
      ∃ key, @decodePubkey sampleIdentities identity = .ok key) ∧
    ∀ v ∈ (sampleFetched dataCenterKey).vote.current ++ (sampleFetched dataCenterKey).vote.delinquent,
      ∃ key, @decodePubkey sampleIdentities v.votePubkey = .ok key := by
  have hall : ∀ s ∈ ["11111111111111111111111111111111", "11111111111111111111111111111112"],
      (@decodePubkey sampleIdentities s).isOk = true := by decide +kernel
  constructor
  · intro identity hkey
    exact exists_of_isOk (hall identity hkey)
  · intro v hv
    obtain rfl := List.mem_singleton.1 hv
    exact exists_of_isOk (hall _ (by decide))

theorem fetched_loads_iff_sample :
    (∀ file, (sampleFetched "9-DE-Falkenstein").file 0 = .ok file →
      ∃ map, @EpochLeaderMap.fromWire sampleIdentities file.wire "2.json" = .ok map) ↔
    ((sampleFetched "9-DE-Falkenstein").Builds → (sampleFetched "9-DE-Falkenstein").Fits) :=
  @fetched_loads_iff sampleIdentities (sampleFetched "9-DE-Falkenstein") 0 "2.json" (by decide)
    (sampleFetched_decodes _).1 (sampleFetched_decodes _).2

/-- A data center key with a longer second part is written and cannot be loaded. -/
theorem fetched_does_not_load :
    ¬ ∀ (_ : Base58) (f : Fetched) (time : UInt64) (path : String),
      f.epochInfo.slotIndex ≤ f.epochInfo.absoluteSlot → 1 ≤ f.epochInfo.slotsInEpoch →
      (∀ identity ∈ f.schedule.keys, ∃ key, decodePubkey identity = .ok key) →
      (∀ v ∈ f.vote.current ++ f.vote.delinquent, ∃ key, decodePubkey v.votePubkey = .ok key) →
      ∀ file, f.file time = .ok file → ∃ map, EpochLeaderMap.fromWire file.wire path = .ok map := by
  intro hall
  obtain ⟨hidentity, hvote⟩ := sampleFetched_decodes "9-Falkenstein"
  have hbuilds : (sampleFetched "9-Falkenstein").Builds := by
    constructor <;> decide +kernel
  obtain ⟨file, hfile⟩ := (sampleFetched "9-Falkenstein").file_isOk_iff.2 hbuilds
  have hmap := hall sampleIdentities (sampleFetched "9-Falkenstein") 0 "2.json" (by decide)
    (by decide) hidentity hvote file hfile
  obtain ⟨regions, clients, h⟩ := (sampleFetched "9-Falkenstein").made hfile
  let _ := sampleIdentities
  have hlen := (h.loads_iff "2.json").1 hmap |>.countries "11111111111111111111111111111111"
    List.mem_cons_self "Falkenstein" (by decide +kernel)
  exact absurd hlen (by decide +kernel)

end TokenPumper
