import TokenPumper.Leaders.Cache

namespace TokenPumper
open LittleEndian Fallible
set_option autoImplicit true

/-- A text that a field of `n` bytes holds. -/
def Packs (n : Nat) (s : String) : Prop :=
  Borsh.utf8 s ≠ [] ∧ (Borsh.utf8 s).length ≤ n

theorem packText_isSome : (packText n s).isSome ↔ Packs n s := by
  rw [packText, Packs]
  split
  · rename_i h
    simp only [Option.isSome_none, Bool.false_eq_true, false_iff, not_and, not_le]
    intro hne
    exact h.resolve_left fun hempty => hne (List.isEmpty_iff.1 hempty)
  · rename_i h
    rw [not_or, List.isEmpty_iff, not_lt] at h
    simpa using h

theorem Region.fromStr_isSome : (Region.fromStr s).isSome ↔ Packs regionLen s := by
  rw [fromStr, Option.isSome_map, packText_isSome]

theorem SoftwareClient.fromStr_isSome :
    (SoftwareClient.fromStr s).isSome ↔ Packs softwareClientNameLen s := by
  rw [fromStr, Option.isSome_map, packText_isSome]

theorem utf8_inj (h : Borsh.utf8 s = Borsh.utf8 s') : s = s' := by
  have heq := Borsh.fromUTF8?_utf8 s
  rw [h, Borsh.fromUTF8?_utf8] at heq
  exact (Option.some.inj heq).symm

theorem packText_inj (hs : 0 ∉ Borsh.utf8 s) (hs' : 0 ∉ Borsh.utf8 s') (h : packText n s = some a)
    (h' : packText n s' = some a) : s = s' := by
  have hbytes : ∀ {s}, 0 ∉ Borsh.utf8 s → packText n s = some a →
      a.toList.takeWhile (· ≠ 0) = Borsh.utf8 s := by
    intro s hs h
    rw [packText] at h
    split at h
    · cases h
    · obtain rfl := Option.some.inj h
      rw [toList_ofList, List.takeWhile_append_of_pos]
      · simp
      · intro b hb
        have hne : b ≠ 0 := fun hz => hs (hz ▸ hb)
        simpa using hne
  exact utf8_inj ((hbytes hs h).symm.trans (hbytes hs' h'))

theorem Region.fromStr_inj (hs : 0 ∉ Borsh.utf8 s) (hs' : 0 ∉ Borsh.utf8 s')
    (h : fromStr s = some r) (h' : fromStr s' = some r) : s = s' := by
  obtain ⟨a, ha, rfl⟩ := Option.map_eq_some_iff.1 h
  obtain ⟨a', ha', heq⟩ := Option.map_eq_some_iff.1 h'
  obtain rfl := Region.mk.inj heq
  exact packText_inj hs hs' ha ha'

theorem packAll_eq_ok {pack : String → Option α} (h : packAll pack report names = .ok res) :
    names.map pack = res.1.map some := by
  induction names with
  | nil =>
    obtain rfl := Except.ok.inj h
    rfl
  | cons name names ih =>
    rw [packAll] at h
    split at h
    · cases h
    · rename_i a hname
      obtain ⟨⟨as, hlen⟩, has, h⟩ := bind_eq_ok h
      obtain rfl := Except.ok.inj h
      rw [List.map_cons, List.map_cons, hname, ih has]

theorem packAll_isOk {pack : String → Option α} (report : String → String)
    (h : ∀ name ∈ names, (pack name).isSome) :
    ∃ res, packAll pack report names = .ok res := by
  induction names with
  | nil => exact ⟨_, rfl⟩
  | cons name names ih =>
    obtain ⟨a, ha⟩ := Option.isSome_iff_exists.1 (h name List.mem_cons_self)
    rw [packAll, ha]
    apply bind_isOk (ih fun n hn => h n (List.mem_cons_of_mem name hn))
    intro as _
    exact ⟨_, rfl⟩

theorem badSlot_isNone (h : ∀ code ∈ codes, codeInTable unknownRegionCode regions code) :
    badSlot regions i codes = none := by
  induction codes generalizing i with
  | nil => rfl
  | cons c codes ih =>
    rw [badSlot, if_pos (h c List.mem_cons_self)]
    exact ih fun code hc => h code (List.mem_cons_of_mem c hc)

structure ValidatorWire.Decodes [Base58] (v : ValidatorWire) : Prop where
  pubkey : ∃ key, decodePubkey v.pubkey = .ok key
  votekey : ∀ s, v.votekey = some s → ∃ key, decodePubkey s = .ok key

/-- Keys that decode, and numbers that are in the tables. -/
structure ValidatorWire.Valid [Base58] (v : ValidatorWire) (regions clients : Nat) : Prop
    extends v.Decodes where
  region : ∀ code, v.region = some code → code.toNat < regions
  client : ∀ code, v.softwareClient = some code → code.toNat < clients

theorem codeInTable_getD (unknown : UInt8) {table : List α}
    (h : ∀ code, c = some code → code.toNat < table.length) :
    codeInTable unknown table (c.getD unknown) := by
  cases c with
  | none => exact .inl rfl
  | some code => exact .inr (h code rfl)

/-- Keys that decode, and numbers that are in the tables or are the one for unknown. -/
structure ValidatorWire.Fits [Base58] (v : ValidatorWire) (regions : List α) (clients : List β) :
    Prop extends v.Decodes where
  region : codeInTable unknownRegionCode regions (v.region.getD unknownRegionCode)
  client : codeInTable unknownSoftwareClientIdx clients
    (v.softwareClient.getD unknownSoftwareClientIdx)

theorem ValidatorWire.load_isOk_of_fits [Base58] {v : ValidatorWire} {regions : List Region}
    {softwareClients : List SoftwareClient} (h : v.Fits regions softwareClients) :
    ∃ res, v.load path regions softwareClients = .ok res := by
  apply bind_isOk (context_isOk h.pubkey)
  intro pubkey _
  cases hs : v.votekey with
  | none =>
    simp only [bind, Except.bind, dif_pos h.region, dif_pos h.client]
    exact ⟨_, rfl⟩
  | some s =>
    apply bind_isOk (context_isOk (h.votekey s hs))
    intro votekey _
    simp only [dif_pos h.region, dif_pos h.client]
    exact ⟨_, rfl⟩

theorem ValidatorWire.fits [Base58] (h : load v path regions softwareClients = .ok res) :
    v.Fits regions softwareClients := by
  obtain ⟨pubkey, hpubkey, h⟩ := bind_eq_ok h
  cases hs : v.votekey with
  | none =>
    simp only [hs, bind, Except.bind] at h
    split at h
    · rename_i hr
      split at h
      · rename_i hc
        refine ⟨⟨⟨pubkey, context_eq_ok hpubkey⟩, ?_⟩, hr, hc⟩
        intro s hsome
        rw [hs] at hsome
        cases hsome
      · cases h
    · cases h
  | some s =>
    simp only [hs] at h
    obtain ⟨votekey, hvotekey, h⟩ := bind_eq_ok h
    split at h
    · rename_i hr
      split at h
      · rename_i hc
        refine ⟨⟨⟨pubkey, context_eq_ok hpubkey⟩, ?_⟩, hr, hc⟩
        intro s' hsome
        obtain rfl := Option.some.inj (hs.symm.trans hsome)
        exact ⟨votekey, context_eq_ok hvotekey⟩
      · cases h
    · cases h

theorem codeInTable_congr {table : List α} {table' : List β} (h : table.length = table'.length) :
    codeInTable unknown table code ↔ codeInTable unknown table' code := by
  rw [codeInTable, codeInTable, h]

/-- All that the loader asks of a document. -/
structure EpochLeaderMapWire.Valid [Base58] (wire : EpochLeaderMapWire) : Prop where
  slots_length : wire.slots.length = wire.slotsInEpoch.toNat
  span : slotSpan wire.epochStartSlot wire.epochEndSlot = wire.slotsInEpoch
  regions_length : wire.regions.length ≤ maxRegions
  clients_length : wire.softwareClients.length ≤ maxSoftwareClients
  regions : ∀ r ∈ wire.regions, Packs regionLen r
  clients : ∀ c ∈ wire.softwareClients, Packs softwareClientNameLen c
  validators : ∀ v ∈ wire.validators, v.Valid wire.regions.length wire.softwareClients.length
  slots : ∀ code ∈ wire.slots, codeInTable unknownRegionCode wire.regions code

/-- All that the loader asks of a document beside the numbers of its header. -/
structure EpochLeaderMapWire.TablesFit [Base58] (wire : EpochLeaderMapWire) : Prop where
  regions_length : wire.regions.length ≤ maxRegions
  clients_length : wire.softwareClients.length ≤ maxSoftwareClients
  regions : ∀ r ∈ wire.regions, Packs regionLen r
  clients : ∀ c ∈ wire.softwareClients, Packs softwareClientNameLen c
  validators : ∀ v ∈ wire.validators, v.Fits wire.regions wire.softwareClients
  slots : ∀ code ∈ wire.slots, codeInTable unknownRegionCode wire.regions code

theorem EpochLeaderMapWire.Valid.tablesFit [Base58] {wire : EpochLeaderMapWire}
    (h : wire.Valid) : wire.TablesFit := by
  constructor
  · exact h.regions_length
  · exact h.clients_length
  · exact h.regions
  · exact h.clients
  · intro v hv
    have hvalid := h.validators v hv
    constructor
    · exact hvalid.toDecodes
    · exact codeInTable_getD unknownRegionCode hvalid.region
    · exact codeInTable_getD unknownSoftwareClientIdx hvalid.client
  · exact h.slots

/-- What the loader takes over from a document. -/
structure EpochLeaderMap.Loaded [Base58] (wire : EpochLeaderMapWire) (map : EpochLeaderMap) :
    Prop where
  epochStartSlot : map.epochStartSlot = wire.epochStartSlot
  epochEndSlot : map.epochEndSlot = wire.epochEndSlot
  slotsInEpoch : map.slotsInEpoch = wire.slotsInEpoch
  regions : wire.regions.map Region.fromStr = map.regions.map some
  clients : wire.softwareClients.map SoftwareClient.fromStr = map.softwareClients.map some
  slotCodes : map.slotCodes = wire.slots
  validators : ∀ v ∈ wire.validators, v.Decodes

theorem packs_of_map_eq {names : List String} {pack : String → Option α} {as : List α}
    (hpack : ∀ {s}, (pack s).isSome → Packs n s) (h : names.map pack = as.map some) :
    ∀ name ∈ names, Packs n name := by
  intro name hname
  have hmem : pack name ∈ as.map some := h ▸ List.mem_map_of_mem hname
  obtain ⟨a, -, ha⟩ := List.mem_map.1 hmem
  exact hpack (ha ▸ rfl)

theorem EpochLeaderMap.fromWire_cases [Base58] (h : fromWire wire path = .ok map) :
    Loaded wire map ∧ wire.slots.length = wire.slotsInEpoch.toNat ∧ wire.TablesFit := by
  rw [fromWire] at h
  split at h
  · rename_i hl
    split at h
    · split at h
      · rename_i hrmax
        split at h
        · rename_i hcmax
          obtain ⟨⟨regions, hrl⟩, hregions, h⟩ := bind_eq_ok h
          obtain ⟨⟨clients, hcl⟩, hclients, h⟩ := bind_eq_ok h
          obtain ⟨validators, hvalidators, h⟩ := bind_eq_ok h
          split at h
          · cases h
          · rename_i hbad
            obtain rfl := Except.ok.inj h
            have hpr := packAll_eq_ok hregions
            have hpc := packAll_eq_ok hclients
            have hfits : ∀ v ∈ wire.validators, v.Fits wire.regions wire.softwareClients := by
              intro v hv
              obtain ⟨loaded, hload⟩ := isOk_of_mapM hvalidators v hv
              have hfit := ValidatorWire.fits hload
              constructor
              · exact hfit.toDecodes
              · exact (codeInTable_congr hrl).1 hfit.region
              · exact (codeInTable_congr hcl).1 hfit.client
            refine ⟨⟨rfl, rfl, rfl, hpr, hpc, rfl, fun v hv => (hfits v hv).toDecodes⟩, hl, ?_⟩
            constructor
            · exact hrmax
            · exact hcmax
            · exact packs_of_map_eq Region.fromStr_isSome.1 hpr
            · exact packs_of_map_eq SoftwareClient.fromStr_isSome.1 hpc
            · exact hfits
            · intro code hc
              exact (codeInTable_congr hrl).1 (badSlot_eq_none hbad code hc)
        · cases h
      · cases h
    · cases h
  · cases h

theorem EpochLeaderMap.loaded [Base58] (h : fromWire wire path = .ok map) : Loaded wire map :=
  (fromWire_cases h).1

theorem EpochLeaderMap.fromWire_isOk_of_fits [Base58] {wire : EpochLeaderMapWire}
    (hl : wire.slots.length = wire.slotsInEpoch.toNat)
    (hs : slotSpan wire.epochStartSlot wire.epochEndSlot = wire.slotsInEpoch)
    (h : wire.TablesFit) : ∃ map, fromWire wire path = .ok map := by
  rw [fromWire, dif_pos hl, dif_pos hs, dif_pos h.regions_length, dif_pos h.clients_length]
  apply bind_isOk (packAll_isOk _ fun r hr => Region.fromStr_isSome.2 (h.regions r hr))
  intro regions _
  apply bind_isOk (packAll_isOk _ fun c hc => SoftwareClient.fromStr_isSome.2 (h.clients c hc))
  intro clients _
  have hvalidators : ∀ v ∈ wire.validators, ∃ res, v.load path regions.1 clients.1 = .ok res := by
    intro v hv
    have hfits := h.validators v hv
    apply ValidatorWire.load_isOk_of_fits
    constructor
    · exact hfits.toDecodes
    · exact (codeInTable_congr regions.2).2 hfits.region
    · exact (codeInTable_congr clients.2).2 hfits.client
  apply bind_isOk (mapM_isOk hvalidators)
  intro validators _
  have hslots : badSlot regions.1 0 wire.slots = none := by
    apply badSlot_isNone
    intro code hc
    exact (codeInTable_congr regions.2).2 (h.slots code hc)
  split
  · rename_i i code hbad
    rw [hslots] at hbad
    cases hbad
  · exact ⟨_, rfl⟩

theorem EpochLeaderMap.fromWire_isOk [Base58] (h : EpochLeaderMapWire.Valid wire) :
    ∃ map, fromWire wire path = .ok map :=
  fromWire_isOk_of_fits h.slots_length h.span h.tablesFit

/-- A document that loads has names that fit and an epoch with as many slots as it says. -/
theorem EpochLeaderMap.Loaded.fits [Base58] (h : Loaded wire map) :
    (∀ r ∈ wire.regions, Packs regionLen r) ∧
      (∀ c ∈ wire.softwareClients, Packs softwareClientNameLen c) ∧
      slotSpan wire.epochStartSlot wire.epochEndSlot = wire.slotsInEpoch := by
  constructor
  · exact packs_of_map_eq Region.fromStr_isSome.1 h.regions
  · constructor
    · exact packs_of_map_eq SoftwareClient.fromStr_isSome.1 h.clients
    · rw [← h.epochStartSlot, ← h.epochEndSlot, ← h.slotsInEpoch]
      exact map.span_eq

end TokenPumper
