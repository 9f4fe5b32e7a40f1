import TokenPumper.Leaders.Fetched

namespace TokenPumper
open Interning Fallible
set_option autoImplicit true

def EpochLeaderMap.cacheFor (map : EpochLeaderMap) (focusCountry : String) : LeaderCache :=
  ⟨map, resolveRegionIdx map focusCountry⟩

/-- The slot at an index of the epoch is scheduled to an identity of that country. -/
def Fetched.FocusSlot (f : Fetched) (country : String) (i : Nat) : Prop :=
  ∃ entry ∈ f.schedule.entries, i ∈ entry.2.map UInt32.toNat ∧
    f.mergedCountry entry.1 = some country

instance (f : Fetched) (country : String) (i : Nat) : Decidable (f.FocusSlot country i) :=
  inferInstanceAs (Decidable (∃ _ ∈ _, _))

theorem findIdx?_congr {as : List α} {p q : α → Bool} (h : ∀ a ∈ as, p a = q a) :
    as.findIdx? p = as.findIdx? q := by
  induction as with
  | nil => rfl
  | cons a as ih =>
    obtain ⟨ha, hrest⟩ := List.forall_mem_cons.1 h
    rw [List.findIdx?_cons, List.findIdx?_cons, ha, ih hrest]

theorem resolveRegionIdx_eq [Base58] {regions : Table String} (hl : EpochLeaderMap.Loaded wire map)
    (hnames : wire.regions = regions.names) (hnul : ∀ r ∈ regions.names, 0 ∉ Borsh.utf8 r)
    (hcountry : 0 ∉ Borsh.utf8 country) :
    resolveRegionIdx map country = (regions.code country).map UInt8.ofNat := by
  have hregions := hl.regions
  have hpacks := hl.fits.1
  rw [hnames] at hregions hpacks
  rw [resolveRegionIdx]
  cases hs : Region.fromStr country with
  | none =>
    have hnone : regions.code country = none := by
      rw [← Option.not_isSome_iff_eq_none, Table.code_isSome]
      intro hmem
      have hsome := Region.fromStr_isSome.2 (hpacks country hmem)
      rw [hs] at hsome
      cases hsome
    rw [hnone]
    rfl
  | some needle =>
    have hfind : map.regions.findIdx? (fun r => decide (r = needle)) = regions.code country := by
      calc map.regions.findIdx? (fun r => decide (r = needle))
        _ = (map.regions.map some).findIdx? fun r => decide (r = some needle) := by
          rw [List.findIdx?_map]
          apply findIdx?_congr
          intro r _
          simp
        _ = regions.names.findIdx? fun r => decide (Region.fromStr r = some needle) := by
          rw [← hregions, List.findIdx?_map]
          rfl
        _ = regions.code country := by
          apply findIdx?_congr
          intro r hr
          rw [Bool.eq_iff_iff, decide_eq_true_iff, beq_iff_eq]
          constructor
          · intro hpack
            exact Region.fromStr_inj (hnul r hr) hcountry hpack hs
          · intro heq
            rwa [heq]
    change ((map.regions.findIdx? fun r => decide (r = needle)).bind
      fun i => some (UInt8.ofNat i)) = _
    rw [hfind]
    exact Option.map_eq_bind.symm

theorem getD_unknown_eq_iff {number : Option Nat} (hlt : ∀ i, number = some i → i < maxRegions)
    (hj : j < maxRegions) :
    (number.map UInt8.ofNat).getD unknownRegionCode = UInt8.ofNat j ↔ number = some j := by
  have hbyte : ∀ {i}, i < maxRegions → (UInt8.ofNat i).toNat = i := by
    intro i hi
    exact UInt8.toNat_ofNat_of_lt' (hi.trans (by decide))
  rw [← UInt8.toNat_inj, hbyte hj]
  cases number with
  | none =>
    have hne : unknownRegionCode.toNat ≠ j := by
      intro heq
      rw [← heq] at hj
      exact absurd hj (by decide)
    simpa using hne
  | some i =>
    rw [Option.map_some, Option.getD_some, hbyte (hlt i rfl), Option.some.injEq]

section Made
variable {f : Fetched} {file : EpochLeaderMapFile} {regions clients : Table String}
  (h : f.Made file regions clients time)
include h

theorem Fetched.Made.code_eq_iff (hj : regions.code country = some j) (identity : String) :
    (codeIn regions (·.country) f.metas identity).getD unknownRegionCode = UInt8.ofNat j ↔
      f.mergedCountry identity = some country := by
  have hlt : ∀ {name i}, regions.code name = some i → i < maxRegions :=
    fun hi => (regions.code_lt hi).trans_le h.regions_length
  have hnumber : ∀ i, (f.mergedCountry identity).bind regions.code = some i → i < maxRegions := by
    intro i hi
    obtain ⟨name, -, hname⟩ := Option.bind_eq_some_iff.1 hi
    exact hlt hname
  rw [codeIn, f.metas_country, getD_unknown_eq_iff hnumber (hlt hj), Option.bind_eq_some_iff]
  constructor
  · intro h
    obtain ⟨name, hname, hcode⟩ := h
    rw [hname, Table.code_inj hcode hj]
  · intro hname
    exact ⟨country, hname, hj⟩

/-- The code of a slot is the country's exactly if the slot is scheduled to one of its
identities. -/
theorem Fetched.Made.slots_getElem? (hdisj : DisjointSlots f.schedule.entries)
    (hj : regions.code country = some j) (hi : i < f.epochInfo.slotsInEpoch.toNat) :
    file.slots[i]?.map (fun code => decide (code = UInt8.ofNat j)) =
      some (decide (f.FocusSlot country i)) := by
  simp only [h.file_eq, Fetched.document]
  by_cases hled : ∃ entry ∈ f.schedule.entries, i ∈ entry.2.map UInt32.toNat
  · obtain ⟨entry, hentry, hmem⟩ := hled
    rw [slotTable_led hdisj hentry hmem _ (by rwa [List.length_replicate]), Option.map_some,
      Option.some.injEq, decide_eq_decide, h.code_eq_iff hj]
    constructor
    · intro hcountry
      exact ⟨entry, hentry, hmem, hcountry⟩
    · intro hfocus
      obtain ⟨entry', hentry', hmem', hcountry⟩ := hfocus
      rwa [hdisj.eq hentry hentry' hmem hmem']
  · have hunled : ∀ entry ∈ f.schedule.entries, i ∉ entry.2.map UInt32.toNat :=
      fun entry hentry hmem => hled ⟨entry, hentry, hmem⟩
    have hjlt : j < maxRegions := (regions.code_lt hj).trans_le h.regions_length
    have hunknown : unknownRegionCode ≠ UInt8.ofNat j := by
      intro heq
      have hnone : none = some j := (getD_unknown_eq_iff (by simp) hjlt).1 heq
      cases hnone
    have hfocus : ¬ f.FocusSlot country i := by
      intro hfocus
      obtain ⟨entry, hentry, hmem, -⟩ := hfocus
      exact hunled entry hentry hmem
    rw [slotTable_unled hunled, List.getElem?_replicate, if_pos hi, Option.map_some]
    simp [hunknown, hfocus]

theorem Fetched.Made.epochStartSlot_eq [Base58] (hl : EpochLeaderMap.Loaded file.wire map) :
    map.epochStartSlot = f.epochStartSlot := by
  rw [hl.epochStartSlot, h.file_eq]
  rfl

theorem Fetched.Made.isFocus_eq [Base58] (hdisj : DisjointSlots f.schedule.entries)
    (hnul : ∀ identity ∈ f.schedule.keys, ∀ c, f.mergedCountry identity = some c →
      0 ∉ Borsh.utf8 c)
    (hl : EpochLeaderMap.Loaded file.wire map) (hcountry : 0 ∉ Borsh.utf8 country) (slot : UInt64) :
    (map.cacheFor country).isFocus slot =
      if (∀ identity ∈ f.schedule.keys, f.mergedCountry identity ≠ some country) ∨
          slot < f.epochStartSlot ∨ slot > f.epochEndSlot then some false
      else if (slot - f.epochStartSlot).toNat < f.epochInfo.slotsInEpoch.toNat then
        some (decide (f.FocusSlot country (slot - f.epochStartSlot).toNat))
      else none := by
  have hnames : file.wire.regions = regions.names := by rw [h.file_eq]; rfl
  have hslots : map.slotCodes = file.slots := hl.slotCodes
  have hstart := h.epochStartSlot_eq hl
  have hend : map.epochEndSlot = f.epochEndSlot := by
    rw [hl.epochEndSlot, h.file_eq]
    rfl
  have hlen : map.slotCodes.length = f.epochInfo.slotsInEpoch.toNat := by
    rw [map.slotCodes_length, hl.slotsInEpoch, h.file_eq]
    rfl
  have hnul' : ∀ r ∈ regions.names, 0 ∉ Borsh.utf8 r := by
    intro r hr
    obtain ⟨identity, hkey, hr⟩ := h.mem_regions.1 hr
    exact hnul identity hkey r hr
  rw [LeaderCache.isFocus, EpochLeaderMap.cacheFor, resolveRegionIdx_eq hl hnames hnul' hcountry,
    hstart, hend]
  cases hj : regions.code country with
  | none =>
    have hnobody : ∀ identity ∈ f.schedule.keys, f.mergedCountry identity ≠ some country := by
      intro identity hkey hmerged
      have hsome := Table.code_isSome.2 (h.mem_regions.2 ⟨identity, hkey, hmerged⟩)
      rw [hj] at hsome
      cases hsome
    rw [if_pos (.inl hnobody)]
    rfl
  | some j =>
    have hsomebody : ¬ ∀ identity ∈ f.schedule.keys, f.mergedCountry identity ≠ some country := by
      intro hnobody
      have hmem : country ∈ regions.names := Table.code_isSome.1 (hj ▸ rfl)
      obtain ⟨identity, hkey, hmerged⟩ := h.mem_regions.1 hmem
      exact hnobody identity hkey hmerged
    simp only [Option.map_some, or_iff_right hsomebody]
    split
    · rfl
    · split
      · rename_i hi
        rw [hslots]
        exact h.slots_getElem? hdisj hj hi
      · rename_i hi
        rw [List.getElem?_eq_none (by omega)]
        rfl

theorem Fetched.Made.slots_le [Base58] (hpos : 1 ≤ f.epochInfo.slotsInEpoch.toNat)
    (hl : EpochLeaderMap.Loaded file.wire map) :
    f.epochStartSlot.toNat + f.epochInfo.slotsInEpoch.toNat ≤ 2 ^ 64 := by
  have hspan := hl.fits.2.2
  rw [h.file_eq] at hspan
  exact (slotSpan_eq_iff _ _ hpos).1 hspan

/-- Every slot of the epoch is a focus slot exactly if the schedule gives it to the country. -/
theorem Fetched.Made.isFocus_slot [Base58] (hdisj : DisjointSlots f.schedule.entries)
    (hnul : ∀ identity ∈ f.schedule.keys, ∀ c, f.mergedCountry identity = some c →
      0 ∉ Borsh.utf8 c)
    (hl : EpochLeaderMap.Loaded file.wire map) (hcountry : 0 ∉ Borsh.utf8 country)
    (hi : i < f.epochInfo.slotsInEpoch.toNat) :
    (map.cacheFor country).isFocus (map.epochStartSlot + UInt64.ofNat i) =
      some (decide (f.FocusSlot country i)) := by
  have hsum := h.slots_le (by omega) hl
  have hlt := f.epochInfo.slotsInEpoch.toNat_lt
  have hslot : (f.epochStartSlot + UInt64.ofNat i).toNat = f.epochStartSlot.toNat + i := by
    rw [UInt64.toNat_add, UInt64.toNat_ofNat']
    omega
  have hend : f.epochEndSlot.toNat =
      f.epochStartSlot.toNat + f.epochInfo.slotsInEpoch.toNat - 1 := by
    rw [Fetched.epochEndSlot, UInt64.toNat_sub, UInt64.toNat_add, UInt64.toNat_one]
    omega
  have hoff : (f.epochStartSlot + UInt64.ofNat i - f.epochStartSlot).toNat = i := by
    rw [UInt64.toNat_sub, hslot]
    omega
  rw [h.epochStartSlot_eq hl, h.isFocus_eq hdisj hnul hl hcountry, hoff, if_pos hi]
  split
  · rename_i hout
    have hnobody : ∀ identity ∈ f.schedule.keys, f.mergedCountry identity ≠ some country := by
      apply hout.resolve_right
      rw [gt_iff_lt, UInt64.lt_iff_toNat_lt, UInt64.lt_iff_toNat_lt, hslot, hend]
      omega
    have hfocus : ¬ f.FocusSlot country i := by
      intro hfocus
      obtain ⟨entry, hentry, -, hmerged⟩ := hfocus
      exact hnobody entry.1 (List.mem_map_of_mem hentry) hmerged
    simp [hfocus]
  · rfl

end Made

/-- The same answers, with the schedule's map walked in another order. -/
structure Fetched.Reordered (f g : Fetched) : Prop where
  epochInfo : f.epochInfo = g.epochInfo
  entries : f.schedule.entries.Perm g.schedule.entries
  vote : f.vote = g.vote
  vapp : f.vapp = g.vapp

section Reordered
variable {f g : Fetched} (h : f.Reordered g)
include h

theorem Fetched.Reordered.keys : f.schedule.keys.Perm g.schedule.keys := h.entries.map Prod.fst

theorem Fetched.Reordered.mergedCountry : f.mergedCountry = g.mergedCountry := by
  funext identity
  rw [Fetched.mergedCountry, Fetched.mergedCountry, h.vapp]

theorem Fetched.Reordered.mergedClient : f.mergedClient = g.mergedClient := by
  funext identity
  rw [Fetched.mergedClient, Fetched.mergedClient, h.vapp]

theorem Fetched.Reordered.builds_iff : f.Builds ↔ g.Builds := by
  have hset (merged : String → Option String) : (f.schedule.keys.filterMap merged).toFinset =
      (g.schedule.keys.filterMap merged).toFinset :=
    List.toFinset_eq_of_perm _ _ (h.keys.filterMap merged)
  constructor
  · intro hb
    refine ⟨?_, ?_, h.epochInfo ▸ hb.slots⟩
    · rw [← h.mergedCountry, ← hset]
      exact hb.countries
    · rw [← h.mergedClient, ← hset]
      exact hb.clients
  · intro hb
    refine ⟨?_, ?_, h.epochInfo ▸ hb.slots⟩
    · rw [h.mergedCountry, hset]
      exact hb.countries
    · rw [h.mergedClient, hset]
      exact hb.clients

theorem Fetched.Reordered.focusSlot_iff : f.FocusSlot country i ↔ g.FocusSlot country i := by
  simp only [Fetched.FocusSlot, h.mergedCountry, h.entries.mem_iff]

theorem Fetched.Reordered.disjointSlots (hdisj : DisjointSlots f.schedule.entries) :
    DisjointSlots g.schedule.entries :=
  h.entries.pairwise hdisj fun hd i hi hi' => hd i hi' hi

end Reordered

/-- The table of a loaded document says what the schedule says, and the order in which the map of
the schedule was walked is not to be seen in it. -/
theorem table_means_schedule [Base58] {f g : Fetched} (hsame : f.Reordered g)
    (hdisj : DisjointSlots f.schedule.entries)
    (hnul : ∀ identity ∈ f.schedule.keys, ∀ country, f.mergedCountry identity = some country →
      0 ∉ Borsh.utf8 country) (time time' : UInt64) (path path' : String) :
    ((∃ file, f.file time = .ok file) ↔ ∃ file, g.file time' = .ok file) ∧
    ∀ file map, f.file time = .ok file → EpochLeaderMap.fromWire file.wire path = .ok map →
      ∀ focus, 0 ∉ Borsh.utf8 focus →
        (∀ i < f.epochInfo.slotsInEpoch.toNat,
          (map.cacheFor focus).isFocus (map.epochStartSlot + UInt64.ofNat i) =
            some (decide (f.FocusSlot focus i))) ∧
        ∀ file' map', g.file time' = .ok file' →
          EpochLeaderMap.fromWire file'.wire path' = .ok map' →
          ∀ slot, (map.cacheFor focus).isFocus slot = (map'.cacheFor focus).isFocus slot := by
  constructor
  · rw [f.file_isOk_iff, g.file_isOk_iff]
    exact hsame.builds_iff
  · intro file map hfile hmap focus hfocus
    obtain ⟨regions, clients, hmade⟩ := f.made hfile
    have hl := EpochLeaderMap.loaded hmap
    constructor
    · intro i hi
      exact hmade.isFocus_slot hdisj hnul hl hfocus hi
    · intro file' map' hfile' hmap' slot
      obtain ⟨regions', clients', hmade'⟩ := g.made hfile'
      have hnul' : ∀ identity ∈ g.schedule.keys, ∀ country,
          g.mergedCountry identity = some country → 0 ∉ Borsh.utf8 country := by
        intro identity hkey
        rw [← hsame.mergedCountry]
        exact hnul identity (hsame.keys.mem_iff.2 hkey)
      have hstart : f.epochStartSlot = g.epochStartSlot := by
        rw [Fetched.epochStartSlot, Fetched.epochStartSlot, hsame.epochInfo]
      have hend : f.epochEndSlot = g.epochEndSlot := by
        rw [Fetched.epochEndSlot, Fetched.epochEndSlot, hstart, hsame.epochInfo]
      rw [hmade.isFocus_eq hdisj hnul hl hfocus,
        hmade'.isFocus_eq (hsame.disjointSlots hdisj) hnul' (EpochLeaderMap.loaded hmap') hfocus]
      simp only [hsame.focusSlot_iff, hsame.mergedCountry, hsame.keys.mem_iff, hstart, hend,
        hsame.epochInfo]

def sampleReordered : Fetched :=
  { sampleFetched "9-DE-Falkenstein" with
    schedule := {
      entries := [("11111111111111111111111111111112", [1]),
        ("11111111111111111111111111111111", [0, 2])]
      nodup := by decide
    } }

theorem table_means_schedule_sample :
    ((∃ file, (sampleFetched "9-DE-Falkenstein").file 0 = .ok file) ↔
      ∃ file, sampleReordered.file 9 = .ok file) ∧
    ∀ file map, (sampleFetched "9-DE-Falkenstein").file 0 = .ok file →
      @EpochLeaderMap.fromWire sampleIdentities file.wire "2.json" = .ok map →
      ∀ focus, 0 ∉ Borsh.utf8 focus →
        (∀ i < (sampleFetched "9-DE-Falkenstein").epochInfo.slotsInEpoch.toNat,
          (map.cacheFor focus).isFocus (map.epochStartSlot + UInt64.ofNat i) =
            some (decide ((sampleFetched "9-DE-Falkenstein").FocusSlot focus i))) ∧
        ∀ file' map', sampleReordered.file 9 = .ok file' →
          @EpochLeaderMap.fromWire sampleIdentities file'.wire "2.json" = .ok map' →
          ∀ slot, (map.cacheFor focus).isFocus slot = (map'.cacheFor focus).isFocus slot := by
  have hnul : ∀ identity ∈ (sampleFetched "9-DE-Falkenstein").schedule.keys, ∀ country,
      (sampleFetched "9-DE-Falkenstein").mergedCountry identity = some country →
      0 ∉ Borsh.utf8 country := by
    decide +kernel
  exact @table_means_schedule sampleIdentities (sampleFetched "9-DE-Falkenstein") sampleReordered
    ⟨rfl, .swap .., rfl, rfl⟩ (by decide) hnul 0 9 "2.json" "2.json"

end TokenPumper
