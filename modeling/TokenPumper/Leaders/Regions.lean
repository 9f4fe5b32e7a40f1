import TokenPumper.Leaders.Usable

namespace TokenPumper
open LittleEndian BitStream
set_option autoImplicit true

namespace EpochLeaderMap

def HasTag (map : EpochLeaderMap) (name : String) (c : Nat) : Prop :=
  ∃ tag, Region.fromStr name = some tag ∧ map.regions[c]? = some tag

/-- The documented meaning of the mask: bit `c` is set iff region code `c` is one of `allowed`. -/
def MaskByName (map : EpochLeaderMap) (allowed : List String) : Prop :=
  ∀ c, (map.allowedMask allowed).toBitVec.getLsbD c = true ↔
    c < map.regions.length ∧ ∃ name ∈ allowed, map.HasTag name c

/-- The documented meaning of the focus: the leader's country is the one that was configured. -/
def FocusByName (map : EpochLeaderMap) (country : String) : Prop :=
  ∀ slot, map.InEpoch slot →
    (LeaderCache.isFocus ⟨map, resolveRegionIdx map country⟩ slot = some true ↔
      ∃ code, map.slotCodes[(slot - map.epochStartSlot).toNat]? = some code ∧
        code ≠ unknownRegionCode ∧ map.HasTag country code.toNat)

/-- A later place of the table with the tag of an earlier one. -/
def Repeats (map : EpochLeaderMap) (name : String) (c : Nat) : Prop :=
  map.HasTag name c ∧ ∃ first < c, map.HasTag name first

variable {map : EpochLeaderMap}

theorem HasTag.lt (h : map.HasTag name c) : c < map.regions.length := by
  obtain ⟨tag, -, htag⟩ := h
  exact (List.getElem?_eq_some_iff.1 htag).1

theorem HasTag.lt_maxRegions (h : map.HasTag name c) : c < 64 :=
  Nat.lt_of_lt_of_le h.lt map.regions_length

theorem firstCode_iff : map.firstCode name = some c ↔ map.HasTag name c ∧ ¬map.Repeats name c := by
  rw [firstCode]
  constructor
  · intro h
    obtain ⟨tag, htag, h⟩ := Option.bind_eq_some_iff.1 h
    obtain ⟨hlt, heq, hbefore⟩ := List.findIdx?_eq_some_iff_getElem.1 h
    have hc : map.regions[c]? = some tag := by
      rw [List.getElem?_eq_getElem hlt, of_decide_eq_true heq]
    refine ⟨⟨tag, htag, hc⟩, ?_⟩
    intro hrepeats
    obtain ⟨-, i, hi, tag', htag', hi'⟩ := hrepeats
    obtain rfl := Option.some.inj (htag.symm.trans htag')
    obtain ⟨hlt', heq'⟩ := List.getElem?_eq_some_iff.1 hi'
    have hne := hbefore i hi
    rw [heq', decide_eq_true rfl] at hne
    exact hne rfl
  · intro h
    obtain ⟨⟨tag, htag, hc⟩, hfirst⟩ := h
    obtain ⟨hlt, heq⟩ := List.getElem?_eq_some_iff.1 hc
    rw [htag, Option.bind_some, List.findIdx?_eq_some_iff_getElem]
    refine ⟨hlt, decide_eq_true heq, ?_⟩
    intro i hi hdec
    apply hfirst
    refine ⟨⟨tag, htag, hc⟩, i, hi, tag, htag, ?_⟩
    rw [List.getElem?_eq_getElem (Nat.lt_trans hi hlt), of_decide_eq_true hdec]

theorem HasTag.firstCode (h : map.HasTag name c) :
    ∃ first ≤ c, map.firstCode name = some first := by
  induction c using Nat.strong_induction_on with
  | _ c ih =>
    by_cases hrep : map.Repeats name c
    · obtain ⟨_, i, hi, htag⟩ := hrep
      obtain ⟨first, hle, hfirst⟩ := ih i hi htag
      exact ⟨first, by omega, hfirst⟩
    · exact ⟨c, Nat.le_refl c, firstCode_iff.2 ⟨h, hrep⟩⟩

theorem Repeats.of_hasTag (h : map.Repeats name c) (hother : map.HasTag other c) :
    map.Repeats other c := by
  obtain ⟨⟨tag, htag, hc⟩, first, hlt, tag', htag', hfirst⟩ := h
  obtain ⟨otherTag, hotherTag, hc'⟩ := hother
  obtain rfl := Option.some.inj (htag.symm.trans htag')
  obtain rfl := Option.some.inj (hc.symm.trans hc')
  exact ⟨⟨tag, hotherTag, hc⟩, first, hlt, tag, hotherTag, hfirst⟩

theorem maskByName_iff (allowed : List String) :
    map.MaskByName allowed ↔ ∀ name ∈ allowed, ∀ c, ¬map.Repeats name c := by
  constructor
  · intro h name hname c hrep
    obtain ⟨other, -, hfirst⟩ :=
      map.getLsbD_allowedMask.1 ((h c).2 ⟨hrep.1.lt, name, hname, hrep.1⟩)
    obtain ⟨hother, hnot⟩ := firstCode_iff.1 hfirst
    exact hnot (hrep.of_hasTag hother)
  · intro h c
    rw [getLsbD_allowedMask]
    constructor
    · intro ⟨name, hname, hfirst⟩
      have htag := (firstCode_iff.1 hfirst).1
      exact ⟨htag.lt, name, hname, htag⟩
    · intro ⟨_, name, hname, htag⟩
      exact ⟨name, hname, firstCode_iff.2 ⟨htag, h name hname c⟩⟩

theorem resolveRegionIdx_iff {code : UInt8} :
    resolveRegionIdx map country = some code ↔
      map.HasTag country code.toNat ∧ ¬map.Repeats country code.toNat := by
  rw [← firstCode_iff, resolveRegionIdx_firstCode, Option.map_eq_some_iff]
  have hback : ∀ c, map.firstCode country = some c → (UInt8.ofNat c).toNat = c := by
    intro c hc
    have hlt := (firstCode_iff.1 hc).1.lt_maxRegions
    apply UInt8.toNat_ofNat_of_lt'
    exact Nat.lt_trans hlt (by decide)
  constructor
  · intro ⟨c, hc, heq⟩
    rw [← heq, hback c hc, hc]
  · intro hc
    exact ⟨code.toNat, hc, UInt8.toNat_inj.1 (hback _ hc)⟩

theorem isFocus_iff_code (country : String) (h : map.InEpoch slot) :
    LeaderCache.isFocus ⟨map, resolveRegionIdx map country⟩ slot = some true ↔
      ∃ code, map.slotCodes[(slot - map.epochStartSlot).toNat]? = some code ∧
        map.HasTag country code.toNat ∧ ¬map.Repeats country code.toNat := by
  have hin : ¬(slot < map.epochStartSlot ∨ slot > map.epochEndSlot) := by
    rw [not_or, UInt64.not_lt, gt_iff_lt, UInt64.not_lt]
    exact h
  simp only [← resolveRegionIdx_iff, LeaderCache.isFocus]
  cases resolveRegionIdx map country with
  | none => simp
  | some idx => simp [hin, eq_comm]

theorem focusByName_iff (country : String) :
    map.FocusByName country ↔ ∀ slot, map.InEpoch slot → ∀ code,
      map.slotCodes[(slot - map.epochStartSlot).toNat]? = some code →
        ¬map.Repeats country code.toNat := by
  constructor
  · intro h slot hslot code hcode hrep
    have hknown : code ≠ unknownRegionCode := by
      intro heq
      have hlt := hrep.1.lt_maxRegions
      rw [heq] at hlt
      exact absurd hlt (by decide)
    have hfocus := (h slot hslot).2 ⟨code, hcode, hknown, hrep.1⟩
    obtain ⟨code', hcode', -, hnot⟩ := (isFocus_iff_code country hslot).1 hfocus
    obtain rfl := Option.some.inj (hcode.symm.trans hcode')
    exact hnot hrep
  · intro h slot hslot
    rw [isFocus_iff_code country hslot]
    constructor
    · intro ⟨code, hcode, htag, _⟩
      refine ⟨code, hcode, ?_, htag⟩
      intro heq
      have hlt := htag.lt_maxRegions
      rw [heq] at hlt
      exact absurd hlt (by decide)
    · intro ⟨code, hcode, _, htag⟩
      exact ⟨code, hcode, htag, h slot hslot code hcode⟩

/-- Both searches go by name as long as no name in question has its tag at a second place: at any
place for the mask, at the place of a slot's code for the focus. -/
theorem regions_by_name_iff (map : EpochLeaderMap) :
    (∀ allowed, map.MaskByName allowed ↔ ∀ name ∈ allowed, ∀ c, ¬map.Repeats name c) ∧
    ∀ country, map.FocusByName country ↔ ∀ slot, map.InEpoch slot → ∀ code,
      map.slotCodes[(slot - map.epochStartSlot).toNat]? = some code →
        ¬map.Repeats country code.toNat :=
  ⟨maskByName_iff, focusByName_iff⟩

theorem Loaded.hasTag [Base58] (h : Loaded wire map) (hname : wire.regions[c]? = some name) :
    map.HasTag name c := by
  have hc := congrArg (·[c]?) h.regions
  simp only [List.getElem?_map, hname, Option.map_some] at hc
  obtain ⟨tag, htag, heq⟩ := Option.map_eq_some_iff.1 hc.symm
  exact ⟨tag, heq.symm, htag⟩

def twiceWire : EpochLeaderMapWire := bareWire ["FR", "FR"] 100 101 2 [0, 1]

theorem twiceWire_accepted [Base58] (path : String) :
    ∃ map, fromWire twiceWire path = .ok map ∧
      ¬map.MaskByName ["FR"] ∧ ¬map.FocusByName "FR" := by
  have hfit : twiceWire.TablesFit := bareWire_tablesFit (by decide) (by decide) (by decide)
  obtain ⟨map, hmap⟩ : ∃ map, fromWire twiceWire path = .ok map :=
    fromWire_isOk_of_fits rfl rfl hfit
  have hl := loaded hmap
  have hrep : map.Repeats "FR" 1 := ⟨hl.hasTag rfl, 0, by decide, hl.hasTag rfl⟩
  refine ⟨map, hmap, ?_, ?_⟩
  · intro h
    exact (maskByName_iff ["FR"]).1 h "FR" (List.mem_singleton.2 rfl) 1 hrep
  · intro h
    have hin : map.InEpoch 101 := by
      rw [InEpoch, hl.epochStartSlot, hl.epochEndSlot]
      decide
    apply (focusByName_iff "FR").1 h 101 hin 1 _ hrep
    rw [hl.epochStartSlot, hl.slotCodes]
    rfl

theorem regions_by_name_fails : ∃ map, @fromWire noKeys twiceWire "leaders.json" = .ok map ∧
    ¬map.MaskByName ["FR"] ∧ ¬map.FocusByName "FR" :=
  @twiceWire_accepted noKeys "leaders.json"

end EpochLeaderMap

end TokenPumper
