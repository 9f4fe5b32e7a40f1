import TokenPumper.Leaders.Fetch

namespace TokenPumper
open Interning
set_option autoImplicit true

/-- The last of an identity's entries that has something to say. -/
def lastOf (field : VAppEntryWire → Option String) (validators : List VAppEntryWire)
    (identity : String) : Option String :=
  ((validators.filter fun v => v.account = some identity).filterMap field).getLast?

def Fetched.mergedCountry (f : Fetched) (identity : String) : Option String :=
  lastOf VAppEntryWire.country f.vapp.list identity

def Fetched.mergedClient (f : Fetched) (identity : String) : Option String :=
  lastOf VAppEntryWire.client f.vapp.list identity

theorem bind_entry (metas : Metas) (key : String) (change : ValidatorMeta → ValidatorMeta)
    (field : ValidatorMeta → Option β) (identity : String) :
    ((metas.entry key change) identity).bind field =
      if identity = key then field (change ((metas key).getD {}))
      else (metas identity).bind field := by
  rw [Metas.entry]
  split <;> rfl

theorem getD_field (field : ValidatorMeta → Option β) (hnew : field {} = none)
    (entry : Option ValidatorMeta) : field (entry.getD {}) = entry.bind field := by
  cases entry with
  | none => exact hnew
  | some entry => rfl

section Fields
variable {field : ValidatorMeta → Option String} (hnew : field {} = none)
include hnew

theorem mergeVote_field (hvote : ∀ entry vote, field { entry with votePubkey := vote } = field entry)
    (accounts : List VoteAccount) (metas : Metas) (identity : String) :
    (mergeVote metas accounts identity).bind field = (metas identity).bind field := by
  induction accounts generalizing metas with
  | nil => rfl
  | cons v accounts ih =>
    have hstep := ih (metas.entry v.nodePubkey fun entry =>
      { entry with votePubkey := some v.votePubkey })
    rw [bind_entry, hvote, getD_field field hnew] at hstep
    rw [mergeVote, List.foldl_cons, ← mergeVote, hstep]
    split
    · rename_i hid
      rw [hid]
    · rfl

theorem mergeVApp_field {value : VAppEntryWire → Option String}
    (hmerge : ∀ entry v, field (entry.merge v) = (value v).or (field entry))
    (validators : List VAppEntryWire) (metas : Metas) (identity : String) :
    (mergeVApp metas validators identity).bind field =
      (lastOf value validators identity).or ((metas identity).bind field) := by
  induction validators generalizing metas with
  | nil => rfl
  | cons v validators ih =>
    rw [mergeVApp, List.foldl_cons, ← mergeVApp, ih]
    cases hacc : v.account with
    | none => simp [lastOf, hacc]
    | some account =>
      simp only [bind_entry, hmerge, getD_field field hnew]
      by_cases hid : identity = account
      · subst hid
        rw [if_pos rfl, lastOf, lastOf, List.filter_cons_of_pos (by simpa using hacc)]
        cases hv : value v with
        | none => rw [List.filterMap_cons_none hv, Option.none_or]
        | some name =>
          rw [List.filterMap_cons_some hv, List.getLast?_cons]
          cases ((validators.filter _).filterMap value).getLast? with
          | none => rfl
          | some last => rfl
      · have hne : v.account ≠ some identity := by
          intro h
          rw [hacc] at h
          exact hid (Option.some.inj h).symm
        rw [if_neg hid, lastOf, lastOf, List.filter_cons_of_neg (by simpa using hne)]

end Fields

theorem Fetched.metas_country (f : Fetched) (identity : String) :
    (f.metas identity).bind (·.country) = f.mergedCountry identity := by
  rw [metas, mergeVApp_field rfl (fun _ _ => rfl), mergeVote_field rfl (fun _ _ => rfl)]
  exact Option.or_none

theorem Fetched.metas_softwareClient (f : Fetched) (identity : String) :
    (f.metas identity).bind (·.softwareClient) = f.mergedClient identity := by
  rw [metas, mergeVApp_field rfl (fun _ _ => rfl), mergeVote_field rfl (fun _ _ => rfl)]
  exact Option.or_none

theorem mem_of_mergeVote {accounts : List VoteAccount} {metas : Metas}
    (h : (mergeVote metas accounts identity).bind (·.votePubkey) = some vote) :
    (∃ v ∈ accounts, v.votePubkey = vote) ∨ (metas identity).bind (·.votePubkey) = some vote := by
  induction accounts generalizing metas with
  | nil => exact .inr h
  | cons v accounts ih =>
    rcases ih h with h | h
    · obtain ⟨v', hv', heq⟩ := h
      exact .inl ⟨v', List.mem_cons_of_mem v hv', heq⟩
    · rw [bind_entry] at h
      split at h
      · exact .inl ⟨v, List.mem_cons_self, Option.some.inj h⟩
      · exact .inr h

theorem Fetched.mem_of_metas (f : Fetched)
    (h : (f.metas identity).bind (·.votePubkey) = some votekey) :
    ∃ v ∈ f.vote.current ++ f.vote.delinquent, v.votePubkey = votekey := by
  have hkept (metas : Metas) : (mergeVApp metas f.vapp.list identity).bind (·.votePubkey) =
      (lastOf (fun _ => none) f.vapp.list identity).or ((metas identity).bind (·.votePubkey)) :=
    mergeVApp_field rfl (fun _ _ => rfl) f.vapp.list metas identity
  have hnone : lastOf (fun _ => none) f.vapp.list identity = none := by simp [lastOf]
  rw [metas, hkept, hnone, Option.none_or] at h
  rcases mem_of_mergeVote h with h | h
  · exact h
  · cases h

theorem parseCountry_ne (h : parseCountry key = some country) : country ≠ "" := by
  rw [parseCountry] at h
  split at h
  · split at h
    · cases h
    · rename_i hne
      obtain rfl := Option.some.inj h
      simpa using hne
  · cases h

theorem trimmedClient_ne (h : trimmedClient name = some client) : client ≠ "" := by
  rw [trimmedClient] at h
  split at h
  · cases h
  · rename_i hne
    obtain rfl := Option.some.inj h
    simpa using hne

theorem mem_of_lastOf (h : lastOf field validators identity = some name) :
    ∃ v ∈ validators, field v = some name := by
  obtain ⟨v, hv, hname⟩ := List.mem_filterMap.1 (List.mem_of_getLast? h)
  exact ⟨v, (List.mem_filter.1 hv).1, hname⟩

theorem Fetched.mergedCountry_ne (f : Fetched) (h : f.mergedCountry identity = some country) :
    country ≠ "" := by
  obtain ⟨v, -, hv⟩ := mem_of_lastOf h
  obtain ⟨key, -, hkey⟩ := Option.bind_eq_some_iff.1 hv
  exact parseCountry_ne hkey

theorem Fetched.mergedClient_ne (f : Fetched) (h : f.mergedClient identity = some client) :
    client ≠ "" := by
  obtain ⟨v, -, hv⟩ := mem_of_lastOf h
  obtain ⟨name, -, hname⟩ := Option.bind_eq_some_iff.1 hv
  exact trimmedClient_ne hname

section Tables
variable {field : ValidatorMeta → Option String} {metas : Metas} {merged : String → Option String}
  {limit : Nat}

theorem internField_isOk_iff (hfield : ∀ identity, (metas identity).bind field = merged identity) :
    (∃ table, internField limit what field metas keys = .ok table) ↔
      (keys.filterMap merged).toFinset.card ≤ limit := by
  simp only [internField, hfield]
  rw [internAll_isOk_iff (Nat.zero_le limit)]
  rfl

theorem mem_internField (hfield : ∀ identity, (metas identity).bind field = merged identity)
    (h : internField limit what field metas keys = .ok table) :
    name ∈ table.names ↔ ∃ identity ∈ keys, merged identity = some name := by
  simp only [internField, hfield] at h
  rw [mem_internAll h, List.mem_filterMap]
  exact or_iff_right List.not_mem_nil

theorem length_internField_le (h : internField limit what field metas keys = .ok table) :
    table.names.length ≤ limit := by
  apply length_internAll_le _ h
  exact Nat.zero_le limit

end Tables

section Slots
variable (code : UInt8) (indices : List UInt32) (slots : List UInt8)

@[simp] theorem length_fillSlots : (fillSlots code indices slots).length = slots.length := by
  induction indices generalizing slots with
  | nil => rfl
  | cons i indices ih =>
    rw [fillSlots, List.foldl_cons, ← fillSlots, ih]
    split
    · exact List.length_set
    · rfl

theorem getElem?_fillSlots : (fillSlots code indices slots)[i]? =
    if i ∈ indices.map UInt32.toNat ∧ i < slots.length then some code else slots[i]? := by
  induction indices generalizing slots with
  | nil => simp [fillSlots]
  | cons j indices ih =>
    rw [fillSlots, List.foldl_cons, ← fillSlots, ih]
    by_cases hj : j.toNat < slots.length
    · rw [if_pos hj, List.length_set, List.getElem?_set]
      by_cases hi : i ∈ indices.map UInt32.toNat ∧ i < slots.length
      · rw [if_pos hi, if_pos ⟨List.mem_cons_of_mem _ hi.1, hi.2⟩]
      · rw [if_neg hi]
        grind
    · rw [if_neg hj]
      grind

end Slots

section SlotTable
variable {code : String → UInt8} {entries : List (String × List UInt32)}

@[simp] theorem length_slotTable (slots : List UInt8) :
    (slotTable code entries slots).length = slots.length := by
  induction entries generalizing slots with
  | nil => rfl
  | cons entry entries ih =>
    rw [slotTable, List.foldl_cons, ← slotTable, ih, length_fillSlots]

theorem slotTable_unled (h : ∀ entry ∈ entries, i ∉ entry.2.map UInt32.toNat) (slots : List UInt8) :
    (slotTable code entries slots)[i]? = slots[i]? := by
  induction entries generalizing slots with
  | nil => rfl
  | cons entry entries ih =>
    obtain ⟨hentry, hrest⟩ := List.forall_mem_cons.1 h
    rw [slotTable, List.foldl_cons, ← slotTable, ih hrest, getElem?_fillSlots,
      if_neg fun hi => hentry hi.1]

/-- The slot lists of different identities have nothing in common. -/
def DisjointSlots (entries : List (String × List UInt32)) : Prop :=
  entries.Pairwise fun entry entry' => ∀ i ∈ entry.2, i ∉ entry'.2

instance (entries : List (String × List UInt32)) : Decidable (DisjointSlots entries) :=
  have (entry entry' : String × List UInt32) : Decidable (∀ i ∈ entry.2, i ∉ entry'.2) :=
    List.decidableBAll _ entry.2
  inferInstanceAs (Decidable (entries.Pairwise fun entry entry' => ∀ i ∈ entry.2, i ∉ entry'.2))

theorem not_mem_of_disjoint {indices indices' : List UInt32} (h : ∀ i ∈ indices, i ∉ indices')
    (hi : i ∈ indices.map UInt32.toNat) : i ∉ indices'.map UInt32.toNat := by
  intro hi'
  obtain ⟨j, hj, rfl⟩ := List.mem_map.1 hi
  obtain ⟨j', hj', heq⟩ := List.mem_map.1 hi'
  obtain rfl := UInt32.toNat_inj.1 heq
  exact h _ hj hj'

theorem DisjointSlots.eq (h : DisjointSlots entries) (he : entry ∈ entries)
    (he' : entry' ∈ entries) (hi : i ∈ entry.2.map UInt32.toNat)
    (hi' : i ∈ entry'.2.map UInt32.toNat) : entry = entry' := by
  by_contra hne
  have hsymm : Std.Symm fun entry entry' : String × List UInt32 => ∀ i ∈ entry.2, i ∉ entry'.2 :=
    ⟨fun _ _ hd i hi hi' => hd i hi' hi⟩
  exact not_mem_of_disjoint (List.Pairwise.forall h he he' hne) hi hi'

theorem slotTable_led (hdisj : DisjointSlots entries) (he : entry ∈ entries)
    (hi : i ∈ entry.2.map UInt32.toNat) (slots : List UInt8) (hlen : i < slots.length) :
    (slotTable code entries slots)[i]? = some (code entry.1) := by
  induction entries generalizing slots with
  | nil => cases he
  | cons first entries ih =>
    obtain ⟨hfirst, hrest⟩ := List.pairwise_cons.1 hdisj
    rw [slotTable, List.foldl_cons, ← slotTable]
    rcases List.mem_cons.1 he with rfl | he
    · have hunled : ∀ other ∈ entries, i ∉ other.2.map UInt32.toNat := by
        intro other hother
        exact not_mem_of_disjoint (hfirst other hother) hi
      rw [slotTable_unled hunled, getElem?_fillSlots, if_pos ⟨hi, hlen⟩]
    · exact ih hrest he _ (by rwa [length_fillSlots])

theorem mem_slotTable (h : c ∈ slotTable code entries slots) :
    c ∈ slots ∨ ∃ entry ∈ entries, c = code entry.1 := by
  induction entries generalizing slots with
  | nil => exact .inl h
  | cons entry entries ih =>
    rcases ih h with h | h
    · obtain ⟨i, hi⟩ := List.mem_iff_getElem?.1 h
      rw [getElem?_fillSlots] at hi
      split at hi
      · exact .inr ⟨entry, List.mem_cons_self, (Option.some.inj hi).symm⟩
      · exact .inl (List.mem_of_getElem? hi)
    · obtain ⟨other, hother, heq⟩ := h
      exact .inr ⟨other, List.mem_cons_of_mem entry hother, heq⟩

end SlotTable

end TokenPumper
