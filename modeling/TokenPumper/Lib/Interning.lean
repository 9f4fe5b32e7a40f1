import Mathlib.Data.Finset.Card
import Mathlib.Data.List.Nodup

namespace Interning
set_option autoImplicit true

structure Table (α : Type) where
  names : List α
  nodup : names.Nodup

variable [DecidableEq α] {t t' : Table α} {names : List α} {name name' : α} {limit : Nat}

def Table.empty : Table α := ⟨[], List.nodup_nil⟩

def Table.push (t : Table α) (name : α) (h : name ∉ t.names) : Table α where
  names := t.names ++ [name]
  nodup := by
    rw [← List.concat_eq_append]
    exact t.nodup.concat h

def Table.code (t : Table α) (name : α) : Option Nat := t.names.idxOf? name

/-- Number all names, in their order; `full` reports the one that finds no place. -/
def internAll (limit : Nat) (full : α → Nat → ε) : Table α → List α → Except ε (Table α)
  | t, [] => .ok t
  | t, name :: names =>
    if h : name ∈ t.names then internAll limit full t names
    else if limit ≤ t.names.length then .error (full name (t.names.length + 1))
    else internAll limit full (t.push name h) names

theorem Table.code_eq_some_iff : t.code name = some i ↔ t.names[i]? = some name := by
  rw [code, List.idxOf?_eq_some_iff]
  constructor
  · intro h
    obtain ⟨hi, hname, -⟩ := h
    rw [List.getElem?_eq_getElem hi, hname]
  · intro h
    obtain ⟨hi, hname⟩ := List.getElem?_eq_some_iff.1 h
    apply Exists.intro hi
    constructor
    · exact hname
    · intro j hj
      have hne := List.pairwise_iff_getElem.1 t.nodup j i (hj.trans hi) hi hj
      rwa [hname] at hne

theorem Table.code_lt (h : t.code name = some i) : i < t.names.length :=
  (List.getElem?_eq_some_iff.1 (code_eq_some_iff.1 h)).1

theorem Table.code_isSome : (t.code name).isSome ↔ name ∈ t.names := by
  rw [code, List.isSome_idxOf?]

theorem Table.code_inj (h : t.code name = some i) (h' : t.code name' = some i) : name = name' :=
  Option.some.inj ((code_eq_some_iff.1 h).symm.trans (code_eq_some_iff.1 h'))

theorem mem_internAll (h : internAll limit full t names = .ok t') :
    name ∈ t'.names ↔ name ∈ t.names ∨ name ∈ names := by
  induction names generalizing t with
  | nil =>
    obtain rfl := Except.ok.inj h
    simp
  | cons first names ih =>
    rw [internAll] at h
    split at h
    · rename_i hmem
      rw [ih h, List.mem_cons]
      constructor
      · exact fun h => h.imp_right .inr
      · intro h
        rcases h with h | rfl | h
        · exact .inl h
        · exact .inl hmem
        · exact .inr h
    · split at h
      · cases h
      · rw [ih h, Table.push, List.mem_append, List.mem_singleton, List.mem_cons, or_assoc]

theorem length_internAll_le (ht : t.names.length ≤ limit)
    (h : internAll limit full t names = .ok t') : t'.names.length ≤ limit := by
  induction names generalizing t with
  | nil =>
    cases h
    exact ht
  | cons first names ih =>
    rw [internAll] at h
    split at h
    · exact ih ht h
    · split at h
      · cases h
      · rename_i hroom
        apply ih _ h
        rw [Table.push, List.length_append, List.length_singleton]
        omega

theorem Table.card_names (t : Table α) : t.names.toFinset.card = t.names.length :=
  List.toFinset_card_of_nodup t.nodup

theorem internAll_isOk_iff (ht : t.names.length ≤ limit) :
    (∃ t', internAll limit full t names = .ok t') ↔
      (t.names ++ names).toFinset.card ≤ limit := by
  induction names generalizing t with
  | nil =>
    rw [List.append_nil, t.card_names]
    exact ⟨fun _ => ht, fun _ => ⟨t, rfl⟩⟩
  | cons name names ih =>
    rw [internAll]
    split
    · rename_i hmem
      have hsame : (t.names ++ name :: names).toFinset = (t.names ++ names).toFinset := by
        ext a
        simp only [List.mem_toFinset, List.mem_append, List.mem_cons]
        constructor
        · intro h
          rcases h with h | rfl | h
          · exact .inl h
          · exact .inl hmem
          · exact .inr h
        · exact fun h => h.imp_right .inr
      rw [hsame]
      exact ih ht
    · rename_i hnew
      rw [List.append_cons]
      change _ ↔ ((t.push name hnew).names ++ names).toFinset.card ≤ limit
      split
      · rename_i hfull
        have hcard : (t.push name hnew).names.toFinset.card = t.names.length + 1 := by
          rw [Table.card_names, Table.push, List.length_append, List.length_singleton]
        have hsub : (t.push name hnew).names.toFinset ⊆
            ((t.push name hnew).names ++ names).toFinset := by
          rw [List.toFinset_append]
          exact Finset.subset_union_left
        have hle := Finset.card_le_card hsub
        constructor
        · intro h
          obtain ⟨t', h⟩ := h
          cases h
        · intro h
          omega
      · rename_i hroom
        apply ih
        rw [Table.push, List.length_append, List.length_singleton]
        omega

end Interning
