import TokenPumper.Checked
import TokenPumper.Keys.Stages

namespace TokenPumper
open LittleEndian Effect
set_option autoImplicit true

/-- A draw of `jitter` with a check at every operation and at every cast. -/
def jitterChecked (base draw : UInt64) : Option UInt64 :=
  if base = 0 then some 0
  else do
    let scaled ← u128 (base.toNat * 70)
    let min ← narrow (scaled / 100)
    let width ← checkedSub base min
    let span ← checkedAdd width 1
    let offset ← checkedRem draw span
    checkedAdd min offset

def jitterOf (base draw : UInt64) : UInt64 :=
  if base = 0 then 0
  else
    let min := UInt64.ofNat (base.toNat * 70 / 100)
    min + draw % (base - min + 1)

section Jitter
variable (base draw : UInt64)

theorem toNat_jitterMin : (UInt64.ofNat (base.toNat * 70 / 100)).toNat = base.toNat * 7 / 10 := by
  have hlt := base.toNat_lt
  rw [toNat_ofNat (by omega)]
  omega

theorem jitterMin_le : UInt64.ofNat (base.toNat * 70 / 100) ≤ base := by
  rw [UInt64.le_iff_toNat_le, toNat_jitterMin]
  omega

theorem toNat_jitterSpan (h : base ≠ 0) :
    (base - UInt64.ofNat (base.toNat * 70 / 100) + 1).toNat =
      base.toNat - base.toNat * 7 / 10 + 1 := by
  have hlt := base.toNat_lt
  have hpos : base.toNat ≠ 0 := fun h0 => h (UInt64.toNat_inj.1 h0)
  rw [UInt64.toNat_add, UInt64.toNat_sub_of_le _ _ (jitterMin_le base), toNat_jitterMin,
    UInt64.toNat_one, Nat.mod_eq_of_lt (by omega)]

theorem offset_lt : draw.toNat % (base.toNat - base.toNat * 7 / 10 + 1) <
    base.toNat - base.toNat * 7 / 10 + 1 :=
  Nat.mod_lt _ (Nat.succ_pos _)

theorem toNat_jitterOf (h : base ≠ 0) :
    (jitterOf base draw).toNat =
      base.toNat * 7 / 10 + draw.toNat % (base.toNat - base.toNat * 7 / 10 + 1) := by
  have hlt := base.toNat_lt
  have hoffset := offset_lt base draw
  rw [jitterOf, if_neg h, UInt64.toNat_add, UInt64.toNat_mod, toNat_jitterMin,
    toNat_jitterSpan base h, Nat.mod_eq_of_lt (by omega)]

theorem jitterOf_bounds :
    base.toNat * 7 / 10 ≤ (jitterOf base draw).toNat ∧ jitterOf base draw ≤ base := by
  rw [UInt64.le_iff_toNat_le]
  by_cases h : base = 0
  · subst h
    exact ⟨Nat.le_refl 0, Nat.le_refl 0⟩
  · have hoffset := offset_lt base draw
    rw [toNat_jitterOf base draw h]
    omega

theorem jitterChecked_eq : jitterChecked base draw = some (jitterOf base draw) := by
  rw [jitterChecked, jitterOf]
  by_cases h : base = 0
  · rw [if_pos h, if_pos h]
  · have hlt := base.toNat_lt
    have hmin := toNat_jitterMin base
    have hle := jitterMin_le base
    have hspan := toNat_jitterSpan base h
    have hbounds := (jitterOf_bounds base draw).2
    have hvalue := toNat_jitterOf base draw h
    rw [UInt64.le_iff_toNat_le] at hbounds
    have hwidth :
        (base - UInt64.ofNat (base.toNat * 70 / 100)).toNat + (1 : UInt64).toNat < 2 ^ 64 := by
      rw [UInt64.toNat_sub_of_le _ _ hle, hmin, UInt64.toNat_one]
      omega
    have hne : base - UInt64.ofNat (base.toNat * 70 / 100) + 1 ≠ 0 := by
      intro h0
      rw [h0] at hspan
      exact absurd hspan (by rw [UInt64.toNat_zero]; omega)
    have hsum : (UInt64.ofNat (base.toNat * 70 / 100)).toNat +
        (draw % (base - UInt64.ofNat (base.toNat * 70 / 100) + 1)).toNat < 2 ^ 64 := by
      rw [UInt64.toNat_mod, hspan, hmin]
      omega
    have hscaled : u128 (base.toNat * 70) = some (base.toNat * 70) := u128_eq (by omega)
    have hnarrow : narrow (base.toNat * 70 / 100) =
        some (UInt64.ofNat (base.toNat * 70 / 100)) := narrow_eq (by omega)
    rw [if_neg h, if_neg h]
    simp only [hscaled, hnarrow, checkedSub_eq hle, checkedAdd_eq hwidth, checkedRem_eq hne,
      checkedAdd_eq hsum, Option.bind_eq_bind, Option.bind_some]

end Jitter

/-- The amount lies between seven tenths of the number, rounded down, and the number itself, and
comes of a draw in which nothing overflows. -/
structure Jittered (base amount : UInt64) : Prop where
  drawn : ∃ draw, jitterChecked base draw = some amount
  lower : base.toNat * 7 / 10 ≤ amount.toNat
  upper : amount ≤ base

theorem jittered_jitterOf (base draw : UInt64) : Jittered base (jitterOf base draw) where
  drawn := ⟨draw, jitterChecked_eq base draw⟩
  lower := (jitterOf_bounds base draw).1
  upper := (jitterOf_bounds base draw).2

/-- The assignment is the account's: its index counts from zero, its numbers are drawn. -/
structure Assigned (a : AccountFunding) (b : WalletAssignment) : Prop where
  index : a.index = b.index + 1
  amount : Jittered a.amount b.amount
  cuPriceLamports : Jittered a.cuPriceLamports b.cuPriceLamports

/-- Each account has a slot that is free, and no two have the same. -/
def Fillable (batchSize : Nat) (accounts : List AccountFunding)
    (slots : List (Option WalletAssignment)) : Prop :=
  (∀ a ∈ accounts, (1 ≤ a.index ∧ a.index ≤ batchSize) ∧ (slots[a.index - 1]?).join = none) ∧
    (accounts.map AccountFunding.index).Nodup

theorem filterMap_set_perm {slots : List (Option α)} {i : Nat} (hi : i < slots.length)
    (hfree : (slots[i]?).join = none) (a : α) :
    ((slots.set i (some a)).filterMap id).Perm (a :: slots.filterMap id) := by
  induction slots generalizing i with
  | nil => exact absurd hi (Nat.not_lt_zero i)
  | cons slot slots ih =>
    cases i with
    | zero =>
      have hslot : slot = none := hfree
      rw [hslot]
      rfl
    | succ i =>
      have hrest := ih (Nat.lt_of_succ_lt_succ hi) hfree
      rw [List.set_cons_succ]
      cases slot with
      | none => exact hrest
      | some b => exact (hrest.cons b).trans (List.Perm.swap a b _)

theorem join_set {slots : List (Option α)} {i j : Nat} (hi : i < slots.length) (a : α) :
    ((slots.set i (some a))[j]?).join = none ↔ j ≠ i ∧ (slots[j]?).join = none := by
  rw [List.getElem?_set]
  by_cases hij : i = j
  · subst hij
    simp [hi]
  · simp [hij, Ne.symm hij]

def Placed (slots : List (Option WalletAssignment)) : Prop :=
  ∀ (i : Nat) (a : WalletAssignment), slots[i]? = some (some a) → a.index = i

theorem placed_set {slots : List (Option WalletAssignment)} {i : Nat} (h : Placed slots)
    (hb : b.index = i) : Placed (slots.set i (some b)) := by
  intro j c hc
  rw [List.getElem?_set] at hc
  split at hc
  · rename_i hij
    split at hc
    · obtain rfl := Option.some.inj (Option.some.inj hc)
      rw [hb, hij]
    · cases hc
  · exact h j c hc

/-- The slots after assignments have been put where they belong. -/
def place (slots : List (Option WalletAssignment)) (assignments : List WalletAssignment) :
    List (Option WalletAssignment) :=
  assignments.foldl (fun slots b => slots.set b.index (some b)) slots

theorem place_cons (slots : List (Option WalletAssignment)) (b : WalletAssignment)
    (assignments : List WalletAssignment) :
    place slots (b :: assignments) = place (slots.set b.index (some b)) assignments := rfl

@[simp] theorem length_place (slots : List (Option WalletAssignment))
    (assignments : List WalletAssignment) : (place slots assignments).length = slots.length := by
  induction assignments generalizing slots with
  | nil => rfl
  | cons b assignments ih => rw [place_cons, ih, List.length_set]

theorem placed_place {slots : List (Option WalletAssignment)} (h : Placed slots)
    (assignments : List WalletAssignment) : Placed (place slots assignments) := by
  induction assignments generalizing slots with
  | nil => exact h
  | cons b assignments ih => exact ih (placed_set h rfl)

theorem fillable_cons (hlen : slots.length = batchSize) (b : WalletAssignment) :
    Fillable batchSize (a :: accounts) slots ↔
      ((1 ≤ a.index ∧ a.index ≤ batchSize) ∧ (slots[a.index - 1]?).join = none) ∧
        Fillable batchSize accounts (slots.set (a.index - 1) (some b)) := by
  simp only [Fillable, List.forall_mem_cons, List.map_cons, List.nodup_cons, List.mem_map]
  constructor
  · rintro ⟨⟨ha, hrest⟩, hnew, hnodup⟩
    refine ⟨ha, ?_, hnodup⟩
    intro c hc
    obtain ⟨hrange, hfree⟩ := hrest c hc
    refine ⟨hrange, (join_set (by omega) b).2 ⟨?_, hfree⟩⟩
    intro heq
    exact hnew ⟨c, hc, by omega⟩
  · rintro ⟨ha, hrest, hnodup⟩
    refine ⟨⟨ha, ?_⟩, ?_, hnodup⟩
    · intro c hc
      obtain ⟨hrange, hfree⟩ := hrest c hc
      exact ⟨hrange, ((join_set (by omega) b).1 hfree).2⟩
    · rintro ⟨c, hc, heq⟩
      obtain ⟨hrange, hfree⟩ := hrest c hc
      exact ((join_set (by omega) b).1 hfree).1 (by rw [heq])

theorem place_perm (hlen : slots.length = batchSize) (h : Fillable batchSize accounts slots)
    (hindex : List.Forall₂ (fun a b => a.index = b.index + 1) accounts assignments) :
    ((place slots assignments).filterMap id).Perm (assignments ++ slots.filterMap id) := by
  induction hindex generalizing slots with
  | nil => exact .rfl
  | @cons a b accounts assignments hab _ ih =>
    obtain ⟨ha, hrest⟩ := (fillable_cons hlen b).1 h
    rw [hab, Nat.add_sub_cancel] at ha hrest
    rw [place_cons]
    have hset := filterMap_set_perm (by omega : b.index < slots.length) ha.2 b
    have hperm := ih (by rw [List.length_set, hlen]) hrest
    exact hperm.trans ((hset.append_left assignments).trans List.perm_middle)

section Runs
variable {env : Env} {w w' : World}

/-- The world after a number has been drawn; nothing is drawn for zero. -/
def drawn (base : UInt64) (w : World) : World :=
  if base = 0 then w else { w with tick := w.tick + 1 }

theorem jitter_run (h : env.draw w.tick = some draw) (base : UInt64) :
    jitter base env w = (.ok (jitterOf base draw), drawn base w) := by
  rw [jitter, jitterOf, drawn]
  split
  · rfl
  · rw [bind_run_ok (ask_run _), h]
    rfl

theorem jitter_eq_ok (h : jitter base env w = (.ok amount, w')) :
    ∃ draw, amount = jitterOf base draw := by
  cases hd : env.draw w.tick with
  | some draw =>
    rw [jitter_run hd] at h
    exact ⟨draw, (Except.ok.inj (Prod.mk.inj h).1).symm⟩
  | none =>
    rw [jitter] at h
    split at h
    · rename_i hzero
      refine ⟨0, ?_⟩
      rw [jitterOf, if_pos hzero]
      exact (Except.ok.inj (Prod.mk.inj h).1).symm
    · rw [bind_run_ok (ask_run _), hd] at h
      cases (Prod.mk.inj h).1

theorem fill_cons_run (hrange : 1 ≤ a.index ∧ a.index ≤ batchSize)
    (hfree : (slots[a.index - 1]?).join = none)
    (hamount : jitter a.amount env w = (.ok amount, w₁))
    (hcu : jitter a.cuPriceLamports env w₁ = (.ok cu, w₂)) (accounts : List AccountFunding) :
    Assigner.fill batchSize (a :: accounts) slots env w =
      Assigner.fill batchSize accounts
        (slots.set (a.index - 1) (some ⟨a.index - 1, amount, cu⟩)) env w₂ := by
  have hin : ¬(a.index < 1 ∨ a.index > batchSize) := by omega
  have hnone : ¬(slots[a.index - 1]?).join.isSome = true := by rw [hfree]; exact Bool.false_ne_true
  rw [Assigner.fill, if_neg hin, if_neg hnone, bind_run_ok hamount, bind_run_ok hcu]

/-- An account is passed only with a slot of its own, and with numbers drawn for it. -/
theorem fill_cons_eq_ok
    (h : Assigner.fill batchSize (a :: accounts) slots env w = (.ok slots', w')) :
    ((1 ≤ a.index ∧ a.index ≤ batchSize) ∧ (slots[a.index - 1]?).join = none) ∧
      ∃ draw draw' w₂, Assigner.fill batchSize accounts (slots.set (a.index - 1)
        (some ⟨a.index - 1, jitterOf a.amount draw, jitterOf a.cuPriceLamports draw'⟩)) env w₂ =
          (.ok slots', w') := by
  rw [Assigner.fill] at h
  split at h
  · cases (Prod.mk.inj h).1
  · rename_i hin
    dsimp only at h
    split at h
    · cases (Prod.mk.inj h).1
    · rename_i hnone
      obtain ⟨amount, w₁, hamount, h⟩ := bind_run_eq_ok h
      obtain ⟨cu, w₂, hcu, h⟩ := bind_run_eq_ok h
      obtain ⟨draw, rfl⟩ := jitter_eq_ok hamount
      obtain ⟨draw', rfl⟩ := jitter_eq_ok hcu
      exact ⟨⟨by omega, Option.not_isSome_iff_eq_none.1 hnone⟩, draw, draw', w₂, h⟩

theorem fill_eq_ok (hlen : slots.length = batchSize)
    (h : Assigner.fill batchSize accounts slots env w = (.ok slots', w')) :
    Fillable batchSize accounts slots ∧
      ∃ assignments, List.Forall₂ Assigned accounts assignments ∧
        slots' = place slots assignments := by
  induction accounts generalizing slots w with
  | nil =>
    obtain rfl : slots = slots' := Except.ok.inj (Prod.mk.inj h).1
    exact ⟨⟨fun a ha => absurd ha List.not_mem_nil, List.nodup_nil⟩, [], .nil, rfl⟩
  | cons a accounts ih =>
    obtain ⟨ha, draw, draw', w₂, hrest⟩ := fill_cons_eq_ok h
    obtain ⟨hfillable, assignments, hassigned, hslots⟩ := ih (by rw [List.length_set, hlen]) hrest
    let b : WalletAssignment :=
      ⟨a.index - 1, jitterOf a.amount draw, jitterOf a.cuPriceLamports draw'⟩
    have hb : Assigned a b :=
      ⟨(Nat.sub_add_cancel ha.1.1).symm, jittered_jitterOf _ draw, jittered_jitterOf _ draw'⟩
    exact ⟨(fillable_cons hlen b).2 ⟨ha, hfillable⟩, b :: assignments, .cons hb hassigned, hslots⟩

theorem fill_returns (hdraws : ∀ tick, ∃ draw, env.draw tick = some draw)
    (hlen : slots.length = batchSize) (h : Fillable batchSize accounts slots) :
    ∃ slots' w', Assigner.fill batchSize accounts slots env w = (.ok slots', w') := by
  induction accounts generalizing slots w with
  | nil => exact ⟨slots, w, rfl⟩
  | cons a accounts ih =>
    obtain ⟨draw, hdraw⟩ := hdraws w.tick
    obtain ⟨draw', hdraw'⟩ := hdraws (drawn a.amount w).tick
    obtain ⟨ha, hrest⟩ := (fillable_cons hlen
      ⟨a.index - 1, jitterOf a.amount draw, jitterOf a.cuPriceLamports draw'⟩).1 h
    rw [fill_cons_run ha.1 ha.2 (jitter_run hdraw _) (jitter_run hdraw' _)]
    exact ih (by rw [List.length_set, hlen]) hrest

end Runs

theorem Placed.pairwise {assigner : Assigner} (h : Placed assigner.slots) :
    assigner.iter.Pairwise fun a b => a.index < b.index := by
  rw [Assigner.iter, List.pairwise_filterMap, List.pairwise_iff_getElem]
  intro i j hi hj hij a ha b hb
  rw [h i a ((List.getElem?_eq_getElem hi).trans (congrArg some ha)),
    h j b ((List.getElem?_eq_getElem hj).trans (congrArg some hb))]
  exact hij

def ValidIndices (accounts : List AccountFunding) (batchSize : Nat) : Prop :=
  (∀ a ∈ accounts, 1 ≤ a.index ∧ a.index ≤ batchSize) ∧
    (accounts.map AccountFunding.index).Nodup

theorem fillable_empty {accounts : List AccountFunding} :
    Fillable batchSize accounts (List.replicate batchSize none) ↔
      ValidIndices accounts batchSize := by
  have hfree (i : Nat) :
      ((List.replicate batchSize (none : Option WalletAssignment))[i]?).join = none := by
    rw [List.getElem?_replicate]
    split <;> rfl
  simp only [Fillable, ValidIndices, hfree, and_true]

/-- One assignment an account, in the order of the indices, all of them within the batch. -/
structure Assigner.Exact (accounts : List AccountFunding) (batchSize : Nat)
    (assigner : Assigner) : Prop where
  entries : ∃ assignments, List.Forall₂ Assigned accounts assignments ∧
    assigner.iter.Perm assignments
  ordered : assigner.iter.Pairwise fun b b' => b.index < b'.index
  len : assigner.len = accounts.length
  wallets : ∀ children : List SigningKey, children.length = batchSize →
    ∀ b ∈ assigner.iter, ∃ kp, children[b.index]? = some kp

theorem filterMap_empty (batchSize : Nat) :
    (List.replicate batchSize (none : Option WalletAssignment)).filterMap id = [] := by
  rw [List.filterMap_eq_nil_iff]
  intro slot hslot
  exact (List.mem_replicate.1 hslot).2

theorem placed_empty (batchSize : Nat) : Placed (List.replicate batchSize none) := by
  intro i a ha
  cases (List.mem_replicate.1 (List.mem_of_getElem? ha)).2

section Built
variable {env : Env} {w w' : World}

theorem slots_of_build (h : Assigner.build accounts batchSize env w = (.ok assigner, w')) :
    Fillable batchSize accounts (List.replicate batchSize none) ∧
      ∃ assignments, List.Forall₂ Assigned accounts assignments ∧
        assigner.slots = place (List.replicate batchSize none) assignments := by
  obtain ⟨slots, w₁, hfill, h⟩ := bind_run_eq_ok h
  obtain rfl : ⟨slots⟩ = assigner := Except.ok.inj (Prod.mk.inj h).1
  exact fill_eq_ok List.length_replicate hfill

theorem placed_of_build (h : Assigner.build accounts batchSize env w = (.ok assigner, w')) :
    Placed assigner.slots := by
  obtain ⟨-, assignments, -, hslots⟩ := slots_of_build h
  rw [hslots]
  exact placed_place (placed_empty batchSize) assignments

theorem build_eq_ok (h : Assigner.build accounts batchSize env w = (.ok assigner, w')) :
    ValidIndices accounts batchSize ∧ assigner.Exact accounts batchSize := by
  have hplaced := placed_of_build h
  obtain ⟨hfillable, assignments, hassigned, hslots⟩ := slots_of_build h
  have hperm := place_perm List.length_replicate hfillable
    (hassigned.imp fun a b hab => hab.index)
  rw [filterMap_empty, List.append_nil, ← hslots] at hperm
  refine ⟨fillable_empty.1 hfillable, ⟨assignments, hassigned, hperm⟩, hplaced.pairwise, ?_, ?_⟩
  · rw [Assigner.len_eq, Assigner.iter, hperm.length_eq, hassigned.length_eq]
  · intro children hchildren b hb
    obtain ⟨slot, hslot, rfl⟩ := List.mem_filterMap.1 hb
    obtain ⟨i, hi, hget⟩ := List.getElem_of_mem hslot
    have hindex := hplaced i b ((List.getElem?_eq_getElem hi).trans (congrArg some hget))
    rw [hslots, length_place, List.length_replicate] at hi
    exact ⟨_, List.getElem?_eq_getElem (by omega)⟩

theorem build_returns (hdraws : ∀ tick, ∃ draw, env.draw tick = some draw)
    (h : ValidIndices accounts batchSize) :
    ∃ assigner w', Assigner.build accounts batchSize env w = (.ok assigner, w') := by
  obtain ⟨slots, w', hfill⟩ :=
    fill_returns (w := w) hdraws List.length_replicate (fillable_empty.2 h)
  refine ⟨⟨slots⟩, w', ?_⟩
  rw [Assigner.build, bind_run_ok hfill]
  rfl

end Built

def Env.drawing (env : Env) (rng : Nat → UInt64) : Env :=
  { env with draw := fun tick => some (rng tick) }

/-- Building succeeds just in case the indices are of the batch and distinct, whatever is drawn, and
then the assignments are exactly the accounts'. -/
theorem build_exact (accounts : List AccountFunding) (batchSize : Nat) (rng : Nat → UInt64)
    (env : Env) (w : World) :
    ((∃ assigner w', Assigner.build accounts batchSize (env.drawing rng) w = (.ok assigner, w')) ↔
      ValidIndices accounts batchSize) ∧
    ∀ assigner w', Assigner.build accounts batchSize (env.drawing rng) w = (.ok assigner, w') →
      assigner.Exact accounts batchSize := by
  refine ⟨⟨?_, ?_⟩, ?_⟩
  · rintro ⟨assigner, w', hbuild⟩
    exact (build_eq_ok hbuild).1
  · intro hvalid
    exact build_returns (fun tick => ⟨rng tick, rfl⟩) hvalid
  · intro assigner w' hbuild
    exact (build_eq_ok hbuild).2

def sampleAccounts : List AccountFunding := [⟨3, 2000000000, 100⟩, ⟨1, 1000000000, 0⟩]

theorem build_exact_sample : ∃ assigner w',
    Assigner.build sampleAccounts 3
      ((Env.calm 0 (Vector.replicate 32 1)).drawing fun tick => UInt64.ofNat (7 * tick))
      (.init .empty) = (.ok assigner, w') ∧ assigner.Exact sampleAccounts 3 := by
  obtain ⟨hbuilt, hexact⟩ := build_exact sampleAccounts 3 (fun tick => UInt64.ofNat (7 * tick))
    (.calm 0 (Vector.replicate 32 1)) (.init .empty)
  obtain ⟨assigner, w', hbuild⟩ := hbuilt.2 ⟨by decide, by decide⟩
  exact ⟨assigner, w', hbuild, hexact assigner w' hbuild⟩

end TokenPumper
