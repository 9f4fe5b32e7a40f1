import TokenPumper.Keys.DistributeFits

namespace TokenPumper
open LittleEndian Effect FileTree Transaction
set_option autoImplicit true

/-- The checks in front of the distribution let the assignments through. -/
def Validated (children : List SigningKey) (assigner : Assigner) : Prop :=
  ∀ env w, checkAssignments children assigner.iter env w = (.ok (), w)

/-- Whatever is drawn, the checks say the same of what is built. -/
def DiceFree (accounts : List AccountFunding) (batchSize : Nat) : Prop :=
  ∀ env env' w w' assigner assigner' w₁ w₁',
    Assigner.build accounts batchSize env w = (.ok assigner, w₁) →
    Assigner.build accounts batchSize env' w' = (.ok assigner', w₁') →
      ∀ children : List SigningKey, children.length = batchSize →
        (Validated children assigner ↔ Validated children assigner')

theorem validated_iff {children : List SigningKey} {assigner : Assigner}
    (hindex : ∀ b ∈ assigner.iter, b.index < children.length) :
    Validated children assigner ↔ ∀ b ∈ assigner.iter, rentExemptMinLamports ≤ b.amount := by
  constructor
  · intro hpass b hb
    by_contra hlow
    obtain ⟨e, hstop⟩ := checkAssignments_stop hb (UInt64.not_le.1 hlow) children
      (Env.calm 0 (Vector.replicate 32 0)) (.init Tree.empty)
    cases (hpass _ _).symm.trans hstop
  · intro hrent env w
    exact checkAssignments_pass (fun b hb => ⟨hindex b hb, hrent b hb⟩) w

theorem validated_iff_debug [Ed25519] {children : List SigningKey} {assigner : Assigner}
    (hindex : ∀ b ∈ assigner.iter, b.index < children.length) (funder : SigningKey) (env : Env)
    (w : World) :
    Validated children assigner ↔
      (Distribute.funderToChildren funder children assigner true env w).1 = .ok () := by
  by_cases hnone : assigner.iter = []
  · have hpass : Validated children assigner := by
      intro env w
      rw [hnone]
      rfl
    rw [Distribute.funderToChildren, if_pos (Assigner.isEmpty_iff.2 hnone)]
    exact iff_of_true hpass rfl
  · rw [validated_iff hindex]
    constructor
    · intro hrent
      obtain ⟨recipients, -, hrun⟩ := funderToChildren_run hindex hrent hnone funder true
      exact congrArg Prod.fst hrun
    · intro hok b hb
      by_contra hlow
      obtain ⟨e, hstop⟩ := checkAssignments_stop hb (UInt64.not_le.1 hlow) children env w
      rw [Distribute.funderToChildren, if_neg (mt Assigner.isEmpty_iff.1 hnone),
        bind_run_error hstop] at hok
      cases hok

/-- The draws that give each number what is picked for it; none is asked for zero. -/
def drawsFor (pick : UInt64 → UInt64) (base : UInt64) : List UInt64 :=
  if base = 0 then [] else [pick base]

def draws (pick : UInt64 → UInt64) : List AccountFunding → List UInt64
  | [] => []
  | a :: accounts =>
    drawsFor pick a.amount ++ (drawsFor pick a.cuPriceLamports ++ draws pick accounts)

def Supplies (env : Env) (tick : Nat) (numbers : List UInt64) : Prop :=
  ∀ i draw, numbers[i]? = some draw → env.draw (tick + i) = some draw

def picked (pick : UInt64 → UInt64) (a : AccountFunding) : WalletAssignment :=
  ⟨a.index - 1, jitterOf a.amount (pick a.amount),
    jitterOf a.cuPriceLamports (pick a.cuPriceLamports)⟩

section Picks
variable {env : Env} {w : World}

theorem jitter_picked (h : Supplies env w.tick (drawsFor pick base ++ rest)) :
    ∃ w', jitter base env w = (.ok (jitterOf base (pick base)), w') ∧
      Supplies env w'.tick rest := by
  by_cases hzero : base = 0
  · rw [drawsFor, if_pos hzero, List.nil_append] at h
    refine ⟨w, ?_, h⟩
    rw [jitter, jitterOf, if_pos hzero, if_pos hzero]
    rfl
  · rw [drawsFor, if_neg hzero] at h
    refine ⟨_, jitter_run (h 0 (pick base) rfl) base, ?_⟩
    intro i draw hi
    have hnext := h (i + 1) draw hi
    rw [drawn, if_neg hzero]
    rwa [← Nat.add_assoc, Nat.add_right_comm] at hnext

theorem fill_picked (h : Supplies env w.tick (draws pick accounts))
    (hlen : slots.length = batchSize) (hfillable : Fillable batchSize accounts slots) :
    ∃ w', Assigner.fill batchSize accounts slots env w =
      (.ok (place slots (accounts.map (picked pick))), w') := by
  induction accounts generalizing slots w with
  | nil => exact ⟨w, rfl⟩
  | cons a accounts ih =>
    obtain ⟨ha, hrest⟩ := (fillable_cons hlen (picked pick a)).1 hfillable
    obtain ⟨w₁, hamount, h₁⟩ := jitter_picked h
    obtain ⟨w₂, hcu, h₂⟩ := jitter_picked h₁
    rw [fill_cons_run ha.1 ha.2 hamount hcu]
    exact ih h₂ (by rw [List.length_set, hlen]) hrest

theorem build_picked (pick : UInt64 → UInt64) (h : ValidIndices accounts batchSize) :
    ∃ env w assigner w', Assigner.build accounts batchSize env w = (.ok assigner, w') ∧
      assigner.iter.Perm (accounts.map (picked pick)) := by
  let env : Env :=
    { Env.calm 0 (Vector.replicate 32 0) with draw := fun tick => (draws pick accounts)[tick]? }
  have hsupplies : Supplies env (World.init Tree.empty).tick (draws pick accounts) := by
    intro i draw hi
    change (draws pick accounts)[0 + i]? = some draw
    rw [Nat.zero_add, hi]
  have hfillable := fillable_empty.2 h
  obtain ⟨w', hfill⟩ := fill_picked hsupplies List.length_replicate hfillable
  have hindex : List.Forall₂ (fun a b => a.index = b.index + 1) accounts
      (accounts.map (picked pick)) := by
    rw [List.forall₂_map_right_iff, List.forall₂_same]
    exact fun a ha => (Nat.sub_add_cancel (h.1 a ha).1).symm
  have hperm := place_perm List.length_replicate hfillable hindex
  rw [filterMap_empty, List.append_nil] at hperm
  refine ⟨env, .init Tree.empty,
    ⟨place (List.replicate batchSize none) (accounts.map (picked pick))⟩, w', ?_, hperm⟩
  rw [Assigner.build, bind_run_ok hfill]
  rfl

end Picks

theorem jitterOf_zero (base : UInt64) : (jitterOf base 0).toNat = base.toNat * 7 / 10 := by
  by_cases h : base = 0
  · subst h
    rfl
  · rw [toNat_jitterOf base 0 h, UInt64.toNat_zero, Nat.zero_mod, Nat.add_zero]

def fullDraw (base : UInt64) : UInt64 := base - UInt64.ofNat (base.toNat * 70 / 100)

theorem jitterOf_fullDraw (base : UInt64) : jitterOf base (fullDraw base) = base := by
  by_cases h : base = 0
  · subst h
    rfl
  · apply UInt64.toNat_inj.1
    rw [toNat_jitterOf base _ h, fullDraw, UInt64.toNat_sub_of_le _ _ (jitterMin_le base),
      toNat_jitterMin, Nat.mod_eq_of_lt (Nat.lt_succ_self _)]
    omega

theorem exists_of_forall₂ {r : α → β → Prop} (h : List.Forall₂ r as bs) :
    ∀ a ∈ as, ∃ b ∈ bs, r a b := by
  induction h with
  | nil => exact fun a ha => absurd ha List.not_mem_nil
  | cons hab _ ih =>
    rw [List.forall_mem_cons]
    refine ⟨⟨_, List.mem_cons_self, hab⟩, ?_⟩
    intro a ha
    obtain ⟨b, hb, hr⟩ := ih a ha
    exact ⟨b, List.mem_cons_of_mem _ hb, hr⟩

section Built
variable {env : Env} {w w' : World}

theorem validated_built (hbuild : Assigner.build accounts batchSize env w = (.ok assigner, w'))
    {children : List SigningKey} (hchildren : children.length = batchSize) :
    Validated children assigner ↔ ∀ b ∈ assigner.iter, rentExemptMinLamports ≤ b.amount := by
  apply validated_iff
  rw [hchildren]
  exact (build_assigns hbuild).2

theorem not_validated_of_low (hbuild : Assigner.build accounts batchSize env w = (.ok assigner, w'))
    {children : List SigningKey} (hchildren : children.length = batchSize) (ha : a ∈ accounts)
    (hlow : a.amount < rentExemptMinLamports) : ¬Validated children assigner := by
  obtain ⟨assignments, hassigned, hperm⟩ := (build_eq_ok hbuild).2.entries
  obtain ⟨b, hb, hab⟩ := exists_of_forall₂ hassigned a ha
  rw [validated_built hbuild hchildren]
  intro hrent
  have hle := UInt64.le_trans (hrent b (hperm.mem_iff.2 hb)) hab.amount.upper
  exact UInt64.not_le.2 hlow hle

theorem validated_of_high (hbuild : Assigner.build accounts batchSize env w = (.ok assigner, w'))
    {children : List SigningKey} (hchildren : children.length = batchSize)
    (hhigh : ∀ a ∈ accounts, rentExemptMinLamports.toNat ≤ a.amount.toNat * 7 / 10) :
    Validated children assigner := by
  obtain ⟨assignments, hassigned, hperm⟩ := (build_eq_ok hbuild).2.entries
  rw [validated_built hbuild hchildren]
  intro b hb
  obtain ⟨a, ha, hab⟩ := exists_of_forall₂ (List.Forall₂.flip (R := flip Assigned) hassigned) b
    (hperm.mem_iff.1 hb)
  rw [UInt64.le_iff_toNat_le]
  exact Nat.le_trans (hhigh a ha) hab.amount.lower

theorem validated_picked (hbuild : Assigner.build accounts batchSize env w = (.ok assigner, w'))
    (hperm : assigner.iter.Perm (accounts.map (picked pick))) {children : List SigningKey}
    (hchildren : children.length = batchSize) :
    Validated children assigner ↔
      ∀ a ∈ accounts, rentExemptMinLamports ≤ jitterOf a.amount (pick a.amount) := by
  rw [validated_built hbuild hchildren]
  simp only [hperm.mem_iff, List.forall_mem_map]
  rfl

end Built

/-- The checks depend on the dice unless an account is too low for any draw, or all are high enough
for the lowest, or nothing can be built at all. -/
theorem dice_free_iff (accounts : List AccountFunding) (batchSize : Nat) :
    DiceFree accounts batchSize ↔ ¬ValidIndices accounts batchSize ∨
      (∃ a ∈ accounts, a.amount < rentExemptMinLamports) ∨
      ∀ a ∈ accounts, rentExemptMinLamports.toNat ≤ a.amount.toNat * 7 / 10 := by
  constructor
  · intro hfree
    by_contra hnot
    simp only [not_or, not_not, not_exists, not_and, not_forall, UInt64.not_lt, Nat.not_le] at hnot
    obtain ⟨hvalid, hrent, a, ha, hlow⟩ := hnot
    obtain ⟨env, w, full, w₁, hfull, hfullPicked⟩ := build_picked fullDraw hvalid
    obtain ⟨env', w', least, w₁', hleast, hleastPicked⟩ := build_picked (fun _ => 0) hvalid
    have hchildren : (List.replicate batchSize (Vector.replicate 32 0 : SigningKey)).length =
        batchSize := List.length_replicate
    have hsame := hfree env env' w w' full least w₁ w₁' hfull hleast _ hchildren
    rw [validated_picked hfull hfullPicked hchildren,
      validated_picked hleast hleastPicked hchildren] at hsame
    have hpass : ∀ a ∈ accounts, rentExemptMinLamports ≤ jitterOf a.amount (fullDraw a.amount) := by
      intro a ha
      rw [jitterOf_fullDraw]
      exact hrent a ha
    have hle := UInt64.le_iff_toNat_le.1 (hsame.1 hpass a ha)
    rw [jitterOf_zero] at hle
    exact Nat.not_le.2 hlow hle
  · intro h env env' w w' assigner assigner' w₁ w₁' hbuild hbuild' children hchildren
    rcases h with hinvalid | ⟨a, ha, hlow⟩ | hhigh
    · exact absurd (build_eq_ok hbuild).1 hinvalid
    · exact iff_of_false (not_validated_of_low hbuild hchildren ha hlow)
        (not_validated_of_low hbuild' hchildren ha hlow)
    · exact iff_of_true (validated_of_high hbuild hchildren hhigh)
        (validated_of_high hbuild' hchildren hhigh)

/-- A hundred thousand lamports above the rent-exempt minimum. -/
def thinFundings : List AccountFunding := [⟨1, 990880, 0⟩]

def constantDraw (draw : UInt64) : Env := (Env.calm 0 (Vector.replicate 32 0)).drawing fun _ => draw

theorem dice_decide : ¬DiceFree thinFundings 1 := by
  intro hfree
  have hsame := hfree (constantDraw 0) (constantDraw 297264) (.init Tree.empty) (.init Tree.empty)
    ⟨[some ⟨0, 693616, 0⟩]⟩ ⟨[some ⟨0, 990880, 0⟩]⟩ ⟨1, Tree.empty, []⟩ ⟨1, Tree.empty, []⟩
    rfl rfl [Vector.replicate 32 1] rfl
  have hpass : Validated [Vector.replicate 32 1] ⟨[some ⟨0, 990880, 0⟩]⟩ := fun _ _ => rfl
  have hstop := hsame.2 hpass (constantDraw 0) (.init Tree.empty)
  cases (Prod.mk.inj hstop).1

end TokenPumper
