import Mathlib.Algebra.GroupWithZero.Nat
import Mathlib.Algebra.BigOperators.Group.Finset.Piecewise
import Mathlib.Algebra.Order.BigOperators.Group.Finset

namespace Ledger
set_option autoImplicit true

structure Transfer (α : Type) where
  source : α
  target : α
  amount : Nat
deriving DecidableEq, Repr

structure Tx (α : Type) where
  payer : α
  fee : Nat
  transfers : List (Transfer α)
deriving DecidableEq, Repr

section Execution
variable {α : Type} [DecidableEq α]

def debit (b : α → Nat) (a : α) (amount : Nat) : Option (α → Nat) :=
  if amount ≤ b a then some (Function.update b a (b a - amount)) else none

def credit (b : α → Nat) (a : α) (amount : Nat) : α → Nat := Function.update b a (b a + amount)

def move (b : α → Nat) (t : Transfer α) : Option (α → Nat) :=
  (debit b t.source t.amount).map fun b' => credit b' t.target t.amount

/-- One transfer after the other, up to the first that fails. -/
def moves (b : α → Nat) : List (Transfer α) → Option (α → Nat)
  | [] => some b
  | t :: ts => (move b t).bind fun b' => moves b' ts

/-- A transaction that is taken: without its fee it changes nothing, and with it the transfers are
made if they all can be and `granted` does not stand in their way. -/
def land (b : α → Nat) (tx : Tx α) (granted : Bool) : α → Nat :=
  match debit b tx.payer tx.fee with
  | none => b
  | some paid => if granted then (moves paid tx.transfers).getD paid else paid

def charged (b : α → Nat) (tx : Tx α) : Nat := if tx.fee ≤ b tx.payer then tx.fee else 0

def run (b : α → Nat) : List (Tx α × Bool) → α → Nat
  | [] => b
  | (tx, granted) :: rest => run (land b tx granted) rest

def fees (b : α → Nat) : List (Tx α × Bool) → Nat
  | [] => 0
  | (tx, granted) :: rest => charged b tx + fees (land b tx granted) rest

end Execution

def total {α : Type} (S : Finset α) (b : α → Nat) : Nat := ∑ a ∈ S, b a

/-- The payer and both ends of every transfer are among the accounts. -/
structure Tx.Within {α : Type} (tx : Tx α) (S : Finset α) : Prop where
  payer : tx.payer ∈ S
  transfers : ∀ t ∈ tx.transfers, t.source ∈ S ∧ t.target ∈ S

section Sums
variable {α : Type} [DecidableEq α] {S : Finset α} {b b' : α → Nat} {a : α} {tx : Tx α}

theorem total_credit (ha : a ∈ S) (b : α → Nat) (n : Nat) :
    total S (credit b a n) = total S b + n := by
  have hsplit := Finset.sum_update_of_mem ha b (b a + n)
  have hrest := Finset.add_sum_erase S b ha
  rw [Finset.erase_eq] at hrest
  rw [total, credit, hsplit, total]
  omega

theorem total_update_of_notMem (ha : a ∉ S) (b : α → Nat) (n : Nat) :
    total S (Function.update b a n) = total S b :=
  Finset.sum_update_of_notMem ha b n

theorem debit_eq_some (h : debit b a n = some b') :
    n ≤ b a ∧ b' = Function.update b a (b a - n) := by
  rw [debit] at h
  split at h
  · rename_i hle
    exact ⟨hle, (Option.some.inj h).symm⟩
  · cases h

theorem credit_debit (h : debit b a n = some b') : credit b' a n = b := by
  obtain ⟨hle, rfl⟩ := debit_eq_some h
  rw [credit, Function.update_self, Nat.sub_add_cancel hle, Function.update_idem,
    Function.update_eq_self]

theorem total_debit (h : debit b a n = some b') (ha : a ∈ S) : total S b' + n = total S b := by
  rw [← total_credit ha, credit_debit h]

theorem total_debit_of_notMem (h : debit b a n = some b') (ha : a ∉ S) :
    total S b' = total S b := by
  obtain ⟨-, rfl⟩ := debit_eq_some h
  exact total_update_of_notMem ha b _

theorem debit_le (h : debit b a n = some b') (c : α) : b' c ≤ b c := by
  obtain ⟨-, rfl⟩ := debit_eq_some h
  rw [Function.update_apply]
  split
  · rename_i hc
    rw [hc]
    exact Nat.sub_le _ _
  · exact Nat.le_refl _

theorem debit_of_ne (h : debit b a n = some b') (hc : c ≠ a) : b' c = b c := by
  obtain ⟨-, rfl⟩ := debit_eq_some h
  exact Function.update_of_ne hc _ _

theorem move_eq_some (h : move b t = some b') :
    ∃ paid, debit b t.source t.amount = some paid ∧ b' = credit paid t.target t.amount := by
  obtain ⟨paid, hpaid, rfl⟩ := Option.map_eq_some_iff.1 h
  exact ⟨paid, hpaid, rfl⟩

theorem moves_induction (rel : (α → Nat) → (α → Nat) → Prop) (hrefl : ∀ b, rel b b)
    (htrans : ∀ {b b' b''}, rel b b' → rel b' b'' → rel b b'') {ts : List (Transfer α)}
    (hmove : ∀ t ∈ ts, ∀ b b', move b t = some b' → rel b b') (h : moves b ts = some b') :
    rel b b' := by
  induction ts generalizing b with
  | nil =>
    obtain rfl := Option.some.inj h
    exact hrefl b
  | cons t ts ih =>
    obtain ⟨b₁, ht, hts⟩ := Option.bind_eq_some_iff.1 h
    have hrest := ih (fun t' ht' => hmove t' (List.mem_cons_of_mem _ ht')) hts
    exact htrans (hmove t List.mem_cons_self _ _ ht) hrest

theorem land_induction (rel : (α → Nat) → (α → Nat) → Prop) (hrefl : ∀ b, rel b b)
    (htrans : ∀ {b b' b''}, rel b b' → rel b' b'' → rel b b'')
    (hmove : ∀ t ∈ tx.transfers, ∀ b b', move b t = some b' → rel b b')
    (hpaid : debit b tx.payer tx.fee = some paid) (granted : Bool) :
    rel paid (land b tx granted) := by
  rw [land, hpaid]
  dsimp only
  split
  · cases hmoves : moves paid tx.transfers with
    | none => exact hrefl paid
    | some b' => exact moves_induction rel hrefl htrans hmove hmoves
  · exact hrefl paid

theorem land_of_none (h : debit b tx.payer tx.fee = none) (granted : Bool) :
    land b tx granted = b := by
  rw [land, h]

theorem charged_of_none (h : debit b tx.payer tx.fee = none) : charged b tx = 0 := by
  rw [debit] at h
  split at h
  · cases h
  · rename_i hnot
    exact if_neg hnot

theorem charged_of_some (h : debit b tx.payer tx.fee = some paid) : charged b tx = tx.fee :=
  if_pos (debit_eq_some h).1

theorem total_move (h : move b t = some b') (hsource : t.source ∈ S) (htarget : t.target ∈ S) :
    total S b' = total S b := by
  obtain ⟨paid, hpaid, rfl⟩ := move_eq_some h
  rw [total_credit htarget, total_debit hpaid hsource]

theorem total_le_move (h : move b t = some b') (htarget : t.target ∈ S) :
    total S b ≤ total S b' := by
  obtain ⟨paid, hpaid, rfl⟩ := move_eq_some h
  rw [total_credit htarget]
  by_cases hsource : t.source ∈ S
  · exact Nat.le_of_eq (total_debit hpaid hsource).symm
  · rw [total_debit_of_notMem hpaid hsource]
    exact Nat.le_add_right _ _

theorem move_le (h : move b t = some b') (hc : c ≠ t.target) : b' c ≤ b c := by
  obtain ⟨paid, hpaid, rfl⟩ := move_eq_some h
  rw [credit, Function.update_of_ne hc]
  exact debit_le hpaid c

theorem move_of_ne (h : move b t = some b') (hs : c ≠ t.source) (ht : c ≠ t.target) :
    b' c = b c := by
  obtain ⟨paid, hpaid, rfl⟩ := move_eq_some h
  rw [credit, Function.update_of_ne ht]
  exact debit_of_ne hpaid hs

theorem total_land (h : tx.Within S) (b : α → Nat) (granted : Bool) :
    total S (land b tx granted) + charged b tx = total S b := by
  cases hpaid : debit b tx.payer tx.fee with
  | none => rw [land_of_none hpaid, charged_of_none hpaid, Nat.add_zero]
  | some paid =>
    have hsame := land_induction (fun b b' => total S b' = total S b) (fun _ => rfl)
      (fun h h' => h'.trans h)
      (fun t ht _ _ hmove => total_move hmove (h.transfers t ht).1 (h.transfers t ht).2) hpaid
      granted
    rw [hsame, charged_of_some hpaid, total_debit hpaid h.payer]

theorem total_le_land (h : ∀ t ∈ tx.transfers, t.target ∈ S) (b : α → Nat) (granted : Bool) :
    total S b ≤ total S (land b tx granted) + charged b tx := by
  cases hpaid : debit b tx.payer tx.fee with
  | none => rw [land_of_none hpaid, charged_of_none hpaid, Nat.add_zero]
  | some paid =>
    have hmore := land_induction (fun b b' => total S b ≤ total S b') (fun _ => Nat.le_refl _)
      Nat.le_trans (fun t ht _ _ hmove => total_le_move hmove (h t ht)) hpaid granted
    rw [charged_of_some hpaid]
    by_cases hpayer : tx.payer ∈ S
    · have hfee := total_debit hpaid hpayer
      omega
    · have hfee := total_debit_of_notMem hpaid hpayer
      omega

theorem land_le (hc : ∀ t ∈ tx.transfers, c ≠ t.target) (b : α → Nat) (granted : Bool) :
    land b tx granted c ≤ b c := by
  cases hpaid : debit b tx.payer tx.fee with
  | none => rw [land_of_none hpaid]
  | some paid =>
    have hless := land_induction (fun b b' => b' c ≤ b c) (fun _ => Nat.le_refl _)
      (fun h h' => Nat.le_trans h' h) (fun t ht _ _ hmove => move_le hmove (hc t ht)) hpaid granted
    exact Nat.le_trans hless (debit_le hpaid c)

theorem land_of_ne (hpayer : c ≠ tx.payer)
    (hc : ∀ t ∈ tx.transfers, c ≠ t.source ∧ c ≠ t.target) (b : α → Nat) (granted : Bool) :
    land b tx granted c = b c := by
  cases hpaid : debit b tx.payer tx.fee with
  | none => rw [land_of_none hpaid]
  | some paid =>
    have hsame := land_induction (fun b b' => b' c = b c) (fun _ => rfl) (fun h h' => h'.trans h)
      (fun t ht _ _ hmove => move_of_ne hmove (hc t ht).1 (hc t ht).2) hpaid granted
    exact hsame.trans (debit_of_ne hpaid hpayer)

section Runs
variable {landed : List (Tx α × Bool)}

theorem total_run (h : ∀ l ∈ landed, l.1.Within S) (b : α → Nat) :
    total S (run b landed) + fees b landed = total S b := by
  induction landed generalizing b with
  | nil => rfl
  | cons l rest ih =>
    obtain ⟨hl, hrest⟩ := List.forall_mem_cons.1 h
    have hone := total_land hl b l.2
    have hmore := ih hrest (land b l.1 l.2)
    rw [run, fees]
    omega

theorem total_le_run (h : ∀ l ∈ landed, ∀ t ∈ l.1.transfers, t.target ∈ S) (b : α → Nat) :
    total S b ≤ total S (run b landed) + fees b landed := by
  induction landed generalizing b with
  | nil => exact Nat.le_refl _
  | cons l rest ih =>
    obtain ⟨hl, hrest⟩ := List.forall_mem_cons.1 h
    have hone := total_le_land hl b l.2
    have hmore := ih hrest (land b l.1 l.2)
    rw [run, fees]
    omega

theorem run_le (h : ∀ l ∈ landed, ∀ t ∈ l.1.transfers, c ≠ t.target) (b : α → Nat) :
    run b landed c ≤ b c := by
  induction landed generalizing b with
  | nil => exact Nat.le_refl _
  | cons l rest ih =>
    obtain ⟨hl, hrest⟩ := List.forall_mem_cons.1 h
    exact Nat.le_trans (ih hrest (land b l.1 l.2)) (land_le hl b l.2)

theorem run_of_notMem (h : ∀ l ∈ landed, l.1.Within S) (hc : c ∉ S) (b : α → Nat) :
    run b landed c = b c := by
  induction landed generalizing b with
  | nil => rfl
  | cons l rest ih =>
    obtain ⟨hl, hrest⟩ := List.forall_mem_cons.1 h
    have hne (a : α) (ha : a ∈ S) : c ≠ a := fun heq => hc (heq ▸ ha)
    rw [run, ih hrest]
    apply land_of_ne (hne _ hl.payer)
    exact fun t ht => ⟨hne _ (hl.transfers t ht).1, hne _ (hl.transfers t ht).2⟩

end Runs

end Sums

end Ledger
