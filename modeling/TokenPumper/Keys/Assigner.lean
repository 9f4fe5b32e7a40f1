import TokenPumper.Config
import TokenPumper.Keys.World

namespace TokenPumper
open Effect
set_option autoImplicit true

/-- The index counts from zero. -/
structure WalletAssignment where
  index : Nat
  amount : UInt64
  cuPriceLamports : UInt64
deriving DecidableEq, Repr

structure Assigner where
  slots : List (Option WalletAssignment)
deriving DecidableEq, Repr

/-- A draw between seven tenths of a number and the number itself. -/
def jitter (base : UInt64) : Run UInt64 := do
  if base = 0 then pure 0
  else do
    let min := UInt64.ofNat (base.toNat * 70 / 100)
    let span := base - min + 1
    let draw ← orPanic (← ask (·.draw))
    pure (min + draw % span)

namespace Assigner

def fill (batchSize : Nat) : List AccountFunding → List (Option WalletAssignment) →
    Run (List (Option WalletAssignment))
  | [], slots => pure slots
  | a :: accounts, slots =>
    if a.index < 1 ∨ a.index > batchSize then
      bail s!"config account index {a.index} out of range 1..={batchSize}"
    else
      let slot := a.index - 1
      if (slots[slot]?).join.isSome then bail s!"duplicate config entry for index {a.index}"
      else do
        let amount ← jitter a.amount
        let cuPriceLamports ← jitter a.cuPriceLamports
        fill batchSize accounts (slots.set slot (some ⟨slot, amount, cuPriceLamports⟩))

def build (accounts : List AccountFunding) (batchSize : Nat) : Run Assigner := do
  let slots ← fill batchSize accounts (List.replicate batchSize none)
  pure ⟨slots⟩

def iter (assigner : Assigner) : List WalletAssignment := assigner.slots.filterMap id

def len (assigner : Assigner) : Nat := assigner.slots.countP Option.isSome

def isEmpty (assigner : Assigner) : Bool := assigner.len = 0

theorem len_eq (assigner : Assigner) : assigner.len = assigner.iter.length := by
  rw [len, iter]
  induction assigner.slots with
  | nil => rfl
  | cons slot slots ih =>
    cases slot with
    | none => exact ih
    | some b => exact (List.countP_cons_of_pos rfl).trans (congrArg Nat.succ ih)

theorem isEmpty_iff {assigner : Assigner} : assigner.isEmpty = true ↔ assigner.iter = [] := by
  rw [isEmpty, len_eq, decide_eq_true_iff, List.length_eq_zero_iff]

end Assigner

end TokenPumper
