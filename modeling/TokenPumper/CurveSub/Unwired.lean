import TokenPumper.CurveSub.Once

namespace TokenPumper.CurveSub
open LittleEndian
set_option autoImplicit true

def Fired.handed : Fired → Option (List UInt8)
  | .buy _ _ handed => handed
  | .spawned _ => none
  | .devSell _ handed => handed
  | .walletSell _ _ _ handed => handed

/-- No context of the task has a submitter. -/
structure Task.Unwired (task : Task) : Prop where
  buys : ∀ ctx ∈ task.buyCtxs, ctx.submitter = none
  walletSells : ∀ ctx ∈ task.walletSellCtxs, ctx.submitter = none
  sell : ∀ ctx ∈ task.sellCtx, ctx.submitter = none

structure Deadline.Unwired (d : Deadline) : Prop where
  sell : ∀ ctx ∈ d.devSell, ctx.submitter = none
  wallets : ∀ p ∈ d.wallets, p.2.submitter = none

theorem forall_numbered {p : α → Prop} (h : ∀ x ∈ xs, p x) : ∀ x ∈ numbered xs, p x.2 := by
  intro x hx
  obtain ⟨⟨a, i⟩, hmem, rfl⟩ := List.mem_map.1 hx
  exact h a (List.mem_of_getElem? (List.mem_zipIdx_iff_getElem?.1 hmem))

theorem Task.Unwired.batchAt (h : task.Unwired) (slot : UInt64) :
    (CurveSub.batchAt task slot).Unwired where
  sell := h.sell
  wallets := forall_numbered h.walletSells

variable [Ed25519]

theorem fireBuys_unwired (h : ∀ p ∈ ctxs, p.2.submitter = none)
    (hf : fireBuys slot blockhashes ctxs buyBuf = (fired, rest)) :
    ∀ f ∈ fired, f.handed = none := by
  induction ctxs generalizing buyBuf fired rest with
  | nil =>
    obtain ⟨rfl, -⟩ := Prod.mk.inj hf
    exact fun f hf => absurd hf List.not_mem_nil
  | cons c ctxs ih =>
    obtain ⟨hc, hctxs⟩ := List.forall_mem_cons.1 h
    obtain ⟨k, ctx⟩ := c
    rw [fireBuys] at hf
    split at hf
    · obtain ⟨rfl, -⟩ := Prod.mk.inj hf
      exact fun f hf => absurd hf List.not_mem_nil
    · rename_i buf handed hfire
      obtain ⟨rfl, -⟩ := Prod.mk.inj hf
      rw [fireBuy, hc] at hfire
      exact List.forall_mem_cons.2 ⟨fire_unwired hfire, ih hctxs rfl⟩

theorem next_unwired {d d' : Deadline} (hd : d.Unwired)
    (h : d.next balances blockhash = some (d', out)) :
    d'.Unwired ∧ ∀ f ∈ out, f.handed = none := by
  have hquiet : ∀ f ∈ ([] : List Fired), f.handed = none := fun f hf => absurd hf List.not_mem_nil
  have hsold (ctx : SellContext) (hc : none = some ctx) : ctx.submitter = none := by
    cases hc
  obtain ⟨fireSlot, devSell, wallets, sellBuf⟩ := d
  cases devSell with
  | some ctx =>
    have hctx : ctx.submitter = none := hd.sell ctx rfl
    simp only [Deadline.next] at h
    split at h
    · obtain ⟨rfl, rfl⟩ := Prod.mk.inj (Option.some.inj h)
      exact ⟨⟨hsold, fun _ hp => absurd hp List.not_mem_nil⟩, hquiet⟩
    · rename_i hfire
      obtain ⟨rfl, rfl⟩ := Prod.mk.inj (Option.some.inj h)
      rw [fireSell, hctx] at hfire
      exact ⟨⟨hsold, hd.wallets⟩,
        List.forall_mem_singleton.2 (fire_unwired hfire)⟩
  | none =>
    cases wallets with
    | nil => cases h
    | cons w wallets =>
      obtain ⟨k, ctx⟩ := w
      obtain ⟨hctx, hwallets⟩ := List.forall_mem_cons.1 hd.wallets
      simp only [Deadline.next] at h
      split at h
      · obtain ⟨rfl, rfl⟩ := Prod.mk.inj (Option.some.inj h)
        exact ⟨⟨hd.sell, fun _ hp => absurd hp List.not_mem_nil⟩, hquiet⟩
      · split at h
        · obtain ⟨rfl, rfl⟩ := Prod.mk.inj (Option.some.inj h)
          exact ⟨⟨hd.sell, hwallets⟩, hquiet⟩
        · split at h
          · obtain ⟨rfl, rfl⟩ := Prod.mk.inj (Option.some.inj h)
            exact ⟨⟨hd.sell, fun _ hp => absurd hp List.not_mem_nil⟩, hquiet⟩
          · rename_i hfire
            obtain ⟨rfl, rfl⟩ := Prod.mk.inj (Option.some.inj h)
            rw [fireWalletSell, hctx] at hfire
            exact ⟨⟨hd.sell, hwallets⟩, List.forall_mem_singleton.2 (fire_unwired hfire)⟩

theorem step_unwired {task : Task} (ht : task.Unwired) (hs : ∀ d ∈ s.deadlines, d.Unwired)
    (h : step task s e = some (s', out)) :
    (∀ d ∈ s'.deadlines, d.Unwired) ∧ ∀ f ∈ out, f.handed = none := by
  rcases step_cases h with ⟨slot, -, ho⟩ | ⟨-, hsilent | hc⟩
  · obtain ⟨fired, blockhashes, buf, hfired, rfl⟩ := ho.builds
    rw [ho.spawns, List.forall_mem_append, List.forall_mem_append]
    refine ⟨⟨hs, List.forall_mem_singleton.2 (ht.batchAt slot)⟩, ?_, ?_⟩
    · exact fireBuys_unwired (forall_numbered ht.buys) hfired
    · exact List.forall_mem_singleton.2 rfl
  · rw [hsilent.deadlines, hsilent.out]
    exact ⟨hs, fun f hf => absurd hf List.not_mem_nil⟩
  · obtain ⟨i, d, d', blockhash, hd, hn, hset⟩ := hc.next
    obtain ⟨hd', hout⟩ := next_unwired (hs d (List.mem_of_getElem? hd)) hn
    rw [hset]
    refine ⟨fun x hx => ?_, hout⟩
    rcases List.mem_or_eq_of_mem_set hx with hx | rfl
    · exact hs x hx
    · exact hd'

end TokenPumper.CurveSub
