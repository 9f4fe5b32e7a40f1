import TokenPumper.CurveSub.Run
import Mathlib.Data.List.Nodup

namespace TokenPumper.CurveSub
open LittleEndian Machine
set_option autoImplicit true

/-- The slot of an update that carries the curve filter and exactly 40 bytes of account data. -/
def signal : Event → Option UInt64
  | .update ⟨filters, some (.account (some info) slot)⟩ _ =>
    if filterCurve ∈ filters ∧ info.data.length = sliceTotalLen then some slot else none
  | _ => none

/-- The slot of the signal at a position, if it is the first signal of all. -/
def firstSignal (events : List Event) (i : Nat) : Option UInt64 :=
  if (events.take i).any fun e => (signal e).isSome then none else events[i]?.bind signal

def Fired.buyOf : Fired → Option (Nat × UInt64)
  | .buy wallet slot _ => some (wallet, slot)
  | _ => none

def Fired.isBuy (k : Nat) : Fired → Bool
  | .buy wallet _ _ => wallet == k
  | _ => false

def Fired.isSpawned : Fired → Bool
  | .spawned _ => true
  | _ => false

def Fired.isDevSell : Fired → Bool
  | .devSell _ _ => true
  | _ => false

def Fired.isWalletSell (k : Nat) : Fired → Bool
  | .walletSell wallet _ _ _ => wallet == k
  | _ => false

theorem numbered_fst (xs : List α) : (numbered xs).map Prod.fst = List.range xs.length := by
  have hf : (Prod.fst ∘ Prod.swap : α × Nat → Nat) = Prod.snd := rfl
  rw [numbered, List.map_map, hf, List.zipIdx_map_snd, List.range_eq_range']

theorem sum_map_set (f : α → Nat) {xs : List α} (hi : xs[i]? = some x) (y : α) :
    ((xs.set i y).map f).sum + f x = (xs.map f).sum + f y := by
  induction xs generalizing i with
  | nil => simp at hi
  | cons z xs ih =>
    cases i with
    | zero =>
      obtain rfl : z = x := by simpa using hi
      simp only [List.set_cons_zero, List.map_cons, List.sum_cons]
      omega
    | succ i =>
      have h := ih (by simpa using hi)
      simp only [List.set_cons_succ, List.map_cons, List.sum_cons]
      omega

variable {task : Task} {s s' : State} {e : Event} {out : List Fired}

def batchAt (task : Task) (slot : UInt64) : Deadline :=
  ⟨slot, task.sellCtx, numbered task.walletSellCtxs, .new⟩

/-- All of a list of contexts, in order, with nothing else in between. -/
structure BuysOf (ctxs : List (Nat × BuyContext)) (slot : UInt64) (fired : List Fired) : Prop where
  wallets : fired.filterMap Fired.buyOf = ctxs.map fun (k, _) => (k, slot)
  only : ∀ f ∈ fired, f.buyOf ≠ none

/-- Nothing is fired, and the latch and the batches stay. -/
structure Silent (s s' : State) (out : List Fired) : Prop where
  out : out = []
  latch : s'.firstSignalFired = s.firstSignalFired
  deadlines : s'.deadlines = s.deadlines

theorem silent_moveTo (h : moveTo s phase = some (s', out)) : Silent s s' out := by
  obtain ⟨rfl, rfl⟩ := Prod.mk.inj (Option.some.inj h)
  exact ⟨rfl, rfl, rfl⟩

theorem handleAta_silent (task : Task) (s : State) (prev : Reserves) (info : AccountInfo)
    (data : Bytes sliceTotalLen) : Silent s (handleAta task s prev info data) [] := by
  simp only [handleAta]
  split
  · exact ⟨rfl, rfl, rfl⟩
  · split
    · exact ⟨rfl, rfl, rfl⟩
    · split <;> exact ⟨rfl, rfl, rfl⟩

theorem BuysOf.countP_eq_zero {p : Fired → Bool} (h : BuysOf ctxs slot fired)
    (hp : ∀ f, f.buyOf ≠ none → p f = false) : fired.countP p = 0 := by
  rw [List.countP_eq_zero]
  intro f hf
  rw [hp f (h.only f hf)]
  exact Bool.false_ne_true

theorem countP_isBuy_eq (k : Nat) (fired : List Fired) :
    fired.countP (Fired.isBuy k) = ((fired.filterMap Fired.buyOf).map Prod.fst).count k := by
  induction fired with
  | nil => rfl
  | cons f fired ih =>
    cases f <;>
      simp [Fired.isBuy, Fired.buyOf, List.countP_cons, List.count_cons, List.filterMap_cons, ih]

theorem BuysOf.all (h : BuysOf (numbered task.buyCtxs) slot fired) :
    fired.filterMap Fired.buyOf = (List.range task.buyCtxs.length).map fun k => (k, slot) := by
  rw [h.wallets, ← numbered_fst, List.map_map]
  rfl

theorem BuysOf.countP_isBuy (h : BuysOf (numbered task.buyCtxs) slot fired) (k : Nat) :
    fired.countP (Fired.isBuy k) ≤ 1 := by
  have hid : (Prod.fst ∘ fun k => (k, slot) : Nat → Nat) = id := rfl
  rw [countP_isBuy_eq, h.all, List.map_map, hid, List.map_id]
  exact List.nodup_iff_count_le_one.1 List.nodup_range k

variable [Ed25519]

theorem fireBuys_all (slot : UInt64) (blockhashes : Nat → Bytes 32)
    (ctxs : List (Nat × BuyContext)) (buyBuf : BuiltTx) :
    ∃ fired buf, fireBuys slot blockhashes ctxs buyBuf = (fired, some buf) ∧
      BuysOf ctxs slot fired := by
  induction ctxs generalizing buyBuf with
  | nil => exact ⟨[], buyBuf, rfl, rfl, fun f hf => absurd hf List.not_mem_nil⟩
  | cons c ctxs ih =>
    obtain ⟨k, ctx⟩ := c
    obtain ⟨built, handed, hfire⟩ := fireBuy_isSome ctx slot (blockhashes k) buyBuf
    obtain ⟨fired, buf, hrest, hall⟩ := ih built
    refine ⟨.buy k slot handed :: fired, buf, ?_, ?_, ?_⟩
    · simp only [fireBuys, hfire, hrest]
    · rw [List.filterMap_cons, Fired.buyOf, hall.wallets, List.map_cons]
    · exact List.forall_mem_cons.2 ⟨Option.some_ne_none _, hall.only⟩

/-- What a signal does while the latch is open. -/
structure Opens (task : Task) (s s' : State) (slot : UInt64) (out : List Fired) : Prop where
  unlatched : s.firstSignalFired = false
  latches : s'.firstSignalFired = true
  fires : ∃ fired, BuysOf (numbered task.buyCtxs) slot fired ∧ out = fired ++ [.spawned slot]
  builds : ∃ fired blockhashes buf,
    fireBuys slot blockhashes (numbered task.buyCtxs) .new = (fired, some buf) ∧
      out = fired ++ [.spawned slot]
  spawns : s'.deadlines = s.deadlines ++ [batchAt task slot]

/-- One action of one of the spawned batches. -/
structure Continues (s s' : State) (out : List Fired) : Prop where
  latch : s'.firstSignalFired = s.firstSignalFired
  next : ∃ (i : Nat) (d d' : Deadline) (blockhash : Bytes 32), s.deadlines[i]? = some d ∧
    d.next s.walletBalances blockhash = some (d', out) ∧ s'.deadlines = s.deadlines.set i d'

theorem handleCurve_cases (task : Task) (s : State) (data : Bytes sliceTotalLen) (slot : UInt64)
    (blockhashes : Nat → Bytes 32) (h : handleCurve task s data slot blockhashes = (s', out)) :
    Opens task s s' slot out ∨ s.firstSignalFired = true ∧ Silent s s' out := by
  obtain ⟨fired, buf, hb, hall⟩ := fireBuys_all slot blockhashes (numbered task.buyCtxs) .new
  cases hl : s.firstSignalFired with
  | true =>
    simp only [handleCurve, hl, ↓reduceIte] at h
    obtain ⟨rfl, rfl⟩ := Prod.mk.inj h
    exact .inr ⟨rfl, rfl, hl.symm, rfl⟩
  | false =>
    simp only [handleCurve, hl, Bool.false_eq_true, ↓reduceIte, hb] at h
    obtain ⟨rfl, rfl⟩ := Prod.mk.inj h
    exact .inl ⟨hl, rfl, ⟨fired, hall, rfl⟩, ⟨fired, blockhashes, buf, hb, rfl⟩, rfl⟩

/-- What an update can do: a signal opens or finds the latch closed, anything else is silent. -/
theorem handleUpdate_cases (prev : Reserves) (update : SubscribeUpdate)
    (blockhashes : Nat → Bytes 32)
    (h : handleUpdate task s prev update blockhashes = (s', out)) :
    (∃ slot, signal (.update update blockhashes) = some slot ∧ Opens task s s' slot out) ∨
      (signal (.update update blockhashes) = none ∨ s.firstSignalFired = true) ∧
        Silent s s' out := by
  have hskip : ({ s with phase := .streamHead prev }, []) = (s', out) → Silent s s' out := by
    intro hs
    obtain ⟨rfl, rfl⟩ := Prod.mk.inj hs
    exact ⟨rfl, rfl, rfl⟩
  obtain ⟨filters, oneof⟩ := update
  match oneof with
  | none => exact .inr ⟨.inl rfl, hskip h⟩
  | some .pong => exact .inr ⟨.inl rfl, hskip h⟩
  | some .other => exact .inr ⟨.inl rfl, hskip h⟩
  | some (.account none slot) => exact .inr ⟨.inl rfl, hskip h⟩
  | some (.account (some info) slot) =>
    simp only [handleUpdate] at h
    cases hdata : exactly sliceTotalLen info.data with
    | none =>
      have hlen : ¬info.data.length = sliceTotalLen := by
        rw [← exactly_isSome, hdata]
        exact Bool.false_ne_true
      rw [hdata] at h
      exact .inr ⟨.inl (if_neg fun hc => hlen hc.2), hskip h⟩
    | some data =>
      have hlen : info.data.length = sliceTotalLen := by
        rw [← exactly_isSome, hdata]
        rfl
      simp only [hdata] at h
      by_cases hcurve : filterCurve ∈ filters
      · have hsig : signal (.update ⟨filters, some (.account (some info) slot)⟩ blockhashes) =
            some slot := if_pos ⟨hcurve, hlen⟩
        rw [if_pos hcurve] at h
        rcases handleCurve_cases task s data slot blockhashes h with ho | ⟨hl, hs⟩
        · exact .inl ⟨slot, hsig, ho⟩
        · exact .inr ⟨.inr hl, hs⟩
      · have hsig : signal (.update ⟨filters, some (.account (some info) slot)⟩ blockhashes) =
            none := if_neg fun hc => hcurve hc.1
        rw [if_neg hcurve] at h
        split at h
        · obtain ⟨rfl, rfl⟩ := Prod.mk.inj h
          exact .inr ⟨.inl hsig, handleAta_silent task s prev info data⟩
        · exact .inr ⟨.inl hsig, hskip h⟩

theorem step_cases (h : step task s e = some (s', out)) :
    (∃ slot, signal e = some slot ∧ Opens task s s' slot out) ∨
      (signal e = none ∨ s.firstSignalFired = true) ∧ (Silent s s' out ∨ Continues s s' out) := by
  simp only [step] at h
  split at h
  · rename_i i blockhash
    obtain ⟨d, hd, h⟩ := Option.bind_eq_some_iff.1 h
    obtain ⟨⟨d', fired⟩, hn, h⟩ := Option.bind_eq_some_iff.1 h
    obtain ⟨rfl, rfl⟩ := Prod.mk.inj (Option.some.inj h)
    exact .inr ⟨.inl rfl, .inr ⟨rfl, i, d, d', blockhash, hd, hn, rfl⟩⟩
  · split at h
    case h_11 prev update blockhashes _ _ =>
      rcases handleUpdate_cases prev update blockhashes (Option.some.inj h) with ho | ⟨hl, hs⟩
      · exact .inl ho
      · exact .inr ⟨hl, .inl hs⟩
    all_goals first
      | exact .inr ⟨.inl rfl, .inl (silent_moveTo h)⟩
      | cases h

/-- What the batches have left to fire, on top of what an open latch allows. -/
def budget (f : Deadline → Nat) (s : State) : Nat :=
  (if s.firstSignalFired then 0 else 1) + (s.deadlines.map f).sum

/-- A kind of call is made at most once if the signal makes or promises at most one of it, and the
batch keeps at most what it has promised. -/
theorem countP_fired_le (p : Fired → Bool) (f : Deadline → Nat) (balances : List UInt64)
    (events : List Event)
    (hopen : ∀ slot fired, BuysOf (numbered task.buyCtxs) slot fired →
      (fired ++ [Fired.spawned slot]).countP p + f (batchAt task slot) ≤ 1)
    (hnext : ∀ {d balances blockhash d' out}, Deadline.next balances blockhash d = some (d', out) →
      out.countP p + f d' ≤ f d) :
    ((outputs (step task) (.init balances) events).flatten).countP p ≤ 1 := by
  refine countP_outputs_le p (budget f) ?_
  intro s e s' out h
  rcases step_cases h with ⟨slot, -, ho⟩ | ⟨-, hs | hc⟩
  · obtain ⟨fired, hall, rfl⟩ := ho.fires
    have hle := hopen slot fired hall
    simp only [budget, ho.unlatched, ho.latches, ho.spawns, List.map_append, List.map_cons,
      List.map_nil, List.sum_append, List.sum_singleton, ↓reduceIte, Bool.false_eq_true]
    omega
  · simp only [budget, hs.out, hs.latch, hs.deadlines, List.countP_nil, Nat.zero_add, Nat.le_refl]
  · obtain ⟨i, d, d', blockhash, hd, hn, hset⟩ := hc.next
    have hle := hnext hn
    have hsum := sum_map_set f hd d'
    simp only [budget, hc.latch, hset]
    omega

theorem next_cases {d d' : Deadline} (h : d.next balances blockhash = some (d', out)) :
    (∃ ctx, d.devSell = some ctx ∧ d'.devSell = none ∧ (d'.wallets = d.wallets ∨ d'.wallets = []) ∧
      (out = [] ∨ ∃ handed, out = [.devSell d.fireSlot handed])) ∨
    ∃ k ctx wallets, d.devSell = none ∧ d'.devSell = none ∧ d.wallets = (k, ctx) :: wallets ∧
      (d'.wallets = wallets ∨ d'.wallets = []) ∧
      (out = [] ∨ ∃ amount handed, out = [.walletSell k d.fireSlot amount handed]) := by
  obtain ⟨fireSlot, devSell, wallets, sellBuf⟩ := d
  cases devSell with
  | some ctx =>
    simp only [Deadline.next] at h
    split at h
    · obtain ⟨rfl, rfl⟩ := Prod.mk.inj (Option.some.inj h)
      exact .inl ⟨ctx, rfl, rfl, .inr rfl, .inl rfl⟩
    · obtain ⟨rfl, rfl⟩ := Prod.mk.inj (Option.some.inj h)
      exact .inl ⟨ctx, rfl, rfl, .inl rfl, .inr ⟨_, rfl⟩⟩
  | none =>
    cases wallets with
    | nil => cases h
    | cons w wallets =>
      obtain ⟨k, ctx⟩ := w
      refine .inr ⟨k, ctx, wallets, rfl, ?_⟩
      simp only [Deadline.next] at h
      split at h
      · obtain ⟨rfl, rfl⟩ := Prod.mk.inj (Option.some.inj h)
        exact ⟨rfl, rfl, .inr rfl, .inl rfl⟩
      · split at h
        · obtain ⟨rfl, rfl⟩ := Prod.mk.inj (Option.some.inj h)
          exact ⟨rfl, rfl, .inl rfl, .inl rfl⟩
        · split at h
          · obtain ⟨rfl, rfl⟩ := Prod.mk.inj (Option.some.inj h)
            exact ⟨rfl, rfl, .inr rfl, .inl rfl⟩
          · obtain ⟨rfl, rfl⟩ := Prod.mk.inj (Option.some.inj h)
            exact ⟨rfl, rfl, .inl rfl, .inr ⟨_, _, rfl⟩⟩

theorem next_countP_eq_zero {d d' : Deadline} {p : Fired → Bool}
    (h : d.next balances blockhash = some (d', out))
    (hdev : ∀ slot handed, p (.devSell slot handed) = false)
    (hwallet : ∀ k slot amount handed, p (.walletSell k slot amount handed) = false) :
    out.countP p = 0 := by
  rcases next_cases h with ⟨_, -, -, -, rfl | ⟨handed, rfl⟩⟩ |
    ⟨k, _, _, -, -, -, -, rfl | ⟨amount, handed, rfl⟩⟩
  · rfl
  · simp [hdev]
  · rfl
  · simp [hwallet]

def Latched (past : List Event) (s : State) : Prop :=
  s.firstSignalFired = past.any fun e => (signal e).isSome

theorem step_latched (hs : Latched past s) (h : step task s e = some (s', out)) :
    Latched (past ++ [e]) s' := by
  rw [Latched] at *
  rw [List.any_append, List.any_cons, List.any_nil, Bool.or_false, ← hs]
  rcases step_cases h with ⟨slot, hsig, ho⟩ | ⟨hor, hs' | hc⟩
  · rw [ho.latches, hsig, Option.isSome_some, Bool.or_true]
  · rw [hs'.latch]
    rcases hor with hnone | hl
    · rw [hnone, Option.isSome_none, Bool.or_false]
    · rw [hl, Bool.true_or]
  · rw [hc.latch]
    rcases hor with hnone | hl
    · rw [hnone, Option.isSome_none, Bool.or_false]
    · rw [hl, Bool.true_or]

theorem Continues.no_buys (h : Continues s s' out) : out.filterMap Fired.buyOf = [] := by
  obtain ⟨i, d, d', blockhash, -, hn, -⟩ := h.next
  rcases next_cases hn with ⟨_, -, -, -, rfl | ⟨handed, rfl⟩⟩ |
    ⟨k, _, _, -, -, -, -, rfl | ⟨amount, handed, rfl⟩⟩ <;> rfl

/-- What each event of a run from the start made the task call. -/
def calls (task : Task) (balances : List UInt64) (events : List Event) : List (List Fired) :=
  outputs (step task) (.init balances) events

theorem buys_once (task : Task) (balances : List UInt64) (events : List Event) (k : Nat) :
    (calls task balances events).flatten.countP (Fired.isBuy k) ≤ 1 := by
  refine countP_fired_le (Fired.isBuy k) (fun _ => 0) balances events ?_ ?_
  · intro slot fired hall
    have hle := hall.countP_isBuy k
    simpa [Fired.isBuy] using hle
  · intro d balances blockhash d' out hn
    exact Nat.le_of_eq (next_countP_eq_zero hn (fun _ _ => rfl) fun _ _ _ _ => rfl)

theorem spawned_once (task : Task) (balances : List UInt64) (events : List Event) :
    (calls task balances events).flatten.countP Fired.isSpawned ≤ 1 := by
  refine countP_fired_le Fired.isSpawned (fun _ => 0) balances events ?_ ?_
  · intro slot fired hall
    have hz : fired.countP Fired.isSpawned = 0 := hall.countP_eq_zero <| by
      intro f hf
      cases f with
      | buy wallet slot handed => rfl
      | _ => exact absurd rfl hf
    simp [Fired.isSpawned, hz]
  · intro d balances blockhash d' out hn
    exact Nat.le_of_eq (next_countP_eq_zero hn (fun _ _ => rfl) fun _ _ _ _ => rfl)

theorem devSell_once (task : Task) (balances : List UInt64) (events : List Event) :
    (calls task balances events).flatten.countP Fired.isDevSell ≤ 1 := by
  refine countP_fired_le Fired.isDevSell (fun d => d.devSell.toList.length) balances events ?_ ?_
  · intro slot fired hall
    have hz : fired.countP Fired.isDevSell = 0 := hall.countP_eq_zero <| by
      intro f hf
      cases f with
      | buy wallet slot handed => rfl
      | _ => exact absurd rfl hf
    have hd : (batchAt task slot).devSell.toList.length ≤ 1 := Option.length_toList_le
    rw [List.countP_append, hz]
    simp [Fired.isDevSell, hd]
  · intro d balances blockhash d' out hn
    rcases next_cases hn with ⟨ctx, hd, hd', -, rfl | ⟨handed, rfl⟩⟩ |
      ⟨k, ctx, wallets, hd, hd', -, -, rfl | ⟨amount, handed, rfl⟩⟩ <;>
      simp [hd, hd', Fired.isDevSell]

theorem walletSells_once (task : Task) (balances : List UInt64) (events : List Event) (k : Nat) :
    (calls task balances events).flatten.countP (Fired.isWalletSell k) ≤ 1 := by
  refine countP_fired_le (Fired.isWalletSell k) (fun d => (d.wallets.map Prod.fst).count k)
    balances events ?_ ?_
  · intro slot fired hall
    have hz : fired.countP (Fired.isWalletSell k) = 0 := hall.countP_eq_zero <| by
      intro f hf
      cases f with
      | buy wallet slot handed => rfl
      | _ => exact absurd rfl hf
    have hw : ((batchAt task slot).wallets.map Prod.fst).count k ≤ 1 := by
      rw [batchAt, numbered_fst]
      exact List.nodup_iff_count_le_one.1 List.nodup_range k
    simpa [Fired.isWalletSell, hz] using hw
  · intro d balances blockhash d' out hn
    rcases next_cases hn with ⟨ctx, -, -, hw | hw, rfl | ⟨handed, rfl⟩⟩ |
      ⟨j, ctx, wallets, -, -, hd, hw | hw, rfl | ⟨amount, handed, rfl⟩⟩
    all_goals
      simp [*, Fired.isWalletSell, List.countP_cons, List.count_cons]
    all_goals omega

theorem buys_at_firstSignal (task : Task) (balances : List UInt64) (events : List Event)
    (i : Fin (calls task balances events).length) :
    (calls task balances events)[i].filterMap Fired.buyOf =
      match firstSignal events i with
      | some slot => (List.range task.buyCtxs.length).map fun k => (k, slot)
      | none => [] := by
  have hi : (calls task balances events)[i.val]? = some (calls task balances events)[i] :=
    List.getElem?_eq_getElem i.isLt
  have hinit : Latched [] (.init balances) := rfl
  obtain ⟨s, e, s', hl, he, hstep⟩ := outputs_getElem? Latched [] step_latched hinit hi
  have hl' : s.firstSignalFired = (events.take i).any fun e => (signal e).isSome := hl
  rcases step_cases hstep with ⟨slot, hsig, ho⟩ | ⟨hor, hquiet⟩
  · obtain ⟨fired, hall, hout⟩ := ho.fires
    have hfirst : firstSignal events i = some slot := by
      rw [firstSignal, ← hl', ho.unlatched, if_neg Bool.false_ne_true, he, Option.bind_some, hsig]
    rw [hfirst, hout, List.filterMap_append, hall.all]
    exact List.append_nil _
  · have hnone : firstSignal events i = none := by
      rw [firstSignal, ← hl']
      rcases hor with hsig | hlatched
      · rw [he, Option.bind_some, hsig, ite_self]
      · rw [if_pos hlatched]
    rw [hnone]
    rcases hquiet with hs | hc
    · rw [hs.out, List.filterMap_nil]
    · exact hc.no_buys

/-- Over any run, across reconnects: each buy, the batch of sells, the dev sell and each wallet
sell happen at most once, and all buys at the first signal and nowhere else. -/
theorem fires_once (task : Task) (balances : List UInt64) (events : List Event) :
    (∀ k, (calls task balances events).flatten.countP (Fired.isBuy k) ≤ 1) ∧
    (calls task balances events).flatten.countP Fired.isSpawned ≤ 1 ∧
    (calls task balances events).flatten.countP Fired.isDevSell ≤ 1 ∧
    (∀ k, (calls task balances events).flatten.countP (Fired.isWalletSell k) ≤ 1) ∧
    ∀ i : Fin (calls task balances events).length,
      (calls task balances events)[i].filterMap Fired.buyOf =
        match firstSignal events i with
        | some slot => (List.range task.buyCtxs.length).map fun k => (k, slot)
        | none => [] :=
  ⟨buys_once task balances events, spawned_once task balances events,
    devSell_once task balances events, walletSells_once task balances events,
    buys_at_firstSignal task balances events⟩

/-- A signal after a broken connection spawns the batch, the same update again does not. -/
example :
    let tagged : SubscribeUpdate :=
      ⟨[filterCurve], some (.account (some ⟨[], List.replicate 40 1⟩) 7)⟩
    letI := Ed25519.ofVectors [] []
    calls ⟨⟨Vector.replicate 32 0, []⟩, [], [], none⟩ [] [.validated true true, .loadExit false,
      .connectFailed, .slept, .loadExit false, .connected, .subscribed, .filterSent,
      .loadExit false, .update tagged fun _ => systemProgramId, .loadExit false,
      .update tagged fun _ => systemProgramId] =
        [[], [], [], [], [], [], [], [], [], [.spawned 7], [], []] := by
  decide +kernel

end TokenPumper.CurveSub
