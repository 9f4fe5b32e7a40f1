import TokenPumper.CurveSub.Once

namespace TokenPumper.CurveSub
open LittleEndian ByteCursor Machine
set_option autoImplicit true

/-- The ranges of an account's data that are asked for, each an offset and a length. -/
def slices : List (Nat × Nat) := [(8, 32), (64, 8)]

def sliced (account : List UInt8) : List UInt8 :=
  slices.flatMap fun (offset, length) => (account.drop offset).take length

/-- An event, with the data of the account that it is about if it is an update of one. -/
structure Observed where
  event : Event
  account : List UInt8

def Observed.Provided (o : Observed) : Prop :=
  ∀ filters info slot blockhashes,
    o.event = .update ⟨filters, some (.account (some info) slot)⟩ blockhashes →
      info.data = sliced o.account

/-- The `amount` of a token account. -/
def Observed.amount (o : Observed) : UInt64 := toU64 (slice o.account 64 72)

/-- The token account that an update is taken to be of, with the data it comes with. -/
def stored : Event → Option (Pubkey × Bytes sliceTotalLen)
  | .update ⟨filters, some (.account (some info) _)⟩ _ =>
    if filterCurve ∉ filters ∧ filterAtas ∈ filters then do
      let data ← exactly sliceTotalLen info.data
      let pubkey ← exactly 32 info.pubkey
      pure (pubkey, data)
    else none
  | _ => none

def lastStored (concerns : Pubkey → Bool) (past : List Observed) : Option UInt64 :=
  past.reverse.findSome? fun o =>
    match stored o.event with
    | some (pubkey, _) => if concerns pubkey then some o.amount else none
    | none => none

theorem lastStored_concat_none (past : List Observed) (h : stored o.event = none) :
    lastStored concerns (past ++ [o]) = lastStored concerns past := by
  rw [lastStored, List.reverse_append, List.reverse_singleton, List.singleton_append,
    List.findSome?_cons, h]
  rfl

theorem lastStored_concat_some (past : List Observed) (h : stored o.event = some (pubkey, data)) :
    lastStored concerns (past ++ [o]) =
      if concerns pubkey then some o.amount else lastStored concerns past := by
  rw [lastStored, List.reverse_append, List.reverse_singleton, List.singleton_append,
    List.findSome?_cons, h]
  by_cases hc : concerns pubkey = true
  · simp only [hc, ↓reduceIte]
  · simp only [hc, Bool.false_eq_true, ↓reduceIte]
    rfl

theorem lastStored_congr {concerns concerns' : Pubkey → Bool} (h : ∀ p, concerns p = concerns' p)
    (past : List Observed) : lastStored concerns past = lastStored concerns' past :=
  congrArg (fun c => lastStored c past) (funext h)

theorem tokenAmount_sliced {data : Bytes sliceTotalLen} (h : data.toList = sliced account) :
    tokenAmount data = toU64 (slice account 64 72) := by
  have hparts : sliced account = (account.drop 8).take 32 ++ (account.drop 64).take 8 := by
    rw [sliced, slices, List.flatMap_cons, List.flatMap_cons, List.flatMap_nil, List.append_nil]
  have hlen := congrArg List.length h
  rw [Vector.length_toList, hparts, List.length_append, List.length_take, List.length_take,
    List.length_drop, List.length_drop, sliceTotalLen] at hlen
  have hfront : ((account.drop 8).take 32).length = 32 := by
    rw [List.length_take, List.length_drop]
    omega
  have hback : slice data.toList 32 40 = (account.drop 64).take 8 := by
    rw [slice, List.take_of_length_le (by rw [Vector.length_toList, sliceTotalLen]), h, hparts,
      List.drop_left' hfront]
  rw [tokenAmount, hback, slice, List.drop_take]

theorem tokenAmount_of_stored {o : Observed} (hp : o.Provided)
    (h : stored o.event = some (pubkey, data)) :
    tokenAmount data = o.amount := by
  obtain ⟨event, account⟩ := o
  rw [Observed.amount]
  apply tokenAmount_sliced
  unfold stored at h
  split at h
  · rename_i filters info slot blockhashes hevent
    split at h
    · obtain ⟨data', hdata, h⟩ := Option.bind_eq_some_iff.1 h
      obtain ⟨pubkey', -, h⟩ := Option.bind_eq_some_iff.1 h
      obtain ⟨rfl, rfl⟩ := Prod.mk.inj (Option.some.inj h)
      rw [← hp filters info slot blockhashes hevent]
      exact toList_of_exactly hdata
    · cases h
  · cases h

theorem eq_of_stored {info : AccountInfo}
    (h : stored (.update ⟨filters, some (.account (some info) slot)⟩ blockhashes) =
      some (pubkey, data)) :
    info.data.length = sliceTotalLen ∧ info.pubkey = pubkey.toList := by
  simp only [stored] at h
  split at h
  · obtain ⟨data', hdata, h⟩ := Option.bind_eq_some_iff.1 h
    obtain ⟨pubkey', hpubkey, h⟩ := Option.bind_eq_some_iff.1 h
    obtain ⟨rfl, rfl⟩ := Prod.mk.inj (Option.some.inj h)
    constructor
    · rw [← exactly_isSome, hdata, Option.isSome_some]
    · exact (toList_of_exactly hpubkey).symm
  · cases h

section Routing
variable {task : Task}

theorem exists_of_ataToWalletIdx (h : task.ataToWalletIdx pubkey = some idx) :
    ∃ a ∈ task.inputs.atas, a.ata = pubkey ∧ a.walletIndex = some idx := by
  obtain ⟨before, after, hroutes, -⟩ := List.lookup_eq_some_iff.1 h
  have hmem : (pubkey, idx) ∈ before ++ (pubkey, idx) :: after := by simp
  rw [← hroutes] at hmem
  obtain ⟨a, ha, hroute⟩ := List.mem_filterMap.1 hmem
  obtain ⟨i, hi, hpair⟩ := Option.map_eq_some_iff.1 hroute
  obtain ⟨rfl, rfl⟩ := Prod.mk.inj hpair
  exact ⟨a, List.mem_reverse.1 ha, rfl, hi⟩

theorem ataToWalletIdx_isSome (ha : a ∈ task.inputs.atas) (hidx : a.walletIndex = some idx) :
    ∃ idx', task.ataToWalletIdx a.ata = some idx' := by
  apply Option.isSome_iff_exists.1
  apply List.lookup_isSome_iff.2
  have hroute : a.walletIndex.map (fun i => (a.ata, i)) = some (a.ata, idx) := by
    rw [hidx, Option.map_some]
  exact ⟨(a.ata, idx), List.mem_filterMap.2 ⟨a, List.mem_reverse.2 ha, hroute⟩, beq_self_eq_true _⟩

/-- What an event makes of the balances: the amount of an account goes to the slot of its wallet. -/
def Task.balancesAfter (task : Task) (balances : List UInt64) (e : Event) : List UInt64 :=
  match stored e with
  | some (pubkey, data) =>
    match task.ataToWalletIdx pubkey with
    | some idx => balances.set idx (tokenAmount data)
    | none => balances
  | none => balances

theorem balancesAfter_of_none (h : stored e = none) :
    task.balancesAfter balances e = balances := by
  rw [Task.balancesAfter, h]

theorem balancesAfter_of_unrouted
    (h : ∀ pubkey data, stored e = some (pubkey, data) → task.ataToWalletIdx pubkey = none) :
    task.balancesAfter balances e = balances := by
  rw [Task.balancesAfter]
  split
  · rename_i pubkey data hstored
    rw [h pubkey data hstored]
  · rfl

theorem length_balancesAfter (balances : List UInt64) (e : Event) :
    (task.balancesAfter balances e).length = balances.length := by
  rw [Task.balancesAfter]
  split
  · split
    · exact List.length_set
    · rfl
  · rfl

theorem balances_of_moveTo (h : moveTo s phase = some (s', out)) :
    s'.walletBalances = s.walletBalances := by
  obtain ⟨rfl, -⟩ := Prod.mk.inj (Option.some.inj h)
  rfl

theorem balances_of_handleAta (task : Task) (s : State) (prev : Reserves) (info : AccountInfo)
    (data : Bytes sliceTotalLen) (slot : UInt64) (blockhashes : Nat → Bytes 32)
    (hdata : exactly sliceTotalLen info.data = some data) (hcurve : filterCurve ∉ filters)
    (hatas : filterAtas ∈ filters) :
    (handleAta task s prev info data).walletBalances = task.balancesAfter s.walletBalances
      (.update ⟨filters, some (.account (some info) slot)⟩ blockhashes) := by
  simp only [handleAta, Task.balancesAfter, stored, hcurve, hatas, not_false_eq_true, and_self,
    ↓reduceIte, hdata, Option.bind_eq_bind, Option.bind_some]
  cases exactly 32 info.pubkey with
  | none => rfl
  | some pubkey =>
    simp only [Option.bind_some, Option.pure_def]
    cases task.ataToWalletIdx pubkey with
    | none => rfl
    | some idx =>
      simp only
      split
      · rfl
      · rename_i hidx
        exact (List.set_eq_of_length_le (Nat.le_of_not_lt hidx)).symm

/-- A slot after an event holds what was last seen of its accounts, this event included. -/
theorem balancesAfter_getElem? (hp : o.Provided) (hk : k < balances.length)
    (h : balances[k]? =
      some ((lastStored (fun p => task.ataToWalletIdx p == some k) past).getD 0)) :
    (task.balancesAfter balances o.event)[k]? =
      some ((lastStored (fun p => task.ataToWalletIdx p == some k) (past ++ [o])).getD 0) := by
  cases hstored : stored o.event with
  | none => rw [balancesAfter_of_none hstored, lastStored_concat_none past hstored, h]
  | some entry =>
    obtain ⟨pubkey, data⟩ := entry
    have hamount := tokenAmount_of_stored hp hstored
    rw [lastStored_concat_some past hstored]
    simp only [Task.balancesAfter, hstored]
    cases hidx : task.ataToWalletIdx pubkey with
    | none => exact h
    | some idx =>
      simp only
      by_cases hik : idx = k
      · subst hik
        rw [List.getElem?_set_self hk, if_pos (beq_self_eq_true _), Option.getD_some, hamount]
      · have hne : ¬(some idx == some k) = true := by simpa using hik
        rw [List.getElem?_set_ne hik, if_neg hne, h]

/-- Every slot holds what was last seen of the accounts that are routed to it, and what the batches
have still to sell are the slots with their own contexts. -/
structure Tracks (task : Task) (past : List Observed) (s : State) : Prop where
  length : s.walletBalances.length = task.walletSellCtxs.length
  balances : ∀ k < task.walletSellCtxs.length, s.walletBalances[k]? =
    some ((lastStored (fun p => task.ataToWalletIdx p == some k) past).getD 0)
  batches : ∀ d ∈ s.deadlines, ∀ p ∈ d.wallets, task.walletSellCtxs[p.1]? = some p.2

theorem tracks_init (task : Task) :
    Tracks task [] (.init (List.replicate task.walletSellCtxs.length 0)) := by
  constructor
  case length => exact List.length_replicate
  case balances =>
    intro k hk
    exact List.getElem?_replicate_of_lt hk
  case batches =>
    intro d hd
    exact absurd hd List.not_mem_nil

theorem mem_numbered (h : p ∈ numbered xs) : xs[p.1]? = some p.2 := by
  obtain ⟨⟨a, i⟩, hmem, rfl⟩ := List.mem_map.1 h
  exact List.mem_zipIdx_iff_getElem?.1 hmem

/-- A batch is about to read a slot: its dev sell is behind it, and the slot is its next. -/
structure Reads (s : State) (i : Nat) (d : Deadline) (k : Nat) (ctx : WalletSellContext) :
    Prop where
  batch : s.deadlines[i]? = some d
  devSold : d.devSell = none
  next : d.wallets.head? = some (k, ctx)

theorem Reads.ctx_eq (h : Reads s i d k ctx) (ht : Tracks task past s) :
    task.walletSellCtxs[k]? = some ctx :=
  ht.batches d (List.mem_of_getElem? h.batch) (k, ctx) (List.mem_of_head? h.next)

section Run
variable [Ed25519]

theorem balances_of_handleCurve (task : Task) (s : State) (data : Bytes sliceTotalLen)
    (slot : UInt64) (blockhashes : Nat → Bytes 32) :
    (handleCurve task s data slot blockhashes).1.walletBalances = s.walletBalances := by
  simp only [handleCurve]
  split
  · rfl
  · split <;> rfl

theorem balances_of_handleUpdate (prev : Reserves) (update : SubscribeUpdate)
    (blockhashes : Nat → Bytes 32) (h : handleUpdate task s prev update blockhashes = (s', out)) :
    s'.walletBalances = task.balancesAfter s.walletBalances (.update update blockhashes) := by
  have hskip (hs : ({ s with phase := .streamHead prev }, []) = (s', out))
      (hnone : stored (.update update blockhashes) = none) :
      s'.walletBalances = task.balancesAfter s.walletBalances (.update update blockhashes) := by
    obtain ⟨rfl, -⟩ := Prod.mk.inj hs
    rw [balancesAfter_of_none hnone]
  obtain ⟨filters, oneof⟩ := update
  match oneof with
  | none => exact hskip h rfl
  | some .pong => exact hskip h rfl
  | some .other => exact hskip h rfl
  | some (.account none slot) => exact hskip h rfl
  | some (.account (some info) slot) =>
    simp only [handleUpdate] at h
    cases hdata : exactly sliceTotalLen info.data with
    | none =>
      rw [hdata] at h
      apply hskip h
      simp only [stored, hdata, Option.bind_eq_bind, Option.bind_none, ite_self]
    | some data =>
      simp only [hdata] at h
      by_cases hcurve : filterCurve ∈ filters
      · rw [if_pos hcurve] at h
        have hb := balances_of_handleCurve task s data slot blockhashes
        rw [h] at hb
        rw [hb, balancesAfter_of_none]
        exact if_neg fun hc => hc.1 hcurve
      · rw [if_neg hcurve] at h
        by_cases hatas : filterAtas ∈ filters
        · rw [if_pos hatas] at h
          obtain ⟨rfl, -⟩ := Prod.mk.inj h
          exact balances_of_handleAta task s prev info data slot blockhashes hdata hcurve hatas
        · rw [if_neg hatas] at h
          exact hskip h (if_neg fun hc => hatas hc.2)

theorem balances_of_step (h : step task s e = some (s', out)) :
    s'.walletBalances = task.balancesAfter s.walletBalances e := by
  simp only [step] at h
  split at h
  · obtain ⟨d, -, h⟩ := Option.bind_eq_some_iff.1 h
    obtain ⟨⟨d', fired⟩, -, h⟩ := Option.bind_eq_some_iff.1 h
    obtain ⟨rfl, -⟩ := Prod.mk.inj (Option.some.inj h)
    rfl
  · split at h
    case h_11 prev update blockhashes _ _ =>
      exact balances_of_handleUpdate prev update blockhashes (Option.some.inj h)
    all_goals first
      | exact balances_of_moveTo h
      | cases h

def observe (task : Task) (s : State) (o : Observed) : Option State :=
  (step task s o.event).map Prod.fst

theorem next_wallets {d d' : Deadline} (h : d.next balances blockhash = some (d', out)) :
    ∀ p ∈ d'.wallets, p ∈ d.wallets := by
  intro p hp
  rcases next_cases h with ⟨_, -, -, hw | hw, -⟩ | ⟨k, ctx, wallets, -, -, hd, hw | hw, -⟩
  · rwa [hw] at hp
  · rw [hw] at hp
    exact absurd hp List.not_mem_nil
  · rw [hw] at hp
    rw [hd]
    exact List.mem_cons_of_mem _ hp
  · rw [hw] at hp
    exact absurd hp List.not_mem_nil

theorem batches_of_step
    (hs : ∀ d ∈ s.deadlines, ∀ p ∈ d.wallets, task.walletSellCtxs[p.1]? = some p.2)
    (h : step task s e = some (s', out)) :
    ∀ d ∈ s'.deadlines, ∀ p ∈ d.wallets, task.walletSellCtxs[p.1]? = some p.2 := by
  rcases step_cases h with ⟨slot, -, ho⟩ | ⟨-, hsilent | hc⟩
  · rw [ho.spawns]
    rw [List.forall_mem_append]
    constructor
    · exact hs
    · rw [List.forall_mem_singleton]
      intro p hp
      exact mem_numbered hp
  · rwa [hsilent.deadlines]
  · obtain ⟨i, d, d', blockhash, hd, hn, hset⟩ := hc.next
    rw [hset]
    intro x hx p hp
    rcases List.mem_or_eq_of_mem_set hx with hx | rfl
    · exact hs x hx p hp
    · exact hs d (List.mem_of_getElem? hd) p (next_wallets hn p hp)

theorem tracks_step (hs : Tracks task past s) (hp : o.Provided)
    (h : observe task s o = some s') : Tracks task (past ++ [o]) s' := by
  obtain ⟨⟨s₁, out⟩, hstep, rfl⟩ := Option.map_eq_some_iff.1 h
  have hb := balances_of_step hstep
  constructor
  case length => rw [hb, length_balancesAfter, hs.length]
  case balances =>
    intro k hk
    rw [hb]
    apply balancesAfter_getElem? hp
    · rwa [hs.length]
    · exact hs.balances k hk
  case batches => exact batches_of_step hs.batches hstep

theorem tracks_of_run (hp : ∀ o ∈ past, o.Provided)
    (h : run (observe task) (.init (List.replicate task.walletSellCtxs.length 0)) past = some s) :
    Tracks task past s := by
  let holds (past : List Observed) (s : State) : Prop :=
    (∀ o ∈ past, o.Provided) → Tracks task past s
  have hinit : holds [] (.init (List.replicate task.walletSellCtxs.length 0)) :=
    fun _ => tracks_init task
  have hstep {past : List Observed} {s : State} {o : Observed} {s' : State} (hs : holds past s)
      (h : observe task s o = some s') : holds (past ++ [o]) s' := by
    intro hall
    obtain ⟨hpast, ho⟩ := List.forall_mem_append.1 hall
    exact tracks_step (hs hpast) (ho o (List.mem_singleton_self o)) h
  exact run_induction holds [] hstep hinit h hp

theorem step_of_reads (h : Reads s i d k ctx) (hb : s.walletBalances[k]? = some amount)
    (blockhash : Bytes 32) : ∃ bs tx,
      OneSignerTx ctx.wallet ctx.userPubkey blockhash
        (ctx.inputs d.fireSlot amount blockhash).meanings bs tx ∧
      ∃ s', step task s (.deadlineStep i blockhash) = some (s', if amount = 0 then [] else
        [.walletSell k d.fireSlot amount (ctx.submitter.map fun _ => bs)]) := by
  obtain ⟨bs, tx, hmeans, hfire⟩ := fireWalletSell_means ctx d.fireSlot amount blockhash
  obtain ⟨built, hbuilt⟩ := hfire d.sellBuf
  refine ⟨bs, tx, hmeans, ?_⟩
  obtain ⟨rest, hwallets⟩ := List.head?_eq_some_iff.1 h.next
  have hnext : ∃ d', d.next s.walletBalances blockhash = some (d', if amount = 0 then [] else
      [.walletSell k d.fireSlot amount (ctx.submitter.map fun _ => bs)]) := by
    simp only [Deadline.next, h.devSold, hwallets, hb, hbuilt]
    split
    · exact ⟨_, rfl⟩
    · exact ⟨_, rfl⟩
  obtain ⟨d', hd'⟩ := hnext
  apply Exists.intro { s with deadlines := s.deadlines.set i d' }
  simp only [step, h.batch, hd', Option.bind_eq_bind, Option.bind_some, Option.pure_def]

theorem reads_of_walletSell (h : step task s e = some (s', out))
    (hf : .walletSell k slot amount handed ∈ out) :
    ∃ i d ctx blockhash, e = .deadlineStep i blockhash ∧ Reads s i d k ctx := by
  have hquiet {s₁ : State} (hs : Silent s s₁ out) : False := by
    rw [hs.out] at hf
    exact List.not_mem_nil hf
  simp only [step] at h
  split at h
  · rename_i i blockhash
    obtain ⟨d, hd, h⟩ := Option.bind_eq_some_iff.1 h
    obtain ⟨⟨d', fired⟩, hn, h⟩ := Option.bind_eq_some_iff.1 h
    obtain ⟨-, rfl⟩ := Prod.mk.inj (Option.some.inj h)
    rcases next_cases hn with ⟨_, -, -, -, rfl | ⟨_, rfl⟩⟩ |
      ⟨k', ctx, wallets, hdev, -, hw, -, rfl | ⟨_, _, rfl⟩⟩
    · exact absurd hf List.not_mem_nil
    · cases List.mem_singleton.1 hf
    · exact absurd hf List.not_mem_nil
    · cases List.mem_singleton.1 hf
      have hhead : d.wallets.head? = some (k, ctx) := by rw [hw, List.head?_cons]
      exact ⟨i, d, ctx, blockhash, rfl, hd, hdev, hhead⟩
  · exfalso
    split at h
    case h_11 prev update blockhashes _ _ =>
      rcases handleUpdate_cases prev update blockhashes (Option.some.inj h) with
        ⟨slot, -, ho⟩ | ⟨-, hs⟩
      · obtain ⟨fired, hall, rfl⟩ := ho.fires
        rcases List.mem_append.1 hf with hbuy | hspawned
        · exact hall.only _ hbuy rfl
        · cases List.mem_singleton.1 hspawned
      · exact hquiet hs
    all_goals first
      | exact hquiet (silent_moveTo h)
      | cases h

end Run

end Routing

end TokenPumper.CurveSub
