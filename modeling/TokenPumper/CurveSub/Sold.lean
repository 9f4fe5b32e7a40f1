import TokenPumper.CurveSub.Balances
import TokenPumper.Debug
import TokenPumper.Keys.Assigned

namespace TokenPumper
open LittleEndian Effect SolanaWire SellIx
set_option autoImplicit true

theorem Placed.eq_of_index {assigner : Assigner} {j k : Nat} {a b : WalletAssignment}
    (h : Placed assigner.slots) (hj : assigner.iter[j]? = some a)
    (hk : assigner.iter[k]? = some b) (hi : a.index = b.index) : j = k := by
  have hlt {j k : Nat} {a b : WalletAssignment} (hj : assigner.iter[j]? = some a)
      (hk : assigner.iter[k]? = some b) (hjk : j < k) : a.index < b.index := by
    obtain ⟨hj', rfl⟩ := List.getElem?_eq_some_iff.1 hj
    obtain ⟨hk', rfl⟩ := List.getElem?_eq_some_iff.1 hk
    exact List.pairwise_iff_getElem.1 h.pairwise j k hj' hk' hjk
  rcases Nat.lt_trichotomy j k with hjk | hjk | hjk
  · have := hlt hj hk hjk
    omega
  · exact hjk
  · have := hlt hk hj hjk
    omega

theorem eq_ok_of_join {x : Except ε (Option α)} (h : x.toOption.join = some a) :
    x = .ok (some a) := by
  cases x with
  | error e => cases h
  | ok b => exact congrArg Except.ok h

theorem orPanic_eq_ok (h : orPanic o env w = (.ok a, w')) : o = some a := by
  cases o with
  | none => cases (Prod.mk.inj h).1
  | some b => exact congrArg some (Except.ok.inj (Prod.mk.inj h).1)

section Wiring
variable [Ed25519] [AddressHash]

def Staged.ataOf (s : Staged) (wallet : SigningKey) : Option Pubkey :=
  associatedTokenAddress (Ed25519.verifyingKey wallet) s.mintPubkey token2022ProgramId

def Staged.WalletAt (s : Staged) (k : Nat) (wallet : SigningKey) (ata : Pubkey) : Prop :=
  ∃ assignment, s.prepared.assigner.iter[k]? = some assignment ∧
    s.prepared.children[assignment.index]? = some wallet ∧ s.ataOf wallet = some ata

/-- The children and the dev, each a wallet, have accounts of their own. -/
structure Staged.DistinctAtas (s : Staged) : Prop where
  children : ∀ (i j : Nat) wallet wallet' ata, s.prepared.children[i]? = some wallet →
    s.prepared.children[j]? = some wallet' → s.ataOf wallet = some ata →
    s.ataOf wallet' = some ata → i = j
  dev : ∀ (i : Nat) wallet, s.prepared.children[i]? = some wallet →
    s.ataOf wallet ≠ some s.pdas.associatedUser

theorem Staged.WalletAt.ata_eq {s : Staged} (h : s.WalletAt k wallet ata)
    (h' : s.WalletAt k wallet' ata') : ata = ata' := by
  obtain ⟨a, ha, hwallet, hata⟩ := h
  obtain ⟨a', ha', hwallet', hata'⟩ := h'
  obtain rfl := Option.some.inj (ha.symm.trans ha')
  obtain rfl := Option.some.inj (hwallet.symm.trans hwallet')
  exact Option.some.inj (hata.symm.trans hata')

theorem Staged.DistinctAtas.slot_eq {s : Staged} (hd : s.DistinctAtas)
    (hplaced : Placed s.prepared.assigner.slots) (h : s.WalletAt j wallet ata)
    (h' : s.WalletAt k wallet' ata) : j = k := by
  obtain ⟨a, ha, hwallet, hata⟩ := h
  obtain ⟨a', ha', hwallet', hata'⟩ := h'
  exact hplaced.eq_of_index ha ha' (hd.children _ _ _ _ _ hwallet hwallet' hata hata')

/-- A sell context of a wallet with its account. -/
structure WalletSellContext.Of (s : Staged) (submitter : Option Node1Submitter)
    (wallet : SigningKey) (ata : Pubkey) (ctx : WalletSellContext) : Prop where
  signer : ctx.wallet = wallet
  user : ctx.userPubkey = Ed25519.verifyingKey wallet
  mint : ctx.mintPubkey = s.mintPubkey
  account : ctx.associatedUser = ata
  submitter : ctx.submitter = submitter

/-- Slots, sell contexts and subscriptions belong together by position. -/
structure Staged.Joins (s : Staged) (submitter : Option Node1Submitter) (task : CurveSub.Task) :
    Prop where
  sells : ∀ (k : Nat) ctx, task.walletSellCtxs[k]? = some ctx →
    ∃ wallet ata, s.WalletAt k wallet ata ∧ ctx.Of s submitter wallet ata
  subscriptions : ∀ a ∈ task.inputs.atas, ∀ k, a.walletIndex = some k →
    k < task.walletSellCtxs.length ∧ ∃ wallet, s.WalletAt k wallet a.ata
  subscribed : ∀ k wallet ata, s.WalletAt k wallet ata →
    ∃ a ∈ task.inputs.atas, a.ata = ata ∧ a.walletIndex = some k

theorem walletContexts_spec (h : walletContexts cfg s submitter k assignment = some c) :
    ∃ wallet ata, s.prepared.children[assignment.index]? = some wallet ∧
      s.ataOf wallet = some ata ∧ c.ata.ata = ata ∧ c.ata.walletIndex = some k ∧
      c.sell.Of s submitter wallet ata := by
  obtain ⟨wallet, hwallet, h⟩ := Option.bind_eq_some_iff.1 h
  obtain ⟨ata, hata, h⟩ := Option.bind_eq_some_iff.1 h
  obtain ⟨⟨uva, _⟩, -, h⟩ := Option.bind_eq_some_iff.1 h
  obtain rfl := Option.some.inj h
  exact ⟨wallet, ata, hwallet, hata, rfl, rfl, rfl, rfl, rfl, rfl, rfl⟩

theorem joins_of_curveSubTask {s : Staged}
    (h : curveSubTask cfg s submitter env w = (.ok (some task), w')) : s.Joins submitter task := by
  rw [curveSubTask] at h
  split at h
  · obtain ⟨wallets, w₁, hwallets, h⟩ := bind_run_eq_ok h
    obtain rfl := Option.some.inj (Except.ok.inj (Prod.mk.inj h).1)
    have hplace := Fallible.getElem?_of_mapM (orPanic_eq_ok hwallets)
    have hslot (k : Nat) (c : WalletContexts) (hc : wallets[k]? = some c) :
        ∃ wallet, s.WalletAt k wallet c.ata.ata ∧ c.ata.walletIndex = some k ∧
          c.sell.Of s submitter wallet c.ata.ata := by
      rw [hplace, List.getElem?_zipIdx, Option.bind_map] at hc
      obtain ⟨assignment, hassignment, hctx⟩ := Option.bind_eq_some_iff.1 hc
      obtain ⟨wallet, ata, hwallet, hata, rfl, hidx, hsell⟩ := walletContexts_spec hctx
      rw [Nat.zero_add] at hidx
      exact ⟨wallet, ⟨assignment, hassignment, hwallet, hata⟩, hidx, hsell⟩
    constructor
    case sells =>
      intro k ctx hctx
      obtain ⟨c, hc, rfl⟩ := Option.map_eq_some_iff.1 (List.getElem?_map.symm.trans hctx)
      obtain ⟨wallet, hat, -, hsell⟩ := hslot k c hc
      exact ⟨wallet, c.ata.ata, hat, hsell⟩
    case subscriptions =>
      intro a ha k hk
      rcases List.mem_cons.1 ha with rfl | ha
      · cases hk
      · obtain ⟨c, hc, rfl⟩ := List.mem_map.1 ha
        obtain ⟨j, hj⟩ := List.mem_iff_getElem?.1 hc
        obtain ⟨wallet, hat, hidx, -⟩ := hslot j c hj
        obtain rfl := Option.some.inj (hidx.symm.trans hk)
        have hlt := (List.getElem?_eq_some_iff.1 hj).1
        exact ⟨by rwa [List.length_map], wallet, hat⟩
    case subscribed =>
      intro k wallet ata hat
      obtain ⟨assignment, hassignment, hwallet, hata⟩ := hat
      have hmem : (assignment, k) ∈ s.prepared.assigner.iter.zipIdx :=
        List.mem_zipIdx_iff_getElem?.2 hassignment
      obtain ⟨c, hc⟩ := Fallible.isSome_of_mapM (orPanic_eq_ok hwallets) hmem
      obtain ⟨wallet', ata', hwallet', hata', rfl, hidx, -⟩ := walletContexts_spec hc
      obtain rfl := Option.some.inj (hwallet.symm.trans hwallet')
      obtain rfl := Option.some.inj (hata.symm.trans hata')
      have hk : wallets[k]? = some c := by
        rw [hplace, List.getElem?_zipIdx, hassignment, Option.map_some, Option.bind_some,
          Nat.zero_add]
        exact hc
      have hin := List.mem_map_of_mem (f := WalletContexts.ata) (List.mem_of_getElem? hk)
      exact ⟨c.ata, List.mem_cons_of_mem _ hin, rfl, hidx⟩
  · cases (Prod.mk.inj h).1

/-- The bytes are a sell of an amount from the account of a wallet, and the wallet signs it. -/
def Staged.SellsOwn (s : Staged) (wallet : SigningKey) (ata : Pubkey) (amount : UInt64)
    (bs : List UInt8) : Prop :=
  ∃ (inp : SellInputs) (tx : Transaction), inp.user = Ed25519.verifyingKey wallet ∧
    inp.mint = s.mintPubkey ∧ inp.associatedUser = ata ∧ inp.amountTokens = amount ∧
    OneSignerTx wallet inp.user inp.recentBlockhash inp.meanings bs tx

theorem Staged.DistinctAtas.of_nodup {s : Staged}
    (h : (some s.pdas.associatedUser :: s.prepared.children.map s.ataOf).Nodup) :
    s.DistinctAtas := by
  obtain ⟨hdev, hchildren⟩ := List.nodup_cons.1 h
  constructor
  case children =>
    intro i j wallet wallet' ata hi hj hata hata'
    have hi' : (s.prepared.children.map s.ataOf)[i]? = some (some ata) := by
      rw [List.getElem?_map, hi, Option.map_some, hata]
    have hj' : (s.prepared.children.map s.ataOf)[j]? = some (some ata) := by
      rw [List.getElem?_map, hj, Option.map_some, hata']
    have hlt := (List.getElem?_eq_some_iff.1 hi').1
    exact (List.getElem?_inj hlt hchildren).1 (hi'.trans hj'.symm)
  case dev =>
    intro i wallet hi hata
    apply hdev
    rw [← hata]
    exact List.mem_map_of_mem (List.mem_of_getElem? hi)

end Wiring

end TokenPumper

namespace TokenPumper.CurveSub
open LittleEndian Borsh Effect Machine

section Wired
variable [Ed25519] [AddressHash] {s : Staged} {submitter : Option Node1Submitter} {task : Task}
  {past : List Observed} {st : State}

theorem routes_iff (hj : s.Joins submitter task) (hd : s.DistinctAtas)
    (hplaced : Placed s.prepared.assigner.slots) (hat : s.WalletAt k wallet ata) (p : Pubkey) :
    task.ataToWalletIdx p = some k ↔ p = ata := by
  constructor
  · intro h
    obtain ⟨a, ha, rfl, hidx⟩ := exists_of_ataToWalletIdx h
    obtain ⟨-, wallet', hat'⟩ := hj.subscriptions a ha k hidx
    exact hat'.ata_eq hat
  · rintro rfl
    obtain ⟨a, ha, rfl, hidx⟩ := hj.subscribed k wallet p hat
    obtain ⟨j, hroute⟩ := ataToWalletIdx_isSome ha hidx
    obtain ⟨a', ha', hata, hidx'⟩ := exists_of_ataToWalletIdx hroute
    obtain ⟨-, wallet', hat'⟩ := hj.subscriptions a' ha' j hidx'
    rw [hata] at hat'
    rw [hroute, hd.slot_eq hplaced hat' hat]

theorem balance_eq (hj : s.Joins submitter task) (hd : s.DistinctAtas)
    (hplaced : Placed s.prepared.assigner.slots) (ht : Tracks task past st)
    (hk : k < task.walletSellCtxs.length) (hat : s.WalletAt k wallet ata) :
    st.walletBalances[k]? = some ((lastStored (· == ata) past).getD 0) := by
  have hconcerns (p : Pubkey) : (task.ataToWalletIdx p == some k) = (p == ata) := by
    rw [Bool.eq_iff_iff, beq_iff_eq, beq_iff_eq]
    exact routes_iff hj hd hplaced hat p
  rw [ht.balances k hk, lastStored_congr hconcerns]

/-- The state after a run of updates and reads, with any event that may come next. -/
structure OwnBalances (s : Staged) (submitter : Option Node1Submitter) (task : Task)
    (past : List Observed) (st : State) : Prop where
  /-- A sell of a slot is its wallet's, of the amount last stored for it. -/
  sold : ∀ e st' out k slot amount handed, step task st e = some (st', out) →
    .walletSell k slot amount handed ∈ out →
    ∃ wallet ata bs, s.WalletAt k wallet ata ∧ lastStored (· == ata) past = some amount ∧
      amount ≠ 0 ∧ s.SellsOwn wallet ata amount bs ∧ handed = submitter.map fun _ => bs
  /-- A wallet with no update, or with a last amount of zero, is not sold. -/
  unsold : ∀ k wallet ata, s.WalletAt k wallet ata → (lastStored (· == ata) past).getD 0 = 0 →
    ∀ e st' out, step task st e = some (st', out) → ∀ f ∈ out, f.isWalletSell k = false
  /-- The read of a slot with any other last amount sells it. -/
  read : ∀ i d k ctx wallet ata amount blockhash, Reads st i d k ctx → s.WalletAt k wallet ata →
    lastStored (· == ata) past = some amount → amount ≠ 0 →
    ∃ st' handed, step task st (.deadlineStep i blockhash) =
      some (st', [.walletSell k d.fireSlot amount handed])
  /-- An update of a wrong length, for the dev's account or for an unknown one changes nothing. -/
  untouched : ∀ filters info slot blockhashes st' out,
    step task st (.update ⟨filters, some (.account (some info) slot)⟩ blockhashes) =
      some (st', out) →
    info.data.length ≠ sliceTotalLen ∨ info.pubkey = s.pdas.associatedUser.toList ∨
      (∀ k wallet ata, s.WalletAt k wallet ata → info.pubkey ≠ ata.toList) →
    st'.walletBalances = st.walletBalances
  /-- The slots that updates are stored to are there. -/
  routes : ∀ pubkey idx, task.ataToWalletIdx pubkey = some idx → idx < st.walletBalances.length
  /-- The slots that are still to be read are there. -/
  batches : ∀ d ∈ st.deadlines, ∀ p ∈ d.wallets, p.1 < st.walletBalances.length

/-- The read of a slot sells what was last seen of its wallet's account, if that is not zero. -/
theorem read_sells (hj : s.Joins submitter task) (hd : s.DistinctAtas)
    (hplaced : Placed s.prepared.assigner.slots) (ht : Tracks task past st)
    (h : Reads st i d k ctx) (blockhash : Bytes 32) :
    ∃ wallet ata bs, s.WalletAt k wallet ata ∧
      s.SellsOwn wallet ata ((lastStored (· == ata) past).getD 0) bs ∧
      ∃ st', step task st (.deadlineStep i blockhash) =
        some (st', if (lastStored (· == ata) past).getD 0 = 0 then [] else
          [.walletSell k d.fireSlot ((lastStored (· == ata) past).getD 0)
            (submitter.map fun _ => bs)]) := by
  have hctx := h.ctx_eq ht
  obtain ⟨wallet, ata, hat, hof⟩ := hj.sells k ctx hctx
  have hk := (List.getElem?_eq_some_iff.1 hctx).1
  have hb := balance_eq hj hd hplaced ht hk hat
  obtain ⟨bs, tx, hmeans, st', hstep⟩ := step_of_reads h hb blockhash
  rw [hof.submitter] at hstep
  rw [hof.signer] at hmeans
  have hsells : s.SellsOwn wallet ata ((lastStored (· == ata) past).getD 0) bs :=
    ⟨ctx.inputs d.fireSlot _ blockhash, tx, hof.user, hof.mint, hof.account, rfl, hmeans⟩
  exact ⟨wallet, ata, bs, hat, hsells, st', hstep⟩

theorem sold_of_tracks (hj : s.Joins submitter task) (hd : s.DistinctAtas)
    (hplaced : Placed s.prepared.assigner.slots) (ht : Tracks task past st)
    (hstep : step task st e = some (st', out)) (hf : .walletSell k slot amount handed ∈ out) :
    ∃ wallet ata bs, s.WalletAt k wallet ata ∧ lastStored (· == ata) past = some amount ∧
      amount ≠ 0 ∧ s.SellsOwn wallet ata amount bs ∧ handed = submitter.map fun _ => bs := by
  obtain ⟨i, d, ctx, blockhash, rfl, hreads⟩ := reads_of_walletSell hstep hf
  obtain ⟨wallet, ata, bs, hat, hsells, st₁, hread⟩ := read_sells hj hd hplaced ht hreads blockhash
  obtain ⟨-, rfl⟩ := Prod.mk.inj (Option.some.inj (hstep.symm.trans hread))
  split at hf
  · exact absurd hf List.not_mem_nil
  · rename_i hne
    obtain ⟨-, -, rfl, rfl⟩ := Fired.walletSell.inj (List.mem_singleton.1 hf)
    refine ⟨wallet, ata, bs, hat, ?_, hne, hsells, rfl⟩
    cases hl : lastStored (· == ata) past with
    | none =>
      rw [hl] at hne
      exact absurd rfl hne
    | some amount => rfl

theorem ownBalances_of_tracks (hj : s.Joins submitter task) (hd : s.DistinctAtas)
    (hplaced : Placed s.prepared.assigner.slots) (ht : Tracks task past st) :
    OwnBalances s submitter task past st := by
  constructor
  case sold =>
    intro e st' out k slot amount handed hstep hf
    exact sold_of_tracks hj hd hplaced ht hstep hf
  case unsold =>
    intro k wallet ata hat hzero e st' out hstep f hf
    cases f with
    | walletSell j slot amount handed =>
      apply Bool.eq_false_iff.2
      intro hjk
      obtain rfl : j = k := beq_iff_eq.1 hjk
      obtain ⟨wallet', ata', bs, hat', hlast, hne, -⟩ :=
        sold_of_tracks hj hd hplaced ht hstep hf
      rw [hat.ata_eq hat', hlast] at hzero
      exact hne hzero
    | _ => rfl
  case read =>
    intro i d k ctx wallet ata amount blockhash hreads hat hlast hne
    obtain ⟨wallet', ata', bs, hat', -, st', hstep⟩ :=
      read_sells hj hd hplaced ht hreads blockhash
    rw [← hat.ata_eq hat', hlast, Option.getD_some, if_neg hne] at hstep
    exact ⟨st', _, hstep⟩
  case untouched =>
    intro filters info slot blockhashes st' out hstep hother
    rw [balances_of_step hstep]
    apply balancesAfter_of_unrouted
    intro pubkey data hstored
    obtain ⟨hlen, hpubkey⟩ := eq_of_stored hstored
    cases hroute : task.ataToWalletIdx pubkey with
    | none => rfl
    | some idx =>
      exfalso
      obtain ⟨a, ha, rfl, hidx⟩ := exists_of_ataToWalletIdx hroute
      obtain ⟨-, wallet, hat⟩ := hj.subscriptions a ha idx hidx
      rcases hother with hwrong | hdev | hunknown
      · exact hwrong hlen
      · obtain ⟨assignment, -, hwallet, hata⟩ := hat
        rw [hpubkey] at hdev
        rw [Vector.toList_inj.1 hdev] at hata
        exact hd.dev _ wallet hwallet hata
      · exact hunknown idx wallet a.ata hat hpubkey
  case routes =>
    intro pubkey idx h
    obtain ⟨a, ha, -, hidx⟩ := exists_of_ataToWalletIdx h
    rw [ht.length]
    exact (hj.subscriptions a ha idx hidx).1
  case batches =>
    intro d hdeadline p hp
    rw [ht.length]
    exact (List.getElem?_eq_some_iff.1 (ht.batches d hdeadline p hp)).1

/-- Whatever the assigner, whatever the updates and the reads and their order: what is sold of a
wallet is what was last stored for it. -/
theorem sells_own_balance
    (hassigner : Assigner.build accounts batchSize env w = (.ok s.prepared.assigner, w'))
    (hatas : s.DistinctAtas)
    (htask : curveSubTask cfg s submitter env₁ w₁ = (.ok (some task), w₁'))
    (hprovided : ∀ o ∈ past, o.Provided)
    (hrun : run (observe task) (.init (List.replicate task.walletSellCtxs.length 0)) past =
      some st) : OwnBalances s submitter task past st := by
  have hjoins := joins_of_curveSubTask htask
  have hplaced := placed_of_build hassigner
  have htracks := tracks_of_run hprovided hrun
  exact ownBalances_of_tracks hjoins hatas hplaced htracks

end Wired

def samplePublic4 : Pubkey := #v[
  202, 147, 172, 23, 5, 24, 112, 113, 214, 123, 131, 199, 255, 14, 254, 129, 8, 232, 236, 69, 48,
  87, 93, 119, 38, 135, 147, 51, 219, 218, 190, 124]

def samplePublic8 : Pubkey := #v[
  19, 152, 246, 44, 109, 26, 69, 124, 81, 186, 106, 75, 95, 61, 189, 47, 105, 252, 169, 50, 22, 33,
  141, 200, 153, 126, 65, 107, 209, 125, 147, 202]

def sampleAta8 : Pubkey := #v[
  217, 120, 161, 39, 154, 194, 234, 133, 60, 235, 102, 138, 191, 0, 71, 187, 118, 78, 235, 3, 209,
  216, 178, 240, 43, 243, 102, 87, 232, 135, 143, 180]

def sampleAtaPreimage (wallet : Pubkey) : List UInt8 :=
  samplePreimage [wallet.toList, token2022ProgramId.toList, sampleMint.toList] ataProgramId

def sampleChildDigests : List (List UInt8 × Bytes 32) :=
  [(sampleAtaPreimage samplePublic2, #v[
      95, 253, 174, 187, 24, 194, 204, 116, 180, 165, 161, 1, 138, 177, 237, 202, 57, 48, 42, 227,
      233, 237, 13, 46, 169, 12, 131, 15, 20, 224, 229, 92]),
    (sampleAtaPreimage samplePublic4, #v[
      134, 249, 133, 89, 35, 120, 140, 8, 172, 32, 20, 140, 4, 134, 186, 6, 10, 174, 143, 249, 120,
      195, 205, 147, 99, 229, 124, 47, 126, 172, 221, 39]),
    (sampleAtaPreimage samplePublic8, sampleAta8),
    (samplePreimage [utf8 "user_volume_accumulator", samplePublic2.toList] pumpProgramId, #v[
      4, 175, 158, 111, 215, 105, 242, 121, 28, 247, 187, 248, 2, 213, 88, 255, 43, 96, 151, 249,
      176, 59, 35, 94, 177, 6, 178, 165, 114, 130, 231, 242]),
    (samplePreimage [utf8 "user_volume_accumulator", samplePublic8.toList] pumpProgramId, #v[
      18, 98, 62, 190, 24, 54, 106, 73, 158, 106, 28, 198, 189, 209, 34, 137, 135, 237, 83, 109,
      113, 241, 4, 90, 77, 180, 77, 137, 153, 31, 120, 42])]

abbrev sampleAtaHash : AddressHash where
  sha256 preimage :=
    ((sampleDigests ++ sampleChildDigests).lookup preimage).getD (.replicate 32 0)
  onCurve _ := false

abbrev sampleTraders : Ed25519 := .ofVectors
  [(.replicate 32 2, samplePublic2), (.replicate 32 3, sampleDev), (.replicate 32 4, samplePublic4),
    (.replicate 32 8, samplePublic8)]
  [(.replicate 32 2, #v[
      207, 201, 158, 44, 203, 190, 83, 55, 157, 130, 10, 123, 216, 75, 247, 165, 45, 117, 196, 137,
      162, 212, 76, 247, 17, 47, 137, 5, 206, 77, 183, 21, 160, 83, 55, 154, 202, 62, 183, 53, 181,
      7, 49, 148, 201, 226, 141, 4, 52, 87, 21, 214, 3, 109, 225, 223, 15, 81, 189, 252, 186, 126,
      91, 8]),
    (.replicate 32 8, #v[
      152, 60, 174, 188, 247, 156, 67, 28, 48, 79, 133, 110, 108, 112, 105, 223, 3, 2, 192, 156,
      191, 112, 59, 89, 164, 250, 11, 158, 175, 143, 77, 67, 95, 187, 133, 1, 144, 166, 91, 61, 62,
      213, 14, 40, 170, 215, 119, 196, 135, 44, 49, 76, 68, 29, 11, 167, 108, 121, 215, 116, 133,
      45, 61, 4]),
    (.replicate 32 3, #v[
      245, 126, 27, 227, 75, 133, 168, 207, 94, 43, 64, 71, 149, 77, 255, 185, 237, 177, 155, 225,
      71, 24, 176, 75, 55, 4, 117, 6, 181, 109, 226, 224, 141, 78, 33, 10, 14, 118, 70, 79, 73, 212,
      23, 140, 80, 98, 64, 50, 59, 170, 179, 106, 70, 152, 44, 238, 91, 145, 199, 69, 95, 111, 211,
      4])]

def samplePdas : LaunchPdas :=
  (@LaunchPdas.derive sampleAtaHash sampleMint sampleDev).get (by decide +kernel)

def sampleStaged : Staged where
  token := sampleToken
  prepared := {
    eater := .replicate 32 5
    funder := .replicate 32 6
    dev := .replicate 32 3
    children := [.replicate 32 2, .replicate 32 4, .replicate 32 8]
    assigner := ⟨[some ⟨0, 700000, 70000⟩, none, some ⟨2, 700000, 70000⟩]⟩ }
  uri := "ipfs://pepe"
  leaderCache := sampleCache
  global := sampleGlobal
  mintPubkey := sampleMint
  devPubkey := sampleDev
  pdas := samplePdas
  alt := LaunchIx.sampleInputs.alt
  quote := ⟨35000000, 2000000⟩

def sampleWatched : Config where
  eaterAmount := 0
  curveSubEndpoint := some "https://grpc:10000"
  curveSubXToken := some "token"

def sampleSubmitter : Option Node1Submitter :=
  some ⟨⟨"fra.node1.me:16666", "fra.node1.me", .replicate 16 0⟩⟩

def sampleTask : Option Task :=
  (@curveSubTask sampleTraders sampleAtaHash sampleWatched sampleStaged sampleSubmitter
    (.calm 0 (.replicate 32 6)) (.init .empty)).1.toOption.join

def sampleAccount (amount : UInt64) : List UInt8 :=
  sampleMint.toList ++ samplePublic8.toList ++ LittleEndian.u64 amount ++ List.replicate 93 0

def sampleSeen (filter : String) (pubkey : Pubkey) (account : List UInt8) : Observed where
  event := .update ⟨[filter], some (.account (some ⟨pubkey.toList, sliced account⟩) 7)⟩
    fun _ => .replicate 32 9
  account

/-- The third child's account is seen before and after the first signal, and then the dev's; the dev
sell is made and the slot of the first child is read. -/
def samplePast : List Observed :=
  [⟨.validated true true, []⟩, ⟨.loadExit false, []⟩, ⟨.connected, []⟩, ⟨.subscribed, []⟩,
    ⟨.filterSent, []⟩, ⟨.loadExit false, []⟩,
    sampleSeen filterAtas sampleAta8 (sampleAccount 0), ⟨.loadExit false, []⟩,
    sampleSeen filterCurve samplePdas.bondingCurve (List.replicate 151 1), ⟨.loadExit false, []⟩,
    sampleSeen filterAtas sampleAta8 (sampleAccount 5000), ⟨.loadExit false, []⟩,
    sampleSeen filterAtas samplePdas.associatedUser (sampleAccount 9),
    ⟨.deadlineStep 0 (.replicate 32 9), []⟩, ⟨.deadlineStep 0 (.replicate 32 9), []⟩]

theorem provided_samplePast : ∀ o ∈ samplePast, o.Provided := by
  intro o ho filters info slot blockhashes hevent
  simp only [samplePast, List.mem_cons, List.not_mem_nil, or_false] at ho
  rcases ho with rfl | rfl | rfl | rfl | rfl | rfl | rfl | rfl | rfl | rfl | rfl | rfl | rfl | rfl |
    rfl
  all_goals cases hevent
  all_goals rfl

theorem sells_own_balance_sample :
    ∃ task w st, @curveSubTask sampleTraders sampleAtaHash sampleWatched sampleStaged
        sampleSubmitter (.calm 0 (.replicate 32 6)) (.init .empty) = (.ok (some task), w) ∧
      run (@observe sampleTraders task) (.init (List.replicate task.walletSellCtxs.length 0))
        samplePast = some st ∧
      @OwnBalances sampleTraders sampleAtaHash sampleStaged sampleSubmitter task samplePast st := by
  have hassigner : ∃ w, Assigner.build [⟨1, 1000000, 100000⟩, ⟨3, 1000000, 100000⟩] 3
      (.calm 0 (.replicate 32 6)) (.init .empty) = (.ok sampleStaged.prepared.assigner, w) :=
    ⟨_, rfl⟩
  have hatas : @Staged.DistinctAtas sampleTraders sampleAtaHash sampleStaged :=
    @Staged.DistinctAtas.of_nodup sampleTraders sampleAtaHash sampleStaged (by decide +kernel)
  have hruns : (sampleTask.bind fun task => run (@observe sampleTraders task)
      (.init (List.replicate task.walletSellCtxs.length 0)) samplePast).isSome = true := by
    decide +kernel
  obtain ⟨w, hassigner⟩ := hassigner
  obtain ⟨st, hst⟩ := Option.isSome_iff_exists.1 hruns
  obtain ⟨task, htask, hrun⟩ := Option.bind_eq_some_iff.1 hst
  have hwired := run_eq (eq_ok_of_join htask)
  exact ⟨task, _, st, hwired, hrun, @sells_own_balance sampleTraders sampleAtaHash _ _ _ _ _ _ _ _
    _ _ _ _ _ _ hassigner hatas hwired provided_samplePast hrun⟩

end TokenPumper.CurveSub
