import TokenPumper.Keys.Attempts

namespace TokenPumper
open LittleEndian Effect Transaction
set_option autoImplicit true

def balancesOf (chunk : List Sender) : Nat := (chunk.map (·.balance.toNat)).sum

theorem balancesOf_cons (s : Sender) (chunk : List Sender) :
    balancesOf (s :: chunk) = s.balance.toNat + balancesOf chunk := rfl

theorem balancesOf_append (chunk rest : List Sender) :
    balancesOf (chunk ++ rest) = balancesOf chunk + balancesOf rest := by
  rw [balancesOf, List.map_append, List.sum_append]
  rfl

theorem toNat_sum_balances {chunk : List Sender} (h : balancesOf chunk < 2 ^ 64) :
    (chunk.map Sender.balance).sum.toNat = balancesOf chunk := by
  induction chunk with
  | nil => rfl
  | cons s chunk ih =>
    rw [balancesOf_cons] at h
    have hrest : balancesOf chunk < 2 ^ 64 := Nat.lt_of_le_of_lt (Nat.le_add_left ..) h
    rw [List.map_cons, List.sum_cons, UInt64.toNat_add, ih hrest, Nat.mod_eq_of_lt h,
      balancesOf_cons]

theorem toNat_chunkFee {chunk : List Sender} (h : chunk.length ≤ maxChildrenPerSweepTx) :
    (chunkFee chunk).toNat = 5000 * (chunk.length + 1) := by
  have hmax : chunk.length ≤ 9 := h
  have hfee : lamportsPerSignature.toNat = 5000 := rfl
  rw [chunkFee, UInt64.toNat_mul, UInt64.toNat_add, UInt64.toNat_ofNat', hfee, UInt64.toNat_one]
  omega

theorem toNat_projectedEater {chunk : List Sender} (hsize : chunk.length ≤ maxChildrenPerSweepTx)
    (hbound : runningEater.toNat + balancesOf chunk < 2 ^ 64) :
    (projectedEater runningEater chunk).toNat =
      runningEater.toNat + balancesOf chunk - 5000 * (chunk.length + 1) := by
  have hsum := toNat_sum_balances (Nat.lt_of_le_of_lt (Nat.le_add_left ..) hbound)
  rw [projectedEater, toNat_saturatingSub, toNat_chunkFee hsize, toNat_saturatingAdd, hsum]
  rwa [hsum]

def SweepResult.lamports (r : SweepResult) : Nat :=
  match r.outcome with
  | .sent lamports _ => lamports.toNat
  | _ => 0

def sentLamports (results : List SweepResult) : Nat := (results.map SweepResult.lamports).sum

theorem sentLamports_append (results results' : List SweepResult) :
    sentLamports (results ++ results') = sentLamports results + sentLamports results' := by
  rw [sentLamports, List.map_append, List.sum_append]
  rfl

def paidSignatures (attempts : List Attempt) : Nat :=
  (attempts.map fun a => if a.accepted then a.members.length + 1 else 0).sum

theorem paidSignatures_cons (a : Attempt) (rest : List Attempt) :
    paidSignatures (a :: rest) =
      (if a.accepted then a.members.length + 1 else 0) + paidSignatures rest := by
  rw [paidSignatures, List.map_cons, List.sum_cons]
  rfl

theorem Attempt.sentLamports_results (a : Attempt) :
    sentLamports a.results = if a.accepted then balancesOf a.chunk else 0 := by
  have hzero (outcome : Sender → Outcome)
      (h : ∀ s, SweepResult.lamports ⟨s.label, outcome s⟩ = 0) :
      sentLamports (reportAll a.chunk outcome) = 0 := by
    rw [sentLamports, reportAll, List.map_map, List.sum_eq_zero_iff_forall_eq_nat]
    intro n hn
    obtain ⟨s, -, rfl⟩ := List.mem_map.1 hn
    exact h s
  rw [Attempt.results, Attempt.accepted]
  cases hreply : a.reply with
  | none =>
    apply hzero
    intro s
    rw [Attempt.outcome, hreply]
    rfl
  | some reply =>
    cases reply with
    | ok sig =>
      have houtcome : a.outcome = fun s => .sent s.balance sig := by
        funext s
        rw [Attempt.outcome, hreply]
      rw [houtcome, sentLamports, reportAll, List.map_map]
      rfl
    | error chain =>
      apply hzero
      intro s
      rw [Attempt.outcome, hreply]
      rfl

theorem Attempt.reply_of_sent {a : Attempt} (h : a.outcome s = .sent lamports signature) :
    lamports = s.balance ∧ a.reply = some (.ok signature) := by
  rw [Attempt.outcome] at h
  cases hreply : a.reply with
  | none =>
    rw [hreply] at h
    cases h
  | some reply =>
    rw [hreply] at h
    cases reply with
    | ok sig =>
      obtain ⟨hlamports, hsig⟩ := Outcome.sent.inj h
      exact ⟨hlamports.symm, by rw [hsig]⟩
    | error chain => cases h

section Formula
variable [Ed25519] {env : Env} {eater : SigningKey} {blockhash : Bytes 32}

theorem Attempt.after_exact {a : Attempt} (hdecided : a.Decided env eater blockhash t)
    (hsize : a.members.length ≤ maxChildrenPerSweepTx)
    (hbound : a.runningEater.toNat + balancesOf a.chunk < 2 ^ 64) :
    a.after.toNat + 5000 * (if a.accepted then a.members.length + 1 else 0) =
      a.runningEater.toNat + sentLamports a.results := by
  rw [a.sentLamports_results, Attempt.after]
  split
  · rename_i haccepted
    have hlen : a.chunk.length = a.members.length := List.length_map ..
    have hprojected := toNat_projectedEater (hlen ▸ hsize) hbound
    -- the guard leaves something, so the fee has not been cut off at zero
    have hmin : rentExemptMinLamports.toNat = 890880 := rfl
    have hrent := hdecided.leaves_rent haccepted
    rw [UInt64.le_iff_toNat_le, hmin] at hrent
    rw [hprojected, hlen] at hrent ⊢
    omega
  · rw [Nat.mul_zero]

theorem runningAfter_exact
    (h : sweepAttempts env eater blockhash runningEater t parts = before ++ rest)
    (hsize : ∀ members ∈ parts, members.length ≤ maxChildrenPerSweepTx)
    (hbound : runningEater.toNat + balancesOf (parts.flatten.map Prod.fst) < 2 ^ 64) :
    (runningAfter runningEater before).toNat + 5000 * paidSignatures before =
      runningEater.toNat + sentLamports (before.flatMap Attempt.results) := by
  induction before generalizing runningEater t parts with
  | nil => rfl
  | cons a before ih =>
    cases parts with
    | nil => cases h
    | cons members parts =>
      obtain ⟨b, rfl, rfl, hdecided, hcons⟩ :=
        sweepAttempts_cons env eater blockhash runningEater t members parts
      obtain ⟨rfl, htail⟩ := List.cons.inj (hcons.symm.trans h)
      obtain ⟨hsize', hsizes⟩ := List.forall_mem_cons.1 hsize
      rw [List.flatten_cons, List.map_append, balancesOf_append] at hbound
      have hstep := Attempt.after_exact hdecided hsize' (by rw [Attempt.chunk]; omega)
      have hle : sentLamports b.results ≤ balancesOf b.chunk := by
        rw [b.sentLamports_results]
        split <;> omega
      have hrest := ih htail hsizes (by rw [Attempt.chunk] at hle; omega)
      rw [runningAfter_cons, paidSignatures_cons, List.flatMap_cons, sentLamports_append]
      omega

end Formula

/-- The senders that pass a check, with their places in the list. -/
def places (senders : List Sender) (check : Sender → Bool) : List (Sender × Nat) :=
  senders.zipIdx.filter fun m => check m.1

def Sender.isFunded (s : Sender) : Bool := s.balance ≠ 0

theorem places_map_fst (senders : List Sender) (check : Sender → Bool) :
    (places senders check).map Prod.fst = senders.filter check := by
  have h : senders.filter check = (senders.zipIdx.map Prod.fst).filter check := by
    rw [List.zipIdx_map_fst]
  rw [h, List.filter_map]
  rfl

theorem nodup_places (senders : List Sender) (check : Sender → Bool) :
    ((places senders check).map Prod.snd).Nodup := by
  have hsub : ((places senders check).map Prod.snd).Sublist (senders.zipIdx.map Prod.snd) :=
    List.filter_sublist.map Prod.snd
  apply hsub.nodup
  rw [List.zipIdx_map_snd]
  exact List.nodup_range'

theorem balancesOf_sublist {chunk senders : List Sender} (h : chunk.Sublist senders) :
    balancesOf chunk ≤ balancesOf senders := by
  induction h with
  | slnil => exact Nat.le_refl 0
  | cons s _ ih => exact Nat.le_trans ih (Nat.le_add_left ..)
  | cons_cons s _ ih => exact Nat.add_le_add_left ih _

section Books
variable [Ed25519]

def Sender.isEater (eater : SigningKey) (s : Sender) : Bool :=
  Ed25519.verifyingKey s.key = Ed25519.verifyingKey eater

def ownResult (m : Sender × Nat) : SweepResult :=
  ⟨m.1.label, .skipped "destination equals source (this wallet is the eater)"⟩

theorem sortSenders_eq (eater : SigningKey) (senders : List Sender) :
    sortSenders (Ed25519.verifyingKey eater) senders =
      ((places senders fun s => s.isEater eater && s.isFunded).map ownResult,
        senders.filter fun s => !s.isEater eater && s.isFunded) := by
  have hresults : (places senders fun s => s.isEater eater && s.isFunded).map ownResult =
      (senders.filter fun s => s.isEater eater && s.isFunded).map fun s => ownResult (s, 0) := by
    rw [← places_map_fst, List.map_map]
    rfl
  rw [hresults]
  clear hresults
  induction senders with
  | nil => rfl
  | cons s senders ih =>
    rw [sortSenders, ih]
    dsimp only
    split
    · rename_i hzero
      have hfunded : s.isFunded = false := by rw [Sender.isFunded, hzero]; rfl
      simp only [List.filter_cons, hfunded, Bool.and_false, Bool.false_eq_true, if_false]
    · rename_i hfull
      have hfunded : s.isFunded = true := decide_eq_true hfull
      split
      · rename_i hown
        have hown' : s.isEater eater = true := decide_eq_true hown
        simp only [List.filter_cons, hfunded, hown', Bool.and_true, Bool.not_true, if_true,
          Bool.false_eq_true, if_false]
        rfl
      · rename_i hother
        have hother' : s.isEater eater = false := decide_eq_false hother
        simp only [List.filter_cons, hfunded, hother', Bool.and_true, Bool.not_false, if_true,
          Bool.false_eq_true, if_false]

def sources (eater : SigningKey) (senders : List Sender) : List (Sender × Nat) :=
  places senders fun s => !s.isEater eater && s.isFunded

theorem worldAfter_append (eater : SigningKey) (blockhash : Bytes 32) (w : World)
    (before rest : List Attempt) :
    worldAfter eater blockhash (worldAfter eater blockhash w before) rest =
      worldAfter eater blockhash w (before ++ rest) := by
  simp only [worldAfter, submitted, List.countP_append, List.filterMap_append, List.append_assoc,
    Nat.add_assoc]

/-- A sweep by its attempts: what the loop comes to each chunk with, what it does about it, and
what is reported in the end. -/
structure SweepBooks (env : Env) (w : World) (senders : List Sender) (eater : SigningKey)
    (eaterBalance : UInt64) (blockhash : Bytes 32) (attempts : List Attempt)
    (results : List SweepResult) (w' : World) : Prop where
  chunks : attempts.map Attempt.members =
    inChunks maxChildrenPerSweepTx (sources eater senders).length (sources eater senders)
  decided : ∀ before a rest, attempts = before ++ a :: rest →
    a.runningEater = runningAfter eaterBalance before ∧
      a.Decided env eater blockhash (w.tick + 1 + submitted before)
  loop : ∀ before rest, attempts = before ++ rest →
    sweepChunks eater blockhash (runningAfter eaterBalance before) (rest.map Attempt.chunk) env
        (worldAfter eater blockhash { w with tick := w.tick + 1 } before) =
      (.ok (rest.flatMap Attempt.results),
        worldAfter eater blockhash { w with tick := w.tick + 1 } attempts)
  results : results = (places senders fun s => s.isEater eater && s.isFunded).map ownResult ++
    attempts.flatMap Attempt.results
  log : w'.log = w.log ++ attempts.filterMap (Attempt.event? eater blockhash w.disk)

theorem toEater_books (senders : List Sender) (eater : SigningKey) (eaterBalance : UInt64)
    {env : Env} {w : World} (hblockhash : env.latestBlockhash w.tick = .ok blockhash) :
    ∃ results w', Sweep.toEater senders eater eaterBalance false env w = (.ok results, w') ∧
      SweepBooks env w senders eater eaterBalance blockhash
        (sweepAttempts env eater blockhash eaterBalance (w.tick + 1)
          (inChunks maxChildrenPerSweepTx (sources eater senders).length (sources eater senders)))
        results w' := by
  generalize hparts : inChunks maxChildrenPerSweepTx (sources eater senders).length
    (sources eater senders) = parts
  generalize hattempts : sweepAttempts env eater blockhash eaterBalance (w.tick + 1) parts =
    attempts
  have hwork : (sources eater senders).map Prod.fst =
      senders.filter fun s => !s.isEater eater && s.isFunded := places_map_fst ..
  have hloop (before rest : List Attempt) (hsplit : attempts = before ++ rest) :
      sweepChunks eater blockhash (runningAfter eaterBalance before) (rest.map Attempt.chunk) env
        (worldAfter eater blockhash { w with tick := w.tick + 1 } before) =
      (.ok (rest.flatMap Attempt.results),
        worldAfter eater blockhash { w with tick := w.tick + 1 } attempts) := by
    have hrest := sweepAttempts_split (hattempts.trans hsplit)
    have hchunks : rest.map Attempt.chunk = (rest.map Attempt.members).map (List.map Prod.fst) := by
      rw [List.map_map]
      rfl
    have htried : sweepAttempts env eater blockhash (runningAfter eaterBalance before)
        (worldAfter eater blockhash { w with tick := w.tick + 1 } before).tick
        (rest.map Attempt.members) = rest := hrest.symm
    rw [hchunks, sweepChunks_run, htried, worldAfter_append, hsplit]
  have hbooks (w' : World)
      (hlog : w'.log = w.log ++ attempts.filterMap (Attempt.event? eater blockhash w.disk)) :
      SweepBooks env w senders eater eaterBalance blockhash attempts
        ((places senders fun s => s.isEater eater && s.isFunded).map ownResult ++
          attempts.flatMap Attempt.results) w' := by
    constructor
    case chunks => rw [← hattempts, sweepAttempts_members, hparts]
    case decided =>
      intro before a rest hsplit
      exact sweepAttempts_decided (hattempts.trans hsplit)
    case loop => exact hloop
    case results => rfl
    case log => exact hlog
  have hchunks : inChunks maxChildrenPerSweepTx (senders.filter fun s =>
      !s.isEater eater && s.isFunded).length (senders.filter fun s =>
      !s.isEater eater && s.isFunded) = parts.map (List.map Prod.fst) := by
    rw [← hwork, List.length_map, inChunks_map, hparts]
  rw [Sweep.toEater, sortSenders_eq]
  dsimp only
  split
  · rename_i hnone
    rw [← hwork, List.isEmpty_iff, List.map_eq_nil_iff] at hnone
    have hnothing : attempts = [] := by
      rw [hnone, inChunks_nil] at hparts
      rw [← hattempts, ← hparts]
      rfl
    have h := hbooks w
    rw [hnothing] at h ⊢
    rw [List.flatMap_nil, List.append_nil] at h
    exact ⟨_, w, rfl, h (List.append_nil _).symm⟩
  · have hrun :=
      sweepChunks_run env eater blockhash eaterBalance parts { w with tick := w.tick + 1 }
    dsimp only at hrun
    rw [hattempts] at hrun
    rw [if_neg Bool.false_ne_true, bind_run_ok (rpc_run_ok hblockhash), hchunks, bind_run_ok hrun]
    exact ⟨_, _, rfl, hbooks _ rfl⟩

section Read
variable {env : Env} {w w' : World} {senders : List Sender} {eater : SigningKey}
  {eaterBalance : UInt64} {blockhash : Bytes 32} {attempts before rest : List Attempt}
  {results : List SweepResult}

theorem SweepBooks.flatMap_members
    (h : SweepBooks env w senders eater eaterBalance blockhash attempts results w') :
    attempts.flatMap Attempt.members = sources eater senders := by
  rw [List.flatMap_def, h.chunks]
  exact flatten_inChunks (by decide) (Nat.le_refl _)

theorem SweepBooks.length_le
    (h : SweepBooks env w senders eater eaterBalance blockhash attempts results w')
    (ha : a ∈ attempts) : a.members.length ≤ maxChildrenPerSweepTx := by
  have hmem : a.members ∈ attempts.map Attempt.members := List.mem_map_of_mem ha
  rw [h.chunks] at hmem
  exact length_le_of_mem_inChunks hmem

/-- Every funded sender has one result, and no other sender has any. What is reported as sent is
the sender's balance, with the signature that came back for the sender's own transaction. -/
def ReportsEachOnce (senders : List Sender) (attempts : List Attempt) (results : List SweepResult) :
    Prop :=
  ∃ outcomes : List ((Sender × Nat) × Outcome),
    results = outcomes.map (fun o => ⟨o.1.1.label, o.2⟩) ∧
    (outcomes.map Prod.fst).Perm (places senders Sender.isFunded) ∧
    ∀ o ∈ outcomes, ∀ lamports signature, o.2 = .sent lamports signature →
      lamports = o.1.1.balance ∧ ∃ a ∈ attempts, o.1 ∈ a.members ∧ a.reply = some (.ok signature)

theorem SweepBooks.reportsEachOnce
    (h : SweepBooks env w senders eater eaterBalance blockhash attempts results w') :
    ReportsEachOnce senders attempts results := by
  let own := places senders fun s => s.isEater eater && s.isFunded
  refine ⟨own.map (fun m => (m, (ownResult m).outcome)) ++
    attempts.flatMap (fun a => a.members.map fun m => (m, a.outcome m.1)), ?_, ?_, ?_⟩
  · rw [h.results, List.map_append, List.map_map, List.map_flatMap]
    congr 2
    funext a
    rw [Attempt.results, reportAll, Attempt.chunk, List.map_map, List.map_map]
    rfl
  · have hown : (own.map fun m => (m, (ownResult m).outcome)).map Prod.fst = own := by
      rw [List.map_map]
      exact List.map_id _
    have htried : (attempts.flatMap fun a => a.members.map fun m => (m, a.outcome m.1)).map
        Prod.fst = sources eater senders := by
      rw [List.map_flatMap, ← h.flatMap_members]
      congr 1
      funext a
      rw [List.map_map]
      exact List.map_id _
    have hsplit := List.filter_append_perm (fun m : Sender × Nat => m.1.isEater eater)
      (places senders Sender.isFunded)
    rw [places, List.filter_filter, List.filter_filter] at hsplit
    rw [List.map_append, hown, htried]
    exact hsplit
  · intro o ho lamports signature hsent
    rcases List.mem_append.1 ho with hmem | hmem
    · obtain ⟨m, -, rfl⟩ := List.mem_map.1 hmem
      cases hsent
    · obtain ⟨a, ha, hmem⟩ := List.mem_flatMap.1 hmem
      obtain ⟨m, hm, rfl⟩ := List.mem_map.1 hmem
      obtain ⟨hlamports, hreply⟩ := Attempt.reply_of_sent hsent
      exact ⟨hlamports, a, ha, hm, hreply⟩

theorem sweepTx_transfers (eater : SigningKey) (chunk : List Sender) (blockhash : Bytes 32)
    (hsize : chunk.length ≤ maxChildrenPerSweepTx) :
    ∃ tx, TransfersTx (eater :: chunk.map Sender.key)
      (transferMetas ((eater :: chunk.map Sender.key).map Ed25519.verifyingKey) []) blockhash
      (chunk.map fun s => (Ed25519.verifyingKey s.key, Ed25519.verifyingKey eater, s.balance))
      (sweepTx eater chunk blockhash) tx := by
  have hmax : chunk.length ≤ 9 := hsize
  obtain ⟨bs, tx, hbs, htx⟩ := sweep_decodes eater (chunk.map fun s => (s.key, s.balance)) blockhash
    (by rw [List.length_map]; omega)
  simp only [List.map_map] at hbs htx
  obtain rfl := Option.some.inj (hbs.symm.trans (sweepTx_eq eater chunk blockhash))
  exact ⟨tx, htx⟩

theorem balancesOf_sources_le (eater : SigningKey) (senders : List Sender) :
    balancesOf ((sources eater senders).map Prod.fst) ≤ balancesOf senders := by
  rw [sources, places_map_fst]
  exact balancesOf_sublist List.filter_sublist

/-- After a chunk that was accepted the eater has its rent, after any other it has what it had. -/
theorem SweepBooks.after
    (h : SweepBooks env w senders eater eaterBalance blockhash attempts results w')
    (hsplit : attempts = before ++ a :: rest) :
    (a.accepted = true → rentExemptMinLamports ≤ runningAfter eaterBalance (before ++ [a])) ∧
      (a.accepted = false →
        runningAfter eaterBalance (before ++ [a]) = runningAfter eaterBalance before) := by
  obtain ⟨hrunning, hdecided⟩ := h.decided before a rest hsplit
  have hafter : runningAfter eaterBalance (before ++ [a]) = a.after := List.foldl_concat ..
  rw [hafter, Attempt.after]
  constructor
  · intro haccepted
    rw [if_pos haccepted]
    exact hdecided.leaves_rent haccepted
  · intro hnot
    rw [hnot, if_neg Bool.false_ne_true, hrunning]

/-- A sweep is accounted for in full: results, transactions, and the balance of the eater. -/
theorem sweep_accounts (senders : List Sender) (eater : SigningKey) (eaterBalance : UInt64)
    (htotal : eaterBalance.toNat + balancesOf senders < 2 ^ 64)
    (hblockhash : env.latestBlockhash w.tick = .ok blockhash) :
    ∃ attempts results w',
      Sweep.toEater senders eater eaterBalance false env w = (.ok results, w') ∧
      SweepBooks env w senders eater eaterBalance blockhash attempts results w' ∧
      ReportsEachOnce senders attempts results ∧
      attempts.flatMap Attempt.members = sources eater senders ∧
      ((attempts.flatMap Attempt.members).map Prod.snd).Nodup ∧
      (∀ a ∈ attempts, ∃ tx, TransfersTx (eater :: a.chunk.map Sender.key)
        (transferMetas ((eater :: a.chunk.map Sender.key).map Ed25519.verifyingKey) []) blockhash
        (a.chunk.map fun s => (Ed25519.verifyingKey s.key, Ed25519.verifyingKey eater, s.balance))
        (sweepTx eater a.chunk blockhash) tx) ∧
      (∀ before rest, attempts = before ++ rest →
        (runningAfter eaterBalance before).toNat + 5000 * paidSignatures before =
          eaterBalance.toNat + sentLamports (before.flatMap Attempt.results)) ∧
      ∀ before a rest, attempts = before ++ a :: rest →
        (a.accepted = true → rentExemptMinLamports ≤ runningAfter eaterBalance (before ++ [a])) ∧
        (a.accepted = false →
          runningAfter eaterBalance (before ++ [a]) = runningAfter eaterBalance before) := by
  obtain ⟨results, w', hrun, hbooks⟩ := toEater_books senders eater eaterBalance hblockhash
  refine ⟨_, results, w', hrun, hbooks, hbooks.reportsEachOnce, hbooks.flatMap_members, ?_, ?_, ?_,
    fun before a rest => hbooks.after⟩
  · rw [hbooks.flatMap_members]
    exact nodup_places senders _
  · intro a ha
    apply sweepTx_transfers
    rw [Attempt.chunk, List.length_map]
    exact hbooks.length_le ha
  · intro before rest hsplit
    apply runningAfter_exact hsplit (fun members => length_le_of_mem_inChunks)
    rw [flatten_inChunks (by decide) (Nat.le_refl _)]
    have hle := balancesOf_sources_le eater senders
    omega

end Read

end Books

def sampleNode : Env :=
  { Env.calm 0 (Vector.replicate 32 0) with
    latestBlockhash := fun _ => .ok (Vector.replicate 32 9)
    sendTransaction := fun _ _ => .ok
      "2AzCQXiKCQTShsAGKKyq5WGRGaUWwoSkfcttHsKfApqxBZq5qaCUKT3PEEC3PVR1wmJVn7saiyzcY5Vt5vUiRzeu" }

def sampleSenders : List Sender :=
  [⟨"funder", Vector.replicate 32 2, 1000000⟩, ⟨"1.json", Vector.replicate 32 3, 2500000⟩]

theorem sweep_accounts_sample :
    ∃ attempts results w',
      @Sweep.toEater sampleSweepSigners sampleSenders (Vector.replicate 32 1) 20000 false
        sampleNode (.init FileTree.Tree.empty) = (.ok results, w') ∧
      ReportsEachOnce sampleSenders attempts results ∧
      attempts.flatMap Attempt.members =
        @sources sampleSweepSigners (Vector.replicate 32 1) sampleSenders ∧
      ∀ before rest, attempts = before ++ rest →
        (runningAfter 20000 before).toNat + 5000 * paidSignatures before =
          20000 + sentLamports (before.flatMap Attempt.results) := by
  obtain ⟨attempts, results, w', hrun, -, honce, hsources, -, -, hrunning, -⟩ :=
    @sweep_accounts sampleSweepSigners sampleNode (.init FileTree.Tree.empty)
      (Vector.replicate 32 9) sampleSenders (Vector.replicate 32 1) 20000 (by decide) rfl
  exact ⟨attempts, results, w', hrun, honce, hsources, hrunning⟩

end TokenPumper
