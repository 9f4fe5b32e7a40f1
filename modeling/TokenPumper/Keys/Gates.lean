import TokenPumper.Keys.Wallets

namespace TokenPumper
open LittleEndian Effect FileTree
set_option autoImplicit true

theorem zip_filterMap_eq_nil_iff {f : α × β → Option γ} {as : List α} {bs : List β} :
    (as.zip bs).filterMap f = [] ↔
      ∀ (i : Nat) a b, as[i]? = some a → bs[i]? = some b → f (a, b) = none := by
  rw [List.filterMap_eq_nil_iff]
  constructor
  · intro h i a b ha hb
    exact h (a, b) (List.mem_iff_getElem?.2 ⟨i, List.getElem?_zip_eq_some.2 ⟨ha, hb⟩⟩)
  · intro h p hp
    obtain ⟨i, hi⟩ := List.mem_iff_getElem?.1 hp
    obtain ⟨ha, hb⟩ := List.getElem?_zip_eq_some.1 hi
    exact h i p.1 p.2 ha hb

theorem strandedWallets_eq_nil_iff {labels : List String} {balances : List (Option UInt64)} :
    strandedWallets labels balances = [] ↔ ∀ i < labels.length, ∀ balance,
      balances[i]? = some balance → balance = none ∨ balance = some 0 := by
  rw [strandedWallets, zip_filterMap_eq_nil_iff]
  constructor
  · intro h i hi balance hbalance
    have hnone := h i labels[i] balance (List.getElem?_eq_getElem hi) hbalance
    cases balance with
    | none => exact .inl rfl
    | some lamports =>
      dsimp only at hnone
      split at hnone
      · rename_i hzero
        exact .inr (congrArg some hzero)
      · cases hnone
  · intro h i label balance hlabel hbalance
    obtain ⟨hi, -⟩ := List.getElem?_eq_some_iff.1 hlabel
    rcases h i hi balance hbalance with rfl | rfl
    · rfl
    · rfl

def SignatureStatus.isGood (s : SignatureStatus) : Bool :=
  s.isConfirmedOrFinalized && s.err.isNone

def ReportedIn (sigs : List String) (statuses : List (Option SignatureStatus)) (sig : String) :
    Prop :=
  ∃ (i : Nat) (s : SignatureStatus), sigs[i]? = some sig ∧ statuses[i]? = some (some s) ∧
    s.isGood = true

theorem pendingSignatures_eq_nil_iff {sigs : List String}
    {statuses : List (Option SignatureStatus)} :
    pendingSignatures sigs statuses = [] ↔ ∀ i < sigs.length, ∀ status,
      statuses[i]? = some status → ∃ s, status = some s ∧ s.isGood = true := by
  rw [pendingSignatures, zip_filterMap_eq_nil_iff]
  constructor
  · intro h i hi status hstatus
    have hnone := h i sigs[i] status (List.getElem?_eq_getElem hi) hstatus
    cases status with
    | none => cases hnone
    | some s =>
      dsimp only at hnone
      split at hnone
      · rename_i hgood
        exact ⟨s, rfl, hgood⟩
      · cases hnone
  · intro h i sig status hsig hstatus
    obtain ⟨hi, -⟩ := List.getElem?_eq_some_iff.1 hsig
    obtain ⟨s, rfl, hgood⟩ := h i hi status hstatus
    exact if_pos hgood

/-- What is left out of a reply with nothing pending is what the reply has no place for. -/
theorem reportedIn_of_take (h : pendingSignatures sigs statuses = [])
    (hsig : sig ∈ sigs.take statuses.length) : ReportedIn sigs statuses sig := by
  obtain ⟨i, hi⟩ := List.mem_iff_getElem?.1 hsig
  rw [List.getElem?_take] at hi
  split at hi
  · rename_i hlt
    obtain ⟨hlen, -⟩ := List.getElem?_eq_some_iff.1 hi
    have hstatus : statuses[i]? = some statuses[i] := List.getElem?_eq_getElem hlt
    obtain ⟨s, hs, hgood⟩ := pendingSignatures_eq_nil_iff.1 h i hlen _ hstatus
    exact ⟨i, s, hi, hs ▸ hstatus, hgood⟩
  · cases hi

theorem mem_take_of_reportedIn (h : ReportedIn sigs statuses sig) :
    sig ∈ sigs.take statuses.length := by
  obtain ⟨i, s, hsig, hstatus, -⟩ := h
  obtain ⟨hlt, -⟩ := List.getElem?_eq_some_iff.1 hstatus
  apply List.mem_iff_getElem?.2
  exact ⟨i, by rw [List.getElem?_take, if_pos hlt, hsig]⟩

section Polling
variable {env : Env} {w w' : World} {check : Run (Option String)}
  {answer : Nat → Except Failure (Option String)}

/-- A check that asks one question, and decides on the reply. -/
def Asks (env : Env) (check : Run (Option String))
    (answer : Nat → Except Failure (Option String)) : Prop :=
  ∀ w : World, check env w = (answer w.tick, { w with tick := w.tick + 1 })

/-- The check of a round leaves something to wait for, and it is not too late for that. -/
def Waits (env : Env) (answer : Nat → Except Failure (Option String)) (t round : Nat) : Prop :=
  (∃ late, answer t = .ok (some late)) ∧ 500 * round + env.lag (t + 1) ≤ 30000

theorem pollRound_eq_ok_iff {round : Nat} {again : Run Unit} (h : Asks env check answer) :
    pollRound check round again env w = (.ok (), w') ↔
      (answer w.tick = .ok none ∧ w' = { w with tick := w.tick + 1 }) ∨
        Waits env answer w.tick round ∧ again env { w with tick := w.tick + 2 } = (.ok (), w') := by
  have hrun := h w
  rw [pollRound]
  cases ha : answer w.tick with
  | error e =>
    rw [ha] at hrun
    rw [bind_run_error hrun]
    constructor
    · intro hok
      cases hok
    · rintro (⟨hok, -⟩ | ⟨⟨⟨late, hok⟩, -⟩, -⟩)
      · cases hok
      · cases ha.symm.trans hok
  | ok late =>
    rw [ha] at hrun
    rw [bind_run_ok hrun]
    cases late with
    | none =>
      constructor
      · intro hok
        exact .inl ⟨rfl, (Prod.mk.inj hok).2.symm⟩
      · rintro (⟨-, rfl⟩ | ⟨⟨⟨late, hok⟩, -⟩, -⟩)
        · rfl
        · cases ha.symm.trans hok
    | some late =>
      dsimp only
      rw [bind_run_ok (ask_run _)]
      split
      · rename_i hlate
        constructor
        · intro hok
          cases hok
        · rintro (⟨hok, -⟩ | ⟨⟨-, htime⟩, -⟩)
          · cases hok
          · exact absurd hlate (Nat.not_lt.2 htime)
      · rename_i htime
        constructor
        · intro hok
          exact .inr ⟨⟨⟨late, ha⟩, Nat.not_lt.1 htime⟩, hok⟩
        · rintro (⟨hok, -⟩ | ⟨-, hok⟩)
          · cases hok
          · exact hok

theorem pollUntil_eq_ok_iff (h : Asks env check answer) (hleft : left ≤ 61) :
    pollUntil check left env w = (.ok (), w') ↔
      ∃ k, (∀ j < k, Waits env answer (w.tick + 2 * j) (61 - left + j)) ∧
        answer (w.tick + 2 * k) = .ok none ∧ w' = { w with tick := w.tick + 2 * k + 1 } := by
  induction left generalizing w with
  | zero =>
    rw [pollUntil, pollRound_eq_ok_iff h]
    constructor
    · rintro (⟨hnone, rfl⟩ | ⟨-, hok⟩)
      · exact ⟨0, fun j hj => absurd hj (Nat.not_lt_zero j), hnone, rfl⟩
      · cases hok
    · rintro ⟨k, hwaits, hnone, rfl⟩
      cases k with
      | zero => exact .inl ⟨hnone, rfl⟩
      | succ k =>
        -- the sixty-first round is too late to wait
        have hlate := (hwaits 0 (Nat.succ_pos k)).2
        omega
  | succ left ih =>
    have hround : 60 - left = 61 - (left + 1) := by omega
    have htick (j : Nat) : w.tick + 2 + 2 * j = w.tick + 2 * (j + 1) := by omega
    have hshift (j : Nat) : 61 - left + j = 61 - (left + 1) + (j + 1) := by omega
    have hrest := ih (w := { w with tick := w.tick + 2 }) (by omega)
    simp only [htick, hshift] at hrest
    rw [pollUntil, pollRound_eq_ok_iff h, hround, hrest]
    constructor
    · rintro (⟨hnone, rfl⟩ | ⟨hwait, k, hwaits, hnone, rfl⟩)
      · exact ⟨0, fun j hj => absurd hj (Nat.not_lt_zero j), hnone, rfl⟩
      · refine ⟨k + 1, ?_, hnone, rfl⟩
        intro j hj
        cases j with
        | zero => exact hwait
        | succ j => exact hwaits j (Nat.lt_of_succ_lt_succ hj)
    · rintro ⟨k, hwaits, hnone, rfl⟩
      cases k with
      | zero => exact .inl ⟨hnone, rfl⟩
      | succ k =>
        refine .inr ⟨hwaits 0 (Nat.succ_pos k), k, ?_, hnone, rfl⟩
        exact fun j hj => hwaits (j + 1) (Nat.succ_lt_succ hj)

end Polling

section Settled
variable {env : Env} {w w' : World} {sigs : List String}

/-- In a round of the waiting loop something is pending, and it is not too late to wait on. -/
def StillPending (env : Env) (t : Nat) (sigs : List String) (r : Nat) : Prop :=
  (∃ statuses, env.signatureStatuses (t + 2 * r) sigs = .ok statuses ∧
    pendingSignatures sigs statuses ≠ []) ∧ 500 * r + env.lag (t + 2 * r + 1) ≤ 30000

/-- The replies, up to the first with nothing pending as far as it goes. -/
structure SettlesAt (env : Env) (t : Nat) (sigs : List String) (r : Nat)
    (statuses : List (Option SignatureStatus)) : Prop where
  before : ∀ r' < r, StillPending env t sigs r'
  reply : env.signatureStatuses (t + 2 * r) sigs = .ok statuses
  nothing : pendingSignatures sigs statuses = []

/-- A round of the loop that began then has seen a good status of the signature. -/
def ReportedAt (env : Env) (t : Nat) (sigs : List String) (r : Nat) (sig : String) : Prop :=
  ∃ statuses, env.signatureStatuses (t + 2 * r) sigs = .ok statuses ∧ ReportedIn sigs statuses sig

def settledAnswer (env : Env) (sigs : List String) (t : Nat) : Except Failure (Option String) :=
  match env.signatureStatuses t sigs with
  | .error chain => .error (.error chain)
  | .ok statuses =>
    let pending := pendingSignatures sigs statuses
    if pending.isEmpty then .ok none
    else .ok (some ("sweep didn't confirm within 30s; pending sigs: " ++
      Text.debugList Text.debug pending))

theorem settledAnswer_eq_ok_iff : settledAnswer env sigs t = .ok late ↔
    ∃ statuses, env.signatureStatuses t sigs = .ok statuses ∧
      late = if (pendingSignatures sigs statuses).isEmpty then none
        else some ("sweep didn't confirm within 30s; pending sigs: " ++
          Text.debugList Text.debug (pendingSignatures sigs statuses)) := by
  rw [settledAnswer]
  cases env.signatureStatuses t sigs with
  | error chain => simp
  | ok statuses =>
    constructor
    · intro h
      exact ⟨statuses, rfl, Except.ok.inj (h.symm.trans (apply_ite Except.ok _ _ _).symm)⟩
    · rintro ⟨statuses', hreply, rfl⟩
      cases hreply
      exact (apply_ite Except.ok _ _ _).symm

theorem settledAnswer_eq_none_iff :
    settledAnswer env sigs t = .ok none ↔
      ∃ statuses, env.signatureStatuses t sigs = .ok statuses ∧
        pendingSignatures sigs statuses = [] := by
  rw [settledAnswer_eq_ok_iff]
  apply exists_congr
  intro statuses
  apply and_congr_right
  intro _
  split
  · rename_i hnone
    exact iff_of_true rfl (List.isEmpty_iff.1 hnone)
  · rename_i hsome
    exact iff_of_false (Option.some_ne_none _).symm fun h => hsome (List.isEmpty_iff.2 h)

theorem settledAnswer_eq_some_iff :
    (∃ late, settledAnswer env sigs t = .ok (some late)) ↔
      ∃ statuses, env.signatureStatuses t sigs = .ok statuses ∧
        pendingSignatures sigs statuses ≠ [] := by
  simp only [settledAnswer_eq_ok_iff]
  constructor
  · rintro ⟨late, statuses, hreply, hlate⟩
    refine ⟨statuses, hreply, ?_⟩
    intro hnone
    rw [hnone] at hlate
    cases hlate
  · rintro ⟨statuses, hreply, hsome⟩
    exact ⟨_, statuses, hreply, (if_neg (mt List.isEmpty_iff.1 hsome)).symm⟩

theorem waits_settledAnswer_iff (t r : Nat) :
    Waits env (settledAnswer env sigs) (t + 2 * r) r ↔ StillPending env t sigs r := by
  rw [Waits, settledAnswer_eq_some_iff, StillPending]

/-- The loop is over with the first reply that has nothing pending as far as it goes. -/
theorem waitForSweepSettled_eq_ok_iff {results : List SweepResult}
    (hsome : results.filterMap SweepResult.signature ≠ []) :
    waitForSweepSettled results env w = (.ok (), w') ↔
      ∃ r statuses, SettlesAt env w.tick (results.filterMap SweepResult.signature) r statuses ∧
        w' = { w with tick := w.tick + 2 * r + 1 } := by
  generalize hsigs : results.filterMap SweepResult.signature = sigs at hsome
  have hempty : ¬sigs.isEmpty = true := fun h => hsome (List.isEmpty_iff.1 h)
  have hasks : Asks env (do
      let statuses ← rpc fun env t => env.signatureStatuses t sigs
      let pending := pendingSignatures sigs statuses
      if pending.isEmpty then pure none
      else pure (some ("sweep didn't confirm within 30s; pending sigs: " ++
        Text.debugList Text.debug pending)))
      (settledAnswer env sigs) := by
    intro w
    rw [settledAnswer]
    cases hreply : env.signatureStatuses w.tick sigs with
    | error chain => rw [bind_run_error (rpc_run_error hreply)]
    | ok statuses =>
      rw [bind_run_ok (rpc_run_ok hreply)]
      dsimp only
      split <;> rfl
  rw [waitForSweepSettled, hsigs, if_neg hempty, pollUntil_eq_ok_iff hasks (Nat.le_refl 61)]
  constructor
  · intro ⟨r, hwaits, hnone, hw⟩
    obtain ⟨statuses, hreply, hnothing⟩ := settledAnswer_eq_none_iff.1 hnone
    refine ⟨r, statuses, ⟨?_, hreply, hnothing⟩, hw⟩
    intro r' hr'
    have hwait := hwaits r' hr'
    rw [Nat.sub_self, Nat.zero_add] at hwait
    exact (waits_settledAnswer_iff w.tick r').1 hwait
  · intro ⟨r, statuses, ⟨hbefore, hreply, hnothing⟩, hw⟩
    refine ⟨r, ?_, settledAnswer_eq_none_iff.2 ⟨statuses, hreply, hnothing⟩, hw⟩
    intro r' hr'
    rw [Nat.sub_self, Nat.zero_add]
    exact (waits_settledAnswer_iff w.tick r').2 (hbefore r' hr')

/-- When the waiting is over, some round has reported each of the signatures. -/
def SettledOneByOne (results : List SweepResult) (env : Env) (w : World) : Prop :=
  ∀ w', waitForSweepSettled results env w = (.ok (), w') →
    ∀ sig ∈ results.filterMap SweepResult.signature, ∃ r, w.tick + 2 * r < w'.tick ∧
      ReportedAt env w.tick (results.filterMap SweepResult.signature) r sig

/-- The first reply with nothing pending leaves out no signature, or none that has not been reported
in a round before. -/
def StatusesConclusive (results : List SweepResult) (env : Env) (w : World) : Prop :=
  ∀ r statuses, SettlesAt env w.tick (results.filterMap SweepResult.signature) r statuses →
    ∀ sig ∈ (results.filterMap SweepResult.signature).drop statuses.length,
      sig ∈ (results.filterMap SweepResult.signature).take statuses.length ∨
        ∃ r' < r, ReportedAt env w.tick (results.filterMap SweepResult.signature) r' sig

theorem settledOneByOne_iff (results : List SweepResult) (env : Env) (w : World) :
    SettledOneByOne results env w ↔ StatusesConclusive results env w := by
  rw [SettledOneByOne, StatusesConclusive]
  by_cases hsome : results.filterMap SweepResult.signature = []
  · rw [hsome]
    constructor
    · intro _ r statuses _ sig hsig
      rw [List.drop_nil] at hsig
      exact absurd hsig List.not_mem_nil
    · intro _ w' _ sig hsig
      exact absurd hsig List.not_mem_nil
  · have hruns (w' : World) : waitForSweepSettled results env w = (.ok (), w') ↔
        ∃ r statuses, SettlesAt env w.tick (results.filterMap SweepResult.signature) r statuses ∧
          w' = { w with tick := w.tick + 2 * r + 1 } := waitForSweepSettled_eq_ok_iff hsome
    generalize results.filterMap SweepResult.signature = sigs at hruns hsome
    constructor
    · intro h r statuses hsettles sig hsig
      obtain ⟨r', hr', statuses', hreply, hreported⟩ :=
        h _ ((hruns _).2 ⟨r, statuses, hsettles, rfl⟩) sig (List.mem_of_mem_drop hsig)
      dsimp only at hr'
      rcases Nat.lt_or_ge r' r with hlt | hge
      · exact .inr ⟨r', hlt, statuses', hreply, hreported⟩
      · obtain rfl : r' = r := by omega
        obtain rfl := Except.ok.inj (hsettles.reply.symm.trans hreply)
        exact .inl (mem_take_of_reportedIn hreported)
    · intro h w' hrun sig hsig
      obtain ⟨r, statuses, hsettles, rfl⟩ := (hruns w').1 hrun
      have hcovered (hmem : sig ∈ sigs.take statuses.length) : ∃ r', w.tick + 2 * r' <
          w.tick + 2 * r + 1 ∧ ReportedAt env w.tick sigs r' sig :=
        ⟨r, by omega, statuses, hsettles.reply, reportedIn_of_take hsettles.nothing hmem⟩
      rw [← List.take_append_drop statuses.length sigs, List.mem_append] at hsig
      rcases hsig with htake | hdrop
      · exact hcovered htake
      · rcases h r statuses hsettles sig hdrop with htake | ⟨r', hr', hreported⟩
        · exact hcovered htake
        · exact ⟨r', by dsimp only; omega, hreported⟩

end Settled

section Verified
variable [Ed25519] {env : Env} {w : World}

def walletBalances (env : Env) (w : World) (funderToRotate : Option SigningKey)
    (childrenToRotate : Option (List SigningKey)) : Reply (List (Option UInt64)) :=
  env.balances w.tick ((walletsToRotate funderToRotate childrenToRotate).map fun (_, kp) =>
    Ed25519.verifyingKey kp)

theorem verifyZeroBeforeRecycle_eq_ok_iff {funderToRotate : Option SigningKey}
    {childrenToRotate : Option (List SigningKey)}
    (hsome : walletsToRotate funderToRotate childrenToRotate ≠ []) :
    (verifyZeroBeforeRecycle funderToRotate childrenToRotate env w).1 = .ok () ↔
      ∃ balances, walletBalances env w funderToRotate childrenToRotate = .ok balances ∧
        ∀ i < (walletsToRotate funderToRotate childrenToRotate).length, ∀ balance,
          balances[i]? = some balance → balance = none ∨ balance = some 0 := by
  rw [verifyZeroBeforeRecycle, walletBalances]
  dsimp only
  rw [if_neg fun h => hsome (List.isEmpty_iff.1 h)]
  generalize walletsToRotate funderToRotate childrenToRotate = wallets
  cases hreply : env.balances w.tick (wallets.map fun (_, kp) => Ed25519.verifyingKey kp) with
  | error chain =>
    rw [bind_run_error (withContext_run_error (rpc_run_error hreply))]
    apply iff_of_false
    · intro h
      cases h
    · intro ⟨_, h, _⟩
      cases h
  | ok balances =>
    have hlabels : (wallets.map Prod.fst).length = wallets.length := List.length_map ..
    rw [bind_run_ok (withContext_run_ok (rpc_run_ok hreply)), ← hlabels]
    split
    · rename_i hempty
      exact iff_of_true rfl
        ⟨balances, rfl, strandedWallets_eq_nil_iff.1 (List.isEmpty_iff.1 hempty)⟩
    · rename_i hstranded
      apply iff_of_false
      · intro h
        cases h
      · intro ⟨_, h, hzero⟩
        cases h
        exact hstranded (List.isEmpty_iff.2 (strandedWallets_eq_nil_iff.2 hzero))

/-- When the gate opens, each of the wallets has been read as empty, at its own place. -/
def VerifiedOneByOne (funderToRotate : Option SigningKey)
    (childrenToRotate : Option (List SigningKey)) (env : Env) (w : World) : Prop :=
  (verifyZeroBeforeRecycle funderToRotate childrenToRotate env w).1 = .ok () →
    ∀ i < (walletsToRotate funderToRotate childrenToRotate).length,
      ∃ balances, walletBalances env w funderToRotate childrenToRotate = .ok balances ∧
        (balances[i]? = some none ∨ balances[i]? = some (some 0))

/-- The reply is as long as the list, or has lamports in it that keep the gate shut. -/
def BalancesConclusive (funderToRotate : Option SigningKey)
    (childrenToRotate : Option (List SigningKey)) (env : Env) (w : World) : Prop :=
  ∀ balances, walletBalances env w funderToRotate childrenToRotate = .ok balances →
    (walletsToRotate funderToRotate childrenToRotate).length ≤ balances.length ∨
      ∃ i < (walletsToRotate funderToRotate childrenToRotate).length, ∃ lamports,
        balances[i]? = some (some lamports) ∧ lamports ≠ 0

theorem verifiedOneByOne_iff (funderToRotate : Option SigningKey)
    (childrenToRotate : Option (List SigningKey)) (env : Env) (w : World) :
    VerifiedOneByOne funderToRotate childrenToRotate env w ↔
      BalancesConclusive funderToRotate childrenToRotate env w := by
  rw [VerifiedOneByOne, BalancesConclusive]
  by_cases hsome : walletsToRotate funderToRotate childrenToRotate = []
  · rw [hsome]
    apply iff_of_true
    · intro _ i hi
      exact absurd hi (Nat.not_lt_zero i)
    · intro balances _
      exact .inl (Nat.zero_le _)
  · rw [verifyZeroBeforeRecycle_eq_ok_iff hsome]
    generalize (walletsToRotate funderToRotate childrenToRotate).length = n
    generalize walletBalances env w funderToRotate childrenToRotate = reply
    constructor
    · intro h balances hreply
      by_cases hzero : ∀ i < n, ∀ balance, balances[i]? = some balance →
          balance = none ∨ balance = some 0
      · left
        apply Nat.not_lt.1
        intro hshort
        obtain ⟨_, hreply', hread⟩ := h ⟨balances, hreply, hzero⟩ balances.length hshort
        obtain rfl := Except.ok.inj (hreply.symm.trans hreply')
        rw [List.getElem?_length] at hread
        rcases hread with hread | hread <;> cases hread
      · right
        simp only [not_forall] at hzero
        obtain ⟨i, hi, balance, hbalance, hfull⟩ := hzero
        cases balance with
        | none => exact absurd (.inl rfl) hfull
        | some lamports =>
          exact ⟨i, hi, lamports, hbalance, fun h => hfull (.inr (congrArg some h))⟩
    · intro h ⟨balances, hreply, hzero⟩ i hi
      refine ⟨balances, hreply, ?_⟩
      rcases h balances hreply with hlong | ⟨j, hj, lamports, hlamports, hfull⟩
      · have hread : balances[i]? = some balances[i] := List.getElem?_eq_getElem (by omega)
        rw [hread, Option.some_inj, Option.some_inj]
        exact hzero i hi _ hread
      · rcases hzero j hj _ hlamports with hnone | hnull
        · cases hnone
        · exact absurd (Option.some.inj hnull) hfull

/-- What the gates let through has been reported one by one, unless a reply is too short. -/
theorem gates_fail_closed_iff :
    (∀ (funderToRotate : Option SigningKey) (childrenToRotate : Option (List SigningKey))
        (env : Env) (w : World),
      VerifiedOneByOne funderToRotate childrenToRotate env w ↔
        BalancesConclusive funderToRotate childrenToRotate env w) ∧
    ∀ (results : List SweepResult) (env : Env) (w : World),
      SettledOneByOne results env w ↔ StatusesConclusive results env w :=
  ⟨verifiedOneByOne_iff, settledOneByOne_iff⟩

end Verified

def sampleReplies (balances : List (Option UInt64)) (statuses : List (Option SignatureStatus)) :
    Env :=
  { Env.calm 0 (Vector.replicate 32 0) with
    balances := fun _ _ => .ok balances
    signatureStatuses := fun _ _ => .ok statuses }

def sampleSwept : List SweepResult := [⟨"funder", .sent 5 "signature"⟩]

theorem gates_fail_closed_iff_sample :
    (∀ i < 1, ∃ balances, @walletBalances .sample (sampleReplies [some 0] []) (.init Tree.empty)
        (some (Vector.replicate 32 2)) none = .ok balances ∧
      (balances[i]? = some none ∨ balances[i]? = some (some 0))) ∧
    ∀ sig ∈ ["signature"], ∃ r, 0 + 2 * r < 1 ∧
      ReportedAt (sampleReplies [] [some ⟨some "confirmed", none⟩]) 0 ["signature"] r sig := by
  constructor
  · apply ((@gates_fail_closed_iff .sample).1 (some (Vector.replicate 32 2)) none
      (sampleReplies [some 0] []) (.init Tree.empty)).2
    · intro balances hreply
      obtain rfl := Except.ok.inj hreply
      exact .inl (by decide)
    · rfl
  · apply ((@gates_fail_closed_iff .sample).2 sampleSwept
      (sampleReplies [] [some ⟨some "confirmed", none⟩]) (.init Tree.empty)).2 ?_ ⟨1, _, _⟩ rfl
    intro r statuses hsettles sig hsig
    obtain rfl := Except.ok.inj hsettles.reply
    exact absurd hsig List.not_mem_nil

/-- A reply without an entry opens both gates. -/
theorem gates_open_on_empty_replies :
    (¬∀ (funderToRotate : Option SigningKey) (childrenToRotate : Option (List SigningKey))
        (env : Env) (w : World),
      @VerifiedOneByOne .sample funderToRotate childrenToRotate env w) ∧
    ¬∀ (results : List SweepResult) (env : Env) (w : World), SettledOneByOne results env w := by
  constructor
  · intro hall
    obtain ⟨balances, hreply, hread⟩ := hall (some (Vector.replicate 32 2)) none
      (sampleReplies [] []) (.init Tree.empty) rfl 0 (by decide)
    obtain rfl := Except.ok.inj hreply
    rcases hread with hread | hread <;> cases hread
  · intro hall
    obtain ⟨r, -, statuses, hreply, i, s, -, hstatus, -⟩ := hall sampleSwept (sampleReplies [] [])
      (.init Tree.empty) _ rfl "signature" List.mem_cons_self
    obtain rfl := Except.ok.inj hreply
    cases hstatus

end TokenPumper
