import TokenPumper.Lib.Fallible
import TokenPumper.Keys.Wallets

namespace TokenPumper
open LittleEndian Effect FileTree Batch
set_option autoImplicit true

/-- Logging an event of a kind does not spoil the condition. -/
def Cond.Logs (D : Cond) (kind : Event → Prop) : Prop :=
  ∀ ⦃disk log⦄ (e : Event), kind e → D disk log → D disk (log ++ [e])

theorem Cond.Logs.and {D D' : Cond} (h : D.Logs kind) (h' : D'.Logs kind) :
    Logs (fun disk log => D disk log ∧ D' disk log) kind :=
  fun _ _ e he hw => ⟨h e he hw.1, h' e he hw.2⟩

def Event.isToday : Event → Prop
  | .today day => ∃ n, formatYmd n = some day
  | _ => False

def Event.isVerified : Event → Prop
  | .verifiedEmpty _ _ => True
  | _ => False

def Event.isSent (purpose : Purpose) : Event → Prop
  | .sent p _ _ _ => p = purpose
  | _ => False

def Event.day? : Event → Option String
  | .today day => some day
  | _ => none

def lastDay (log : List Event) : Option String := (log.filterMap Event.day?).getLast?

@[simp] theorem lastDay_today (log : List Event) (day : String) :
    lastDay (log ++ [.today day]) = some day := by
  simp [lastDay, Event.day?]

theorem lastDay_append (h : ∀ e ∈ more, e.day? = none) (log : List Event) :
    lastDay (log ++ more) = lastDay log := by
  rw [lastDay, List.filterMap_append, List.filterMap_eq_nil_iff.2 h, List.append_nil, lastDay]

theorem lastDay_of_day? (h : e.day? = none) (log : List Event) :
    lastDay (log ++ [e]) = lastDay log :=
  lastDay_append (List.forall_mem_singleton.2 h) log

theorem mem_of_lastDay (h : lastDay log = some day) : .today day ∈ log := by
  obtain ⟨e, he, hday⟩ := List.mem_filterMap.1 (List.mem_of_getLast? h)
  cases e with
  | today day' =>
    obtain rfl := Option.some.inj hday
    exact he
  | removed path bytes => cases hday
  | verifiedEmpty wallets balances => cases hday
  | sent purpose recipients tx disk => cases hday

theorem day?_of_isSent {e : Event} (h : e.isSent purpose) : e.day? = none := by
  cases e with
  | today day => cases h
  | removed path bytes => rfl
  | verifiedEmpty wallets balances => rfl
  | sent purpose' recipients tx disk => rfl

theorem day?_of_isVerified {e : Event} (h : e.isVerified) : e.day? = none := by
  cases e with
  | today day => cases h
  | removed path bytes => rfl
  | verifiedEmpty wallets balances => rfl
  | sent purpose recipients tx disk => rfl

def Cond.onDay (D : Cond) (day : String) : Cond := fun disk log =>
  D disk log ∧ lastDay log = some day

variable {env : Env} {D D' : Cond} {E : World → Prop} {cfg : Config} {keysDir : Path}

theorem Cond.AddStable.onDay (h : D.AddStable) (day : String) : (D.onDay day).AddStable :=
  fun _ _ name parent node hd hnew hw => ⟨h name parent node hd hnew hw.1, hw.2⟩

theorem Cond.Removes.onDay (h : (D.onDay day).Removes D path) :
    (D.onDay day).Removes (D.onDay day) path :=
  fun _ log _ hf hw => ⟨h hf hw, (lastDay_of_day? rfl log).trans hw.2⟩

/-- What has been logged after the first events is of a kind. -/
def Since (base : List Event) (kind : Event → Prop) : Cond := fun _ log =>
  ∃ more, log = base ++ more ∧ ∀ e ∈ more, kind e

theorem since_self (base : List Event) (kind : Event → Prop) (disk : Tree) :
    Since base kind disk base :=
  ⟨[], (List.append_nil base).symm, fun _ he => absurd he List.not_mem_nil⟩

theorem Since.concat (h : Since base kind disk log) (he : kind e) :
    Since base kind disk' (log ++ [e]) := by
  obtain ⟨more, rfl, hmore⟩ := h
  refine ⟨more ++ [e], List.append_assoc .., ?_⟩
  rw [List.forall_mem_append]
  exact ⟨hmore, List.forall_mem_singleton.2 he⟩

theorem since_logs (h : ∀ e, kind' e → kind e) : (Since base kind).Logs kind' :=
  fun _ _ e he hw => hw.concat (h e he)

theorem since_addStable : (Since base kind).AddStable := fun _ _ _ _ _ _ _ h => h

/-- What the key directories go through does not spoil the condition: nodes are added, the day is
read, and `*.json` files of the directory of that day are removed. -/
structure Cond.Survives (D : Cond) (keysDir : Path) : Prop where
  add : D.AddStable
  today : D.Logs Event.isToday
  clear : ∀ day name, isJson name → (D.onDay day).Removes D (name :: day :: keysDir)

theorem since_survives (htoday : ∀ e, e.isToday → kind e)
    (hremoved : ∀ path bytes, kind (.removed path bytes)) (keysDir : Path) :
    (Since base kind).Survives keysDir where
  add := since_addStable
  today := since_logs htoday
  clear _ _ _ _ _ bytes _ hw := hw.1.concat (hremoved _ bytes)

theorem Cond.Survives.and (h : D.Survives keysDir) (h' : D'.Survives keysDir) :
    Survives (fun disk log => D disk log ∧ D' disk log) keysDir where
  add := h.add.and h'.add
  today _ _ e he hw := ⟨h.today e he hw.1, h'.today e he hw.2⟩
  clear day name hjson _ _ _ hf hw :=
    ⟨h.clear day name hjson hf ⟨hw.1.1, hw.2⟩, h'.clear day name hjson hf ⟨hw.1.2, hw.2⟩⟩

theorem keeps_rpc {question : Env → Nat → Reply α} : Keeps env (on D) (rpc question) :=
  triple_rpc fun _ h => h

theorem keeps_bail : Keeps env (on D) (bail message : Run α) := Keeps.fail

theorem keeps_orPanic {o : Option α} : Keeps env (on D) (orPanic o) := by
  cases o with
  | none => exact Keeps.fail
  | some a => exact Keeps.pure

theorem keeps_withContext {x : Run α} (h : Keeps env I x) : Keeps env I (withContext message x) :=
  Keeps.mapFailure h

theorem keeps_jitter (base : UInt64) : Keeps env (on D) (jitter base) := by
  rw [jitter]
  split
  · exact Keeps.pure
  · exact Keeps.bind keeps_ask fun _ => Keeps.bind keeps_orPanic fun _ => Keeps.pure

/-- Each assignment is one of the accounts, which count from one. -/
def FromAccounts (accounts : List AccountFunding) (slots : List (Option WalletAssignment)) : Prop :=
  ∀ a, some a ∈ slots → ∃ account ∈ accounts, account.index = a.index + 1

/-- What every assignment of an account to its free slot keeps, with the accounts still to come. -/
theorem triple_fill (I : List AccountFunding → List (Option WalletAssignment) → Prop)
    (hset : ∀ a rest slots amount cu, 1 ≤ a.index → a.index ≤ batchSize →
      (slots[a.index - 1]?).join = none → I (a :: rest) slots →
      I rest (slots.set (a.index - 1) (some ⟨a.index - 1, amount, cu⟩)))
    (hslots : I accounts slots) :
    Triple env (on D) (Assigner.fill batchSize accounts slots) (fun slots w => on D w ∧ I [] slots)
      (on D) := by
  induction accounts generalizing slots with
  | nil => exact Triple.pure fun w hw => ⟨hw, hslots⟩
  | cons a accounts ih =>
    rw [Assigner.fill]
    split
    · exact Triple.fail fun w hw => hw
    · rename_i hrange
      dsimp only
      split
      · exact Triple.fail fun w hw => hw
      · rename_i hfree
        refine Triple.bind (keeps_jitter _) fun amount => Triple.bind (keeps_jitter _) fun cu => ?_
        have hlow : 1 ≤ a.index := by omega
        have hhigh : a.index ≤ batchSize := by omega
        have hnone : (slots[a.index - 1]?).join = none := Option.not_isSome_iff_eq_none.1 hfree
        exact ih (hset a accounts slots amount cu hlow hhigh hnone hslots)

theorem triple_build (accounts : List AccountFunding) (batchSize : Nat) :
    Triple env (on D) (Assigner.build accounts batchSize)
      (fun assigner w => on D w ∧ FromAccounts accounts assigner.slots) (on D) := by
  let I (rest : List AccountFunding) (slots : List (Option WalletAssignment)) : Prop :=
    (∀ a ∈ rest, a ∈ accounts) ∧ FromAccounts accounts slots
  have hset (a : AccountFunding) (rest : List AccountFunding)
      (slots : List (Option WalletAssignment)) (amount cu : UInt64) (hindex : 1 ≤ a.index)
      (_ : a.index ≤ batchSize) (_ : (slots[a.index - 1]?).join = none) (h : I (a :: rest) slots) :
      I rest (slots.set (a.index - 1) (some ⟨a.index - 1, amount, cu⟩)) := by
    obtain ⟨hmem, hfrom⟩ := h
    refine ⟨fun b hb => hmem b (List.mem_cons_of_mem a hb), ?_⟩
    intro b hb
    rcases List.mem_or_eq_of_mem_set hb with hold | hnew
    · exact hfrom b hold
    · obtain rfl := Option.some.inj hnew
      exact ⟨a, hmem a List.mem_cons_self, by dsimp only; omega⟩
  have hnone : I accounts (List.replicate batchSize none) := by
    refine ⟨fun a ha => ha, ?_⟩
    intro a ha
    cases (List.mem_replicate.1 ha).2
  apply Triple.bind (triple_fill I hset hnone)
  intro slots
  exact Triple.pure fun w hw => ⟨hw.1, hw.2.2⟩

theorem keeps_pollUntil {check : Run (Option String)} (h : Keeps env (on D) check) (left : Nat) :
    Keeps env (on D) (pollUntil check left) := by
  have hround (round : Nat) {again : Run Unit} (hagain : Keeps env (on D) again) :
      Keeps env (on D) (pollRound check round again) := by
    apply Keeps.bind h
    intro late
    cases late with
    | none => exact Keeps.pure
    | some late =>
      apply Keeps.bind keeps_ask
      intro lag
      split
      · exact keeps_bail
      · exact hagain
  induction left with
  | zero => exact hround 61 Keeps.fail
  | succ left ih => exact hround (60 - left) ih

theorem keeps_waitForSweepSettled (results : List SweepResult) :
    Keeps env (on D) (waitForSweepSettled results) := by
  rw [waitForSweepSettled]
  dsimp only
  split
  · exact Keeps.pure
  · refine keeps_pollUntil (Keeps.bind keeps_rpc fun statuses => ?_) 61
    split <;> exact Keeps.pure

theorem triple_todayDir (hday : D.Logs Event.isToday) (hE : ∀ w, on D w → E w) :
    Triple env (on D) (todayDir keysDir)
      (fun dir w => ∃ day, dir = day :: keysDir ∧ on (D.onDay day) w) E := by
  refine Triple.bind (triple_today hE) fun day => Triple.pure ?_
  rintro w ⟨hdate, before, hlog, hw⟩
  refine ⟨day, rfl, ?_⟩
  rw [on, hlog]
  exact ⟨hday _ hdate hw, lastDay_today before day⟩

theorem triple_sendTransaction
    (h : ∀ disk log, D disk log → D' disk (log ++ [.sent purpose recipients tx disk])) :
    Triple env (on D) (sendTransaction purpose recipients tx) (fun _ => on D') E := by
  apply Triple.bind_current
  intro w hw
  refine Triple.bind (Q := fun _ => on D') ?_ fun _ => triple_ask
  rintro s rfl
  exact h s.disk s.log hw

theorem mem_of_mem_childSenders (h : childSenders children balances = some senders)
    (hs : s ∈ senders) : s.key ∈ children := by
  obtain ⟨⟨kp, i⟩, hkp, hsome⟩ := Fallible.mem_of_mapM h hs
  obtain ⟨balance, -, rfl⟩ := Option.map_eq_some_iff.1 hsome
  exact List.mem_of_getElem? (List.mk_mem_zipIdx_iff_getElem?.1 hkp)

theorem triple_loadedSenders (r : Resolved) (childBalances : List UInt64) :
    Triple env (on D) (loadedSenders r childBalances)
      (fun senders w => on D w ∧ ∀ s ∈ senders, s.key ∈ r.children) (on D) := by
  rw [loadedSenders]
  split
  · refine (triple_orPanic fun _ hw => hw).conseq (fun _ hw => hw) ?_ fun _ hw => hw
    rintro senders w ⟨hw, hsenders⟩
    exact ⟨hw, fun s => mem_of_mem_childSenders hsenders⟩
  · exact Triple.pure fun w hw => ⟨hw, fun s hs => absurd hs List.not_mem_nil⟩

theorem keeps_checkAssignments (children : List SigningKey) (assignments : List WalletAssignment) :
    Keeps env (on D) (checkAssignments children assignments) := by
  induction assignments with
  | nil => exact Keeps.pure
  | cons a rest ih =>
    rw [checkAssignments]
    split
    · exact keeps_bail
    · split
      · exact keeps_bail
      · exact ih

variable [Ed25519]

theorem keeps_sweepChunks_of {eater : SigningKey} {parts : List (List Sender)}
    (h : ∀ chunk ∈ parts, ∀ disk log tx, Transaction.buildConsolidatedSweep eater
        (chunk.map Sender.key) (chunk.map Sender.balance) blockhash = some tx → D disk log →
      D disk (log ++ [.sent .sweep
        (chunk.map fun s => (Ed25519.verifyingKey eater, s.balance)) tx disk]))
    (runningEater : UInt64) :
    Keeps env (on D) (sweepChunks eater blockhash runningEater parts) := by
  induction parts generalizing runningEater with
  | nil => exact Keeps.pure
  | cons chunk rest ih =>
    obtain ⟨hchunk, hrest⟩ := List.forall_mem_cons.1 h
    rw [sweepChunks]
    split
    · exact Keeps.bind (ih hrest _) fun _ => Keeps.pure
    · apply Triple.bind (triple_orPanic fun _ hw => hw)
      intro tx
      apply Triple.assume (P := on D)
      intro htx
      apply Keeps.bind (triple_sendTransaction fun disk log => hchunk disk log tx htx)
      intro reply
      cases reply with
      | ok sig => exact Keeps.bind (ih hrest _) fun _ => Keeps.pure
      | error chain => exact Keeps.bind (ih hrest _) fun _ => Keeps.pure

theorem mem_of_mem_sortSenders (h : s ∈ (sortSenders eaterPk senders).2) : s ∈ senders := by
  induction senders with
  | nil => exact absurd h List.not_mem_nil
  | cons first senders ih =>
    rw [sortSenders] at h
    dsimp only at h
    split at h
    · exact List.mem_cons_of_mem first (ih h)
    · split at h
      · exact List.mem_cons_of_mem first (ih h)
      · rcases List.mem_cons.1 h with rfl | hrest
        · exact List.mem_cons_self
        · exact List.mem_cons_of_mem first (ih hrest)

/-- Without debug the sweep sends only transactions of at most nine of its senders each. -/
theorem keeps_toEater_of {senders : List Sender} {eater : SigningKey}
    (h : debug = true ∨ ∀ (chunk : List Sender) blockhash, (∀ s ∈ chunk, s ∈ senders) →
      chunk.length ≤ Transaction.maxChildrenPerSweepTx → ∀ disk log tx,
      Transaction.buildConsolidatedSweep eater (chunk.map Sender.key) (chunk.map Sender.balance)
        blockhash = some tx → D disk log →
      D disk (log ++ [.sent .sweep
        (chunk.map fun s => (Ed25519.verifyingKey eater, s.balance)) tx disk]))
    (eaterBalance : UInt64) :
    Keeps env (on D) (Sweep.toEater senders eater eaterBalance debug) := by
  rw [Sweep.toEater]
  dsimp only
  split
  · exact Keeps.pure
  · split
    · exact Keeps.pure
    · rename_i hdebug
      apply Keeps.bind keeps_rpc
      intro blockhash
      refine Keeps.bind (keeps_sweepChunks_of (fun chunk hchunk => ?_) _) fun _ => Keeps.pure
      apply h.resolve_left hdebug chunk blockhash
      · exact fun s hs => mem_of_mem_sortSenders (mem_of_mem_inChunks hchunk hs)
      · exact length_le_of_mem_inChunks hchunk

theorem keeps_audit (r : Resolved) : Keeps env (on D) (audit r) :=
  Keeps.bind keeps_rpc fun _ => Keeps.bind keeps_orPanic fun _ => Keeps.bind keeps_orPanic fun _ =>
    Keeps.bind keeps_orPanic fun _ => Keeps.pure

theorem keeps_sweepWallets_of {r : Resolved}
    (h : cfg.debug = true ∨ ∀ (chunk : List Sender) blockhash,
      (∀ s ∈ chunk, s.key = r.funder ∨ s.key ∈ r.children) →
      chunk.length ≤ Transaction.maxChildrenPerSweepTx → ∀ disk log tx,
      Transaction.buildConsolidatedSweep r.eater (chunk.map Sender.key) (chunk.map Sender.balance)
        blockhash = some tx → D disk log →
      D disk (log ++ [.sent .sweep
        (chunk.map fun s => (Ed25519.verifyingKey r.eater, s.balance)) tx disk])) :
    Keeps env (on D) (sweepWallets cfg r) := by
  apply Keeps.bind (keeps_audit r)
  intro balances
  apply Triple.bind (triple_loadedSenders r balances.2.2)
  intro children
  apply Triple.assume (P := on D)
  intro hchildren
  dsimp only
  split
  · have hsent := h.imp_right fun h chunk blockhash
      (hchunk : ∀ s ∈ chunk, s ∈ ⟨"funder", r.funder, balances.1⟩ :: children) =>
        h chunk blockhash fun s hs => by
          rcases List.mem_cons.1 (hchunk s hs) with rfl | hchild
          · exact .inl rfl
          · exact .inr (hchildren s hchild)
    apply Keeps.bind (keeps_toEater_of hsent _)
    intro results
    split
    · exact Keeps.pure
    · exact keeps_waitForSweepSettled results
  · exact Keeps.pure

theorem keeps_sweepWallets (h : cfg.debug = true ∨ D.Logs (Event.isSent .sweep)) (r : Resolved) :
    Keeps env (on D) (sweepWallets cfg r) :=
  keeps_sweepWallets_of (h.imp_right fun h _ _ _ _ _ _ _ _ hw => h _ rfl hw)

/-- A verification had the wallet in it and found nothing stranded. -/
def PassedGate (kp : SigningKey) (log : List Event) : Prop :=
  ∃ toCheck : List (String × SigningKey), kp ∈ toCheck.map Prod.snd ∧ ∃ balances,
    .verifiedEmpty (toCheck.map Prod.snd) balances ∈ log ∧
      strandedWallets (toCheck.map Prod.fst) balances = []

theorem triple_verifyZeroBeforeRecycle (h : D.Logs Event.isVerified)
    (funderToRotate : Option SigningKey) (childrenToRotate : Option (List SigningKey)) :
    Triple env (on D) (verifyZeroBeforeRecycle funderToRotate childrenToRotate)
      (fun _ => on fun disk log => D disk log ∧
        ∀ kp ∈ (walletsToRotate funderToRotate childrenToRotate).map Prod.snd, PassedGate kp log)
      (on D) := by
  rw [verifyZeroBeforeRecycle]
  dsimp only
  split
  · rename_i hnone
    rw [List.isEmpty_iff.1 hnone]
    exact Triple.pure fun w hw => ⟨hw, fun kp hkp => absurd hkp List.not_mem_nil⟩
  · apply Triple.bind (keeps_withContext keeps_rpc)
    intro balances
    split
    · rename_i hempty
      refine triple_record fun disk log hw => ⟨h _ trivial hw, fun kp hkp => ?_⟩
      exact ⟨_, hkp, balances, List.mem_append_right _ List.mem_cons_self,
        List.isEmpty_iff.1 hempty⟩
    · exact Triple.fail fun w hw => hw

theorem triple_gate (h : cfg.debug = true ∨ D.Logs Event.isVerified) (r : Resolved) :
    Triple env (on D) (gate cfg r)
      (fun _ => on fun disk log => D disk log ∧ (cfg.debug = false →
        (r.funderOrigin = .loaded → PassedGate r.funder log) ∧
        (r.batchOrigin = .loaded → ∀ kp ∈ r.children, PassedGate kp log))) (on D) := by
  rw [gate]
  split
  · rename_i hdebug
    exact Triple.pure fun w hw => ⟨hw, fun hnot => absurd (hdebug.symm.trans hnot) nofun⟩
  · rename_i hdebug
    refine (triple_verifyZeroBeforeRecycle (h.resolve_left hdebug) _ _).conseq (fun _ hw => hw) ?_
      fun _ hw => hw
    rintro _ w ⟨hw, hpassed⟩
    refine ⟨hw, fun _ => ⟨fun hloaded => hpassed _ ?_, fun hloaded kp hkp => hpassed kp ?_⟩⟩
    · rw [if_pos hloaded]
      simp [walletsToRotate]
    · rw [if_pos hloaded]
      obtain ⟨i, hi⟩ := List.mem_iff_getElem?.1 hkp
      have hchild : (kp, i) ∈ r.children.zipIdx := List.mem_zipIdx_iff_getElem?.2 hi
      exact List.mem_map.2 ⟨_, List.mem_append_right _ (List.mem_map_of_mem hchild), rfl⟩

theorem keeps_eaterToFunder_of (h : debug = true ∨ ∀ disk log blockhash, D disk log →
      D disk (log ++ [.sent .refill [(Ed25519.verifyingKey funder, amount)]
        (Transaction.buildDistribute eater [(Ed25519.verifyingKey funder, amount)] blockhash)
        disk])) :
    Keeps env (on D) (Refill.eaterToFunder eater funder amount debug) := by
  rw [Refill.eaterToFunder]
  dsimp only
  split
  · exact Keeps.pure
  · rename_i hdebug
    refine Keeps.bind keeps_rpc fun pre => Keeps.bind keeps_rpc fun blockhash => ?_
    refine Keeps.bind (triple_sendTransaction fun disk log =>
      h.resolve_left hdebug disk log blockhash) fun reply => ?_
    refine Keeps.bind Keeps.lift fun _ => keeps_pollUntil (Keeps.bind keeps_rpc fun now => ?_) 61
    split <;> exact Keeps.pure

theorem keeps_eaterToFunder (h : debug = true ∨ ∀ disk log tx, D disk log →
      D disk (log ++ [.sent .refill [(Ed25519.verifyingKey funder, amount)] tx disk])) :
    Keeps env (on D) (Refill.eaterToFunder eater funder amount debug) :=
  keeps_eaterToFunder_of (h.imp_right fun h disk log _ => h disk log _)

theorem keeps_funderToChildren_of (h : debug = true ∨ ∀ recipients,
      recipientsOf children assigner.iter = some recipients → ∀ disk log blockhash, D disk log →
      D disk (log ++ [.sent .distribute recipients
        (Transaction.buildDistribute funder recipients blockhash) disk])) :
    Keeps env (on D) (Distribute.funderToChildren funder children assigner debug) := by
  rw [Distribute.funderToChildren]
  split
  · exact Keeps.pure
  · apply Keeps.bind (keeps_checkAssignments _ _)
    intro _
    apply Triple.bind (triple_orPanic fun _ hw => hw)
    intro recipients
    apply Triple.assume (P := on D)
    intro hrecipients
    split
    · exact Keeps.pure
    · rename_i hdebug
      apply Keeps.bind keeps_rpc
      intro blockhash
      refine Keeps.bind (triple_sendTransaction fun disk log =>
        h.resolve_left hdebug recipients hrecipients disk log blockhash) fun reply => ?_
      exact Keeps.bind Keeps.lift fun _ => Keeps.pure

theorem keeps_funderToChildren (h : debug = true ∨ ∀ recipients,
      recipientsOf children assigner.iter = some recipients → ∀ disk log tx, D disk log →
      D disk (log ++ [.sent .distribute recipients tx disk])) :
    Keeps env (on D) (Distribute.funderToChildren funder children assigner debug) :=
  keeps_funderToChildren_of (h.imp_right fun h recipients hrecipients disk log _ =>
    h recipients hrecipients disk log _)

/-- The batch is in the directory of the day that has been read last. -/
def BatchStored (keysDir : Path) (kps : List SigningKey) : Cond := fun disk log =>
  ∃ day, lastDay log = some day ∧ (disk.lookup (day :: keysDir)).isSome ∧
    HoldKeys (day :: keysDir) kps disk

theorem triple_createDay (count : Nat) (hD : D.Survives keysDir) (hE : ∀ w, on D w → E w) :
    Triple env (on (D.onDay day)) (createFresh (day :: keysDir) count)
      (fun kps => on fun disk log => D disk log ∧ kps.length = count ∧
        BatchStored keysDir kps disk log) E := by
  have hfail : ∀ w, on (D.onDay day) w → E w := fun w hw => hE w hw.1
  refine (triple_createFresh count (hD.add.onDay day).dirStable (fun name hjson =>
    (hD.clear day name hjson).onDay) (fun _ _ hw => hw) (hD.add.onDay day) hfail hfail).conseq
    (fun _ hw => hw) ?_ fun _ hw => hw
  rintro kps w ⟨⟨⟨hw, hlast⟩, hdir⟩, hlen, hkeys⟩
  have hthere : (w.disk.lookup (day :: keysDir)).isSome := by
    rcases hdir with hnil | hnode
    · cases hnil
    · rw [hnode]
      rfl
  exact ⟨hw, hlen, day, hlast, hthere, hkeys⟩

theorem triple_resolveToday (count : Nat) (hD : D.Survives keysDir) (hE : ∀ w, on D w → E w) :
    Triple env (on D) (resolveToday keysDir count)
      (fun r => on fun disk log => D disk log ∧ r.1.length = count ∧
        BatchStored keysDir r.1 disk log) E := by
  apply Triple.bind (triple_todayDir hD.today hE)
  intro dir
  rintro w ⟨day, rfl, hw⟩
  have hfail : ∀ w, on (D.onDay day) w → E w := fun w hw => hE w hw.1
  refine Triple.bind (P := on (D.onDay day)) (triple_isComplete count) (fun all => ?_) w hw
  split
  · rename_i hall
    let there : Cond := fun disk _ => (disk.lookup (day :: keysDir)).isSome
    have hthere : there.AddStable := by
      intro disk log name parent node hd hnew h
      obtain ⟨old, hold⟩ := Option.isSome_iff_exists.1 h
      exact Option.isSome_iff_exists.2 ⟨old, Tree.lookup_add_of_some hd hnew hold⟩
    refine Triple.bind ((triple_load count ((hD.add.onDay day).and hthere) fun w hw =>
      hfail w hw.1).conseq (fun w hw => ⟨hw.1, (hw.2 hall).1⟩) (fun _ _ hw => hw) fun _ hw => hw)
      fun kps => Triple.pure ?_
    rintro w ⟨⟨⟨hw, hlast⟩, hdir⟩, hlen, hkeys⟩
    exact ⟨hw, hlen, day, hlast, hdir, hkeys⟩
  · exact Triple.bind ((triple_createDay count hD hE).conseq (fun w hw => hw.1)
      (fun _ _ hw => hw) fun _ hw => hw) fun kps => Triple.pure fun w hw => hw

theorem triple_regenerateToday (count : Nat) (hD : D.Survives keysDir) (hE : ∀ w, on D w → E w) :
    Triple env (on D) (regenerateToday keysDir count)
      (fun kps => on fun disk log => D disk log ∧ kps.length = count ∧
        BatchStored keysDir kps disk log) E := by
  apply Triple.bind (triple_todayDir hD.today hE)
  intro dir
  rintro w ⟨day, rfl, hw⟩
  exact triple_createDay count hD hE w hw

/-- The file is not a `*.json` file of that day's directory. -/
def ApartFrom (keysDir path : Path) (day : String) : Prop :=
  ∀ name, isJson name → path ≠ name :: day :: keysDir

/-- The file holds the key, if it is in no directory of a day that has been read. -/
def KeyStored (keysDir path : Path) (kp : SigningKey) : Cond := fun disk log =>
  (∀ day, .today day ∈ log → ApartFrom keysDir path day) → keyAt disk path = some kp

theorem keyStored_survives (keysDir path : Path) (kp : SigningKey) :
    (KeyStored keysDir path kp).Survives keysDir where
  add _ log name parent node hd hnew hw hapart :=
    keyAt_add hd hnew (hw hapart)
  today _ _ _ _ hw hapart := hw fun day hday => hapart day (List.mem_append_left _ hday)
  clear day name hjson _ log _ hf hw hapart := by
    have hbefore (day : String) (hday : .today day ∈ log) : ApartFrom keysDir path day :=
      hapart day (List.mem_append_left _ hday)
    have hne := hbefore day (mem_of_lastDay hw.2) name hjson
    exact keyAt_removeFile hf hne (hw.1 hbefore)

/-- The keys as they have been resolved are on the disk. -/
def Stored (cfg : Config) (r : Resolved) : Cond := fun disk log =>
  KeyStored cfg.keysDir cfg.eaterPath r.eater disk log ∧
    KeyStored cfg.keysDir cfg.funderPath r.funder disk log ∧
    KeyStored cfg.keysDir cfg.devPath r.dev disk log ∧
    r.children.length = cfg.batchSize ∧ BatchStored cfg.keysDir r.children disk log

theorem triple_resolveSingleton (hD : D.Survives keysDir) (hE : ∀ w, on D w → E w) :
    Triple env (on D) (Singleton.ensure path)
      (fun r => on fun disk log => D disk log ∧ KeyStored keysDir path r.1 disk log) E :=
  (triple_ensure hD.add hE).conseq (fun _ hw => hw) (fun _ _ hw => ⟨hw.1, fun _ => hw.2⟩)
    fun _ hw => hw

theorem triple_resolveKeys (hD : D.Survives cfg.keysDir) (hE : ∀ w, on D w → E w) :
    Triple env (on D) (resolveKeys cfg)
      (fun r => on fun disk log => D disk log ∧ Stored cfg r disk log) E := by
  have hkey (path : Path) (kp : SigningKey) := keyStored_survives cfg.keysDir path kp
  refine Triple.bind (Q := fun eater => on fun disk log =>
    D disk log ∧ KeyStored cfg.keysDir cfg.eaterPath eater disk log) ?_ fun eater => ?_
  · exact Triple.bind (triple_resolveSingleton hD hE) fun r => Triple.pure fun w hw => hw
  refine Triple.bind (triple_resolveSingleton (hD.and (hkey _ eater)) fun w hw => hE w hw.1)
    fun funder => ?_
  refine Triple.bind (triple_resolveSingleton ((hD.and (hkey _ eater)).and (hkey _ funder.1))
    fun w hw => hE w hw.1.1) fun dev => ?_
  refine Triple.bind (triple_resolveToday cfg.batchSize
    (((hD.and (hkey _ eater)).and (hkey _ funder.1)).and (hkey _ dev.1))
    fun w hw => hE w hw.1.1.1) fun batch => Triple.pure ?_
  rintro w ⟨⟨⟨⟨hw, heater⟩, hfunder⟩, hdev⟩, hlen, hbatch⟩
  exact ⟨hw, heater, hfunder, hdev, hlen, hbatch⟩

theorem stored_logs (hkind : ∀ e, kind e → e.day? = none) (r : Resolved) :
    (Stored cfg r).Logs kind := by
  have hkey (path : Path) (kp : SigningKey) : (KeyStored cfg.keysDir path kp).Logs kind :=
    fun _ _ _ _ hw hapart => hw fun day hday => hapart day (List.mem_append_left _ hday)
  rintro disk log e he ⟨heater, hfunder, hdev, hlen, day, hlast, hbatch⟩
  refine ⟨hkey _ _ e he heater, hkey _ _ e he hfunder, hkey _ _ e he hdev, hlen, day, ?_, hbatch⟩
  exact (lastDay_of_day? (hkind e he) log).trans hlast

/-- Everything up to the recycling: the keys are on the disk, the assignments are accounts, and
what is to be rotated has been verified. -/
theorem triple_settle (cfg : Config) (env : Env) (hD : D.Survives cfg.keysDir)
    (hsweep : cfg.debug = true ∨ D.Logs (Event.isSent .sweep))
    (hverified : cfg.debug = true ∨ D.Logs Event.isVerified) :
    Triple env (on D) (settle cfg)
      (fun r => on fun disk log => (D disk log ∧ Stored cfg r.1 disk log) ∧
        FromAccounts cfg.accounts r.2.slots ∧ (cfg.debug = false →
          (r.1.funderOrigin = .loaded → PassedGate r.1.funder log) ∧
          (r.1.batchOrigin = .loaded → ∀ kp ∈ r.1.children, PassedGate kp log))) (on D) := by
  apply Triple.bind (triple_resolveKeys hD fun _ hw => hw)
  intro r
  let known : Cond := fun disk log => D disk log ∧ Stored cfg r disk log
  have hfail : ∀ w, on known w → on D w := fun w hw => hw.1
  have hsweep' : cfg.debug = true ∨ known.Logs (Event.isSent .sweep) :=
    hsweep.imp_right fun h => h.and (stored_logs (fun e => day?_of_isSent) r)
  have hverified' : cfg.debug = true ∨ known.Logs Event.isVerified :=
    hverified.imp_right fun h => h.and (stored_logs (fun e => day?_of_isVerified) r)
  refine Triple.bind ((triple_build (D := known) cfg.accounts cfg.batchSize).conseq (fun _ hw => hw)
    (fun _ _ hw => hw) hfail) fun assigner => Triple.assume fun hassigner => ?_
  refine Triple.bind ((keeps_sweepWallets hsweep' r).conseq (fun _ hw => hw) (fun _ _ hw => hw)
    hfail) fun _ => ?_
  refine Triple.bind ((triple_gate hverified' r).conseq (fun _ hw => hw) (fun _ _ hw => hw)
    hfail) fun _ => Triple.pure fun w hw => ?_
  exact ⟨hw.1, hassigner, hw.2⟩

theorem keeps_recycle_debug (hdebug : cfg.debug = true) (r : Resolved) :
    Keeps env (on D) (recycleFunder cfg r) ∧ Keeps env (on D) (recycleBatch cfg r) := by
  rw [recycleFunder, recycleBatch, hdebug, Bool.not_true, Bool.and_false, Bool.and_false]
  exact ⟨Keeps.pure, Keeps.pure⟩

/-- In debug mode the wallets come to be as the key directories have it, and nothing is sent. -/
theorem keeps_prepare_debug (hdebug : cfg.debug = true) (hD : D.Survives cfg.keysDir) :
    Keeps env (on D) (prepare cfg) := by
  refine Keeps.bind ((triple_settle cfg env hD (.inl hdebug) (.inl hdebug)).conseq (fun _ hw => hw)
    (fun _ w hw => hw.1.1) fun _ hw => hw) fun r => ?_
  obtain ⟨r, assigner⟩ := r
  apply Keeps.bind (keeps_recycle_debug hdebug r).1
  intro funder
  apply Keeps.bind (keeps_recycle_debug hdebug r).2
  intro children
  refine Keeps.bind (x := fund cfg ⟨r.eater, funder, r.dev, children, assigner⟩) ?_ fun _ =>
    Keeps.pure
  apply Keeps.bind (keeps_eaterToFunder (.inl hdebug))
  intro _
  exact keeps_funderToChildren (.inl hdebug)

end TokenPumper
