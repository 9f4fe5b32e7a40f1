import TokenPumper.Keys.Conserved
import TokenPumper.Keys.Recycle

namespace TokenPumper
open LittleEndian Effect FileTree Batch
set_option autoImplicit true

def Event.Dated (e : Event) : Prop := ∀ day, e.day? = some day → ∃ n, formatYmd n = some day

theorem dated_of_isToday {e : Event} (h : e.isToday) : e.Dated := (plain_of_isToday h).2

theorem dated_of_day? {e : Event} (h : e.day? = none) : e.Dated :=
  fun _ hday => nomatch h.symm.trans hday

theorem Config.Apart.apartFrom {cfg : Config} (h : cfg.Apart)
    (hlog : Since [] Event.Dated disk log)
    (hpath : path ∈ [cfg.eaterPath, cfg.funderPath, cfg.devPath]) :
    ∀ day, .today day ∈ log → ApartFrom cfg.keysDir path day := by
  intro day hday
  obtain ⟨more, rfl, hdated⟩ := hlog
  obtain ⟨n, hn⟩ := hdated _ hday day rfl
  exact (h.batch n day hn path hpath).2

theorem dated_survives (keysDir : Path) : (Since [] Event.Dated).Survives keysDir :=
  since_survives (fun _ => dated_of_isToday) (fun _ _ => dated_of_day? rfl) keysDir

section Run
variable [Ed25519] {env : Env} {cfg : Config} {P E : World → Prop} {disk : Tree} {kp : SigningKey}

/-- What the key directories go through, what the sweep leaves, and what is sent: a condition that
none of it spoils holds of the run with the keys that were settled. -/
theorem triple_prepare_of {D : Resolved → Cond}
    (hsettle : Triple env P (settle cfg) (fun r => on (D r.1)) E)
    (hD : ∀ r, (D r).Survives cfg.keysDir) (hrem : ∀ r, (D r).Removes (D r) cfg.funderPath)
    (hsent : ∀ r purpose, (D r).Logs (Event.isSent purpose)) (hE : ∀ r w, on (D r) w → E w) :
    Triple env P (prepare cfg)
      (fun p w => ∃ r, on (D r) w ∧ p.eater = r.eater ∧ p.dev = r.dev) E := by
  refine Triple.bind hsettle fun ⟨r, assigner⟩ => ?_
  have hfail {α : Type} {x : Run α} (h : Keeps env (on (D r)) x) :
      Triple env (on (D r)) x (fun _ => on (D r)) E :=
    h.conseq (fun _ hw => hw) (fun _ _ hw => hw) (hE r)
  refine Triple.bind (hfail (keeps_recycleFunder_of (hD r).add (hrem r))) fun funder => ?_
  refine Triple.bind (hfail (keeps_recycleBatch_of (hD r))) fun children => ?_
  refine Triple.bind (hfail (x := fund cfg ⟨r.eater, funder, r.dev, children, assigner⟩) ?_)
    fun _ => Triple.pure fun w hw => ⟨r, hw, rfl, rfl⟩
  refine Keeps.bind (keeps_eaterToFunder (.inr fun disk log tx => hsent r .refill _ rfl))
    fun _ => ?_
  exact keeps_funderToChildren (.inr fun recipients _ disk log tx => hsent r .distribute _ rfl)

theorem keeps_prepare {D : Cond} (hD : D.Survives cfg.keysDir) (hrem : D.Removes D cfg.funderPath)
    (hsent : ∀ purpose, D.Logs (Event.isSent purpose)) (hverified : D.Logs Event.isVerified) :
    Keeps env (on D) (prepare cfg) := by
  have hsettle : Triple env (on D) (settle cfg) (fun _ => on D) (on D) :=
    (triple_settle cfg env hD (.inr (hsent .sweep)) (.inr hverified)).conseq (fun _ hw => hw)
      (fun _ _ hw => hw.1.1) fun _ hw => hw
  refine (triple_prepare_of (D := fun _ => D) hsettle (fun _ => hD) (fun _ => hrem)
    (fun _ => hsent) fun _ _ hw => hw).conseq (fun _ hw => hw) ?_ fun _ hw => hw
  rintro p w ⟨r, hw, -⟩
  exact hw

/-- The key is in its file, or a removal of a file that held it has been logged. -/
def Kept (path : Path) (kp : SigningKey) : Cond := fun disk log =>
  keyAt disk path = some kp ∨ ∃ e ∈ log, Event.removedKey e = some kp

theorem kept_concat (e : Event) (h : Kept path kp disk log) : Kept path kp disk (log ++ [e]) :=
  h.imp_right fun ⟨e', he', hkey⟩ => ⟨e', List.mem_append_left _ he', hkey⟩

theorem kept_removes (path removed : Path) (kp : SigningKey) :
    (Kept path kp).Removes (Kept path kp) removed := by
  rintro disk log bytes hf (hkey | ⟨e, he, hkey⟩)
  · by_cases hpath : path = removed
    · subst hpath
      refine .inr ⟨_, List.mem_append_right _ List.mem_cons_self, ?_⟩
      exact (keyAt_of_file hf).symm.trans hkey
    · exact .inl (keyAt_removeFile hf hpath hkey)
  · exact .inr ⟨e, List.mem_append_left _ he, hkey⟩

theorem kept_survives (path : Path) (kp : SigningKey) (keysDir : Path) :
    (Kept path kp).Survives keysDir where
  add _ _ _ _ _ hd hnew h := h.imp_left (keyAt_add hd hnew)
  today _ _ e _ h := kept_concat e h
  clear _ _ _ _ _ _ hf h := kept_removes path _ kp hf h.1

theorem keeps_kept (path : Path) (kp : SigningKey) :
    Keeps env (on (Kept path kp)) (prepare cfg) :=
  keeps_prepare (kept_survives path kp _) (kept_removes path _ kp)
    (fun _ _ _ e _ h => kept_concat e h) fun _ _ e _ h => kept_concat e h

/-- The days are dates, and the key is in its file unless that is one of a day's. -/
def InPlace (keysDir path : Path) (kp : SigningKey) : Cond := fun disk log =>
  Since [] Event.Dated disk log ∧ KeyStored keysDir path kp disk log

theorem inPlace_survives (keysDir path : Path) (kp : SigningKey) :
    (InPlace keysDir path kp).Survives keysDir :=
  (dated_survives keysDir).and (keyStored_survives keysDir path kp)

theorem inPlace_removes {removed : Path} (hne : path ≠ removed) (keysDir : Path) (kp : SigningKey) :
    (InPlace keysDir path kp).Removes (InPlace keysDir path kp) removed :=
  fun _ _ _ hf hw => ⟨hw.1.concat (dated_of_day? rfl), keyStored_removes hne keysDir kp hf hw.2⟩

theorem inPlace_logs (keysDir path : Path) (kp : SigningKey) (hkind : ∀ e, kind e → e.day? = none) :
    (InPlace keysDir path kp).Logs kind :=
  fun _ _ e he hw => ⟨hw.1.concat (dated_of_day? (hkind e he)), fun hdays =>
    hw.2 fun day hday => hdays day (List.mem_append_left _ hday)⟩

theorem InPlace.keyAt (hapart : cfg.Apart)
    (hpath : path ∈ [cfg.eaterPath, cfg.funderPath, cfg.devPath])
    (h : InPlace cfg.keysDir path kp disk log) : keyAt disk path = some kp :=
  h.2 (hapart.apartFrom h.1 hpath)

theorem prepare_leaves (hapart : cfg.Apart) (hpath : path ∈ [cfg.eaterPath, cfg.devPath])
    (h : keyAt disk path = some kp) (env : Env) :
    keyAt (prepare cfg env (.init disk)).2.disk path = some kp := by
  have hplace : path ∈ [cfg.eaterPath, cfg.funderPath, cfg.devPath] ∧ path ≠ cfg.funderPath := by
    rcases List.mem_pair.1 hpath with rfl | rfl
    · exact ⟨by simp, hapart.eater⟩
    · exact ⟨by simp, hapart.dev⟩
  have hkept : on (InPlace cfg.keysDir path kp) (prepare cfg env (.init disk)).2 :=
    (keeps_prepare (inPlace_survives _ path kp) (inPlace_removes hplace.2 _ kp)
      (fun _ => inPlace_logs _ path kp fun _ => day?_of_isSent)
      (inPlace_logs _ path kp fun _ => day?_of_isVerified) (.init disk)
      ⟨since_self _ _ _, fun _ => h⟩).state
  exact hkept.keyAt hapart hplace.1

theorem prepare_places (hapart : cfg.Apart)
    (h : prepare cfg env (.init disk) = (.ok p, w)) :
    keyAt w.disk cfg.eaterPath = some p.eater ∧ keyAt w.disk cfg.devPath = some p.dev := by
  let D (r : Resolved) : Cond := fun disk log =>
    InPlace cfg.keysDir cfg.eaterPath r.eater disk log ∧
    InPlace cfg.keysDir cfg.devPath r.dev disk log
  have hsettle : Triple env (on (Since [] Event.Dated)) (settle cfg) (fun r => on (D r.1))
      (fun _ => True) := by
    refine (triple_settle cfg env (dated_survives cfg.keysDir)
      (.inr (since_logs fun _ he => dated_of_day? (day?_of_isSent he)))
      (.inr (since_logs fun _ he => dated_of_day? (day?_of_isVerified he)))).conseq
      (fun _ hw => hw) ?_ fun _ _ => trivial
    rintro r w ⟨⟨hdated, heater, -, hdev, -⟩, -⟩
    exact ⟨⟨hdated, heater⟩, hdated, hdev⟩
  have hrun := triple_prepare_of hsettle
    (fun r => (inPlace_survives _ _ _).and (inPlace_survives _ _ _))
    (fun r => (inPlace_removes hapart.eater _ _).and (inPlace_removes hapart.dev _ _))
    (fun r purpose => (inPlace_logs _ _ _ fun _ => day?_of_isSent).and
      (inPlace_logs _ _ _ fun _ => day?_of_isSent)) (fun _ _ _ => trivial)
    (.init disk) (since_self _ _ _)
  rw [h] at hrun
  obtain ⟨r, ⟨heater, hdev⟩, heq, heq'⟩ := hrun
  rw [heq, heq']
  exact ⟨heater.keyAt hapart (by simp), hdev.keyAt hapart (by simp)⟩

end Run

section Runs
variable [Ed25519] {disk : Tree} {runs before after : List (Config × Env)}

/-- Runs one after the other, each on the disk that the one before has left. -/
def history (disk : Tree) : List (Config × Env) → List (Except Failure Prepared × World)
  | [] => []
  | (cfg, env) :: rest =>
    let done := prepare cfg env (.init disk)
    done :: history done.2.disk rest

def diskAfter (disk : Tree) : List (Config × Env) → Tree
  | [] => disk
  | (cfg, env) :: rest => diskAfter (prepare cfg env (.init disk)).2.disk rest

theorem diskAfter_append (disk : Tree) (before after : List (Config × Env)) :
    diskAfter disk (before ++ after) = diskAfter (diskAfter disk before) after := by
  induction before generalizing disk with
  | nil => rfl
  | cons run before ih => exact ih _

theorem history_append (disk : Tree) (before after : List (Config × Env)) :
    history disk (before ++ after) =
      history disk before ++ history (diskAfter disk before) after := by
  induction before generalizing disk with
  | nil => rfl
  | cons run before ih =>
    rw [List.cons_append, history, history, diskAfter, ih, List.cons_append]

theorem mem_history (h : past ∈ history disk runs) :
    ∃ before cfg env after, runs = before ++ (cfg, env) :: after ∧
      past = prepare cfg env (.init (diskAfter disk before)) := by
  induction runs generalizing disk with
  | nil => exact absurd h List.not_mem_nil
  | cons run runs ih =>
    obtain ⟨cfg, env⟩ := run
    rcases List.mem_cons.1 h with rfl | hrest
    · exact ⟨[], cfg, env, runs, rfl, rfl⟩
    · obtain ⟨before, cfg', env', after, rfl, hpast⟩ := ih hrest
      exact ⟨(cfg, env) :: before, cfg', env', after, rfl, hpast⟩

/-- A key stays in its file through all runs, or one of them has logged its removal. -/
theorem kept_after (h : keyAt disk path = some kp) (runs : List (Config × Env)) :
    keyAt (diskAfter disk runs) path = some kp ∨
      ∃ past ∈ history disk runs, ∃ e ∈ past.2.log, Event.removedKey e = some kp := by
  induction runs generalizing disk with
  | nil => exact .inl h
  | cons run runs ih =>
    obtain ⟨cfg, env⟩ := run
    rcases (keeps_kept path kp (.init disk) (.inl h)).state with hkey | hremoved
    · rcases ih hkey with hafter | ⟨past, hpast, hremoved⟩
      · exact .inl hafter
      · exact .inr ⟨past, List.mem_cons_of_mem _ hpast, hremoved⟩
    · exact .inr ⟨_, List.mem_cons_self, hremoved⟩

def removedWallets (log : List Event) : Finset Pubkey :=
  ((log.filterMap Event.removedKey).map Ed25519.verifyingKey).toFinset

/-- The wallets whose keys the history leaves on the disk or has logged as removed. -/
def knownWallets (disk : Tree) (runs : List (Config × Env)) : Finset Pubkey :=
  walletsOn (diskAfter disk runs) ∪
    removedWallets ((history disk runs).flatMap fun past => past.2.log)

theorem walletsOn_subset_known (hpast : past ∈ history disk runs) :
    walletsOn past.2.disk ⊆ knownWallets disk runs := by
  obtain ⟨before, cfg, env, after, rfl, rfl⟩ := mem_history hpast
  intro pk hpk
  obtain ⟨path, kp, hkey, rfl⟩ := exists_of_mem_walletsOn hpk
  rw [knownWallets, Finset.mem_union, diskAfter_append, history_append]
  rcases kept_after hkey after with hafter | ⟨later, hlater, e, he, hremoved⟩
  · exact .inl (mem_walletsOn hafter)
  · right
    rw [removedWallets, List.mem_toFinset]
    apply List.mem_map_of_mem
    refine List.mem_filterMap.2 ⟨e, List.mem_flatMap.2 ⟨later, ?_, he⟩, hremoved⟩
    exact List.mem_append_right _ (List.mem_cons_of_mem _ hlater)

/-- Whichever packets of a history of runs land, in whichever order, the wallets that the history
still has or has logged as removed lose at most the fees, and no other wallet gains anything; a key
that is on the disk between two runs is there at the end, or a later run has logged its removal. -/
theorem history_conserves (hapart : ∀ run ∈ runs, run.1.Apart) (disk : Tree)
    (landed : List (Ledger.Tx Pubkey × Bool))
    (hlanded : ∀ l ∈ landed, ∃ past ∈ history disk runs, ∃ purpose recipients tx snapshot,
      .sent purpose recipients tx snapshot ∈ past.2.log ∧ networkTx tx = some l.1)
    (b : Pubkey → Nat) :
    Ledger.total (knownWallets disk runs) b ≤
        Ledger.total (knownWallets disk runs) (Ledger.run b landed) + Ledger.fees b landed ∧
      (∀ pk, pk ∉ knownWallets disk runs → Ledger.run b landed pk ≤ b pk) ∧
      ∀ before after, before ++ after = runs → ∀ path kp,
        keyAt (diskAfter disk before) path = some kp →
        keyAt (diskAfter disk runs) path = some kp ∨
          ∃ past ∈ history (diskAfter disk before) after, ∃ e ∈ past.2.log,
            Event.removedKey e = some kp := by
  have htargets : ∀ l ∈ landed, ∀ t ∈ l.1.transfers, t.target ∈ knownWallets disk runs := by
    intro l hl t ht
    obtain ⟨past, hpast, purpose, recipients, tx, snapshot, hmem, htx⟩ := hlanded l hl
    apply walletsOn_subset_known hpast
    obtain ⟨before, cfg, env, after, rfl, rfl⟩ := mem_history hpast
    have haccounted := (triple_prepare_accounted env
      (hapart (cfg, env) (List.mem_append_right _ List.mem_cons_self))
      (.init (diskAfter disk before)) rfl).state
    obtain ⟨t', ht', hmoves, -⟩ := haccounted _ _ _ _ hmem (length_le_of_networkTx htx)
    obtain rfl := Option.some.inj (ht'.symm.trans htx)
    exact hmoves.targets t ht
  refine ⟨Ledger.total_le_run htargets b, fun pk hpk => ?_, ?_⟩
  · apply Ledger.run_le
    intro l hl t ht heq
    exact hpk (heq ▸ htargets l hl t ht)
  · rintro before after rfl path kp hkey
    rw [diskAfter_append]
    exact kept_after hkey after

/-- A single key file that all runs have for their eater or their dev stays as it is. -/
theorem leaves_after (hapart : ∀ run ∈ runs, run.1.Apart ∧ path ∈ [run.1.eaterPath, run.1.devPath])
    (h : keyAt disk path = some kp) : keyAt (diskAfter disk runs) path = some kp := by
  induction runs generalizing disk with
  | nil => exact h
  | cons run runs ih =>
    obtain ⟨⟨hrun, hpath⟩, hrest⟩ := List.forall_mem_cons.1 hapart
    exact ih hrest (prepare_leaves hrun hpath h run.2)

/-- All runs that have the same places for the keys of the eater and the dev have the same eater
and the same dev, whatever failed or was stopped in between, and all their sweeps go to that
eater. -/
theorem history_one_eater (hapart : ∀ run ∈ runs, run.1.Apart ∧ run.1.eaterPath = eaterPath ∧
      run.1.devPath = devPath) (disk : Tree) :
    ∃ eater dev : SigningKey, ∀ past ∈ history disk runs,
      (∀ p, past.1 = .ok p → p.eater = eater ∧ p.dev = dev) ∧
      ∀ recipients tx snapshot, .sent .sweep recipients tx snapshot ∈ past.2.log →
        tx.length ≤ 1232 → ∃ t, networkTx tx = some t ∧
          ∀ x ∈ t.transfers, x.target = Ed25519.verifyingKey eater := by
  let unset : SigningKey := Vector.replicate 32 0
  refine ⟨(keyAt (diskAfter disk runs) eaterPath).getD unset,
    (keyAt (diskAfter disk runs) devPath).getD unset, fun past hpast => ?_⟩
  obtain ⟨before, cfg, env, after, rfl, rfl⟩ := mem_history hpast
  obtain ⟨hrun, heater, hdev⟩ := hapart (cfg, env) (List.mem_append_right _ List.mem_cons_self)
  have hkept (path : Path) (kp : SigningKey) (hpath : path = eaterPath ∨ path = devPath)
      (hkey : keyAt (prepare cfg env (.init (diskAfter disk before))).2.disk path = some kp) :
      (keyAt (diskAfter disk (before ++ (cfg, env) :: after)) path).getD unset = kp := by
    rw [diskAfter_append, diskAfter, leaves_after (fun run hmem => ?_) hkey, Option.getD_some]
    obtain ⟨hafter, heater', hdev'⟩ :=
      hapart run (List.mem_append_right _ (List.mem_cons_of_mem _ hmem))
    rw [heater', hdev', List.mem_pair]
    exact ⟨hafter, hpath⟩
  constructor
  · intro p hp
    obtain ⟨heaterKey, hdevKey⟩ := prepare_places hrun (run_eq hp)
    rw [show cfg.eaterPath = eaterPath from heater] at heaterKey
    rw [show cfg.devPath = devPath from hdev] at hdevKey
    exact ⟨(hkept _ _ (.inl rfl) heaterKey).symm, (hkept _ _ (.inr rfl) hdevKey).symm⟩
  · intro recipients tx snapshot hmem hlen
    have haccounted := (triple_prepare_accounted env hrun (.init (diskAfter disk before)) rfl).state
    obtain ⟨t, ht, -, hsweep⟩ := haccounted _ _ _ _ hmem hlen
    obtain ⟨eater, hkey, htargets⟩ := hsweep rfl
    rw [show cfg.eaterPath = eaterPath from heater] at hkey
    rw [hkept _ _ (.inl rfl) hkey]
    exact ⟨t, ht, htargets⟩

end Runs

def sampleRuns : List (Config × Env) := [(sampleRefill, sampleChain), (sampleRefill, sampleChain)]

theorem sampleRuns_apart :
    ∀ run ∈ sampleRuns, run.1.Apart ∧ run.1.eaterPath = ["eater.json", "keys"] ∧
      run.1.devPath = ["key.json", "dev", "keys"] := by
  have happart : sampleRefill.Apart := apart_of_defaults _ rfl rfl rfl rfl
  rw [sampleRuns, List.forall_mem_cons, List.forall_mem_singleton, and_self_iff]
  exact ⟨happart, rfl, rfl⟩

theorem history_conserves_sample :
    let wallets := @knownWallets sampleSigner sampleEater sampleRuns
    let b (_ : Pubkey) : Nat := 2000000
    Ledger.total wallets b ≤
      Ledger.total wallets (Ledger.run b sampleLanded) + Ledger.fees b sampleLanded := by
  refine (@history_conserves sampleSigner sampleRuns (fun run hrun => (sampleRuns_apart run hrun).1)
    sampleEater sampleLanded (fun l hl => ?_) _).1
  exact ⟨_, List.mem_cons_self, sampleLanded_sent l hl⟩

theorem history_one_eater_sample :
    ∃ eater dev : SigningKey, ∀ past ∈ @history sampleSigner sampleEater sampleRuns,
      (∀ p, past.1 = .ok p → p.eater = eater ∧ p.dev = dev) ∧
      ∀ recipients tx snapshot, .sent .sweep recipients tx snapshot ∈ past.2.log →
        tx.length ≤ 1232 → ∃ t, networkTx tx = some t ∧
          ∀ x ∈ t.transfers, x.target = @Ed25519.verifyingKey sampleSigner eater :=
  @history_one_eater sampleSigner sampleRuns _ _ sampleRuns_apart sampleEater

end TokenPumper
