import TokenPumper.Lib.Fallible
import TokenPumper.Keys.Reliable
import TokenPumper.Keys.Stages

namespace TokenPumper
open LittleEndian Effect FileTree Batch
set_option autoImplicit true

/-- The key files of the eater, the funder and the dev, and the batches of all days, are in places
of their own. -/
structure Config.Apart (cfg : Config) : Prop where
  eater : cfg.eaterPath ≠ cfg.funderPath
  dev : cfg.devPath ≠ cfg.funderPath
  batch : ∀ n day, formatYmd n = some day → ∀ path ∈ [cfg.eaterPath, cfg.funderPath, cfg.devPath],
    path ≠ day :: cfg.keysDir ∧ ApartFrom cfg.keysDir path day

def Event.isFunding : Event → Prop
  | .sent .refill _ _ _ => True
  | .sent .distribute _ _ _ => True
  | _ => False

/-- No transfer to a recycled wallet, and no day but a date. -/
def Event.Plain (e : Event) : Prop :=
  ¬e.isFunding ∧ ∀ day, e.day? = some day → ∃ n, formatYmd n = some day

theorem plain_of_isToday {e : Event} (h : e.isToday) : e.Plain := by
  cases e with
  | today day =>
    refine ⟨id, fun day' hday => ?_⟩
    obtain rfl := Option.some.inj hday
    exact h
  | removed path bytes => cases h
  | verifiedEmpty wallets balances => cases h
  | sent purpose recipients tx disk => cases h

theorem plain_removed (path : Path) (bytes : List UInt8) : (Event.removed path bytes).Plain :=
  ⟨id, fun _ hday => nomatch hday⟩

theorem plain_of_isVerified {e : Event} (h : e.isVerified) : e.Plain := by
  refine ⟨?_, fun day hday => absurd ((day?_of_isVerified h).symm.trans hday) nofun⟩
  cases e with
  | today day => cases h
  | removed path bytes => cases h
  | verifiedEmpty wallets balances => exact id
  | sent purpose recipients tx disk => cases h

theorem plain_of_isSweep {e : Event} (h : e.isSent .sweep) : e.Plain := by
  refine ⟨?_, fun day hday => absurd ((day?_of_isSent h).symm.trans hday) nofun⟩
  cases e with
  | today day => cases h
  | removed path bytes => cases h
  | verifiedEmpty wallets balances => cases h
  | sent purpose recipients tx disk =>
    obtain rfl : purpose = .sweep := h
    exact id

/-- The days that such a log has read keep the single key files apart from the batch. -/
theorem Config.Apart.fromDays {cfg : Config} (h : cfg.Apart) (hlog : Since [] Event.Plain disk log)
    (hpath : path ∈ [cfg.eaterPath, cfg.funderPath, cfg.devPath]) :
    ∀ day, .today day ∈ log → path ≠ day :: cfg.keysDir ∧ ApartFrom cfg.keysDir path day := by
  intro day hday
  obtain ⟨more, rfl, hplain⟩ := hlog
  obtain ⟨n, hn⟩ := (hplain _ hday).2 day rfl
  exact h.batch n day hn path hpath

theorem plain_survives (keysDir : Path) : (Since [] Event.Plain).Survives keysDir :=
  since_survives (fun _ => plain_of_isToday) plain_removed keysDir

section Prepare
variable [Ed25519] {env : Env} {cfg : Config}

/-- The recipient's key is in its file, and a restart on that day loads it from there. -/
def Recoverable (cfg : Config) (purpose : Purpose) (day : String) (disk : Tree) (pk : Pubkey) :
    Prop :=
  ∃ kp, Ed25519.verifyingKey kp = pk ∧
    match purpose with
    | .sweep => True
    | .refill => keyAt disk cfg.funderPath = some kp ∧
        ∀ env : Env, env.Reliable day → ∃ r w, resolveKeys cfg env (.init disk) = (.ok r, w) ∧
          r.funder = kp ∧ r.funderOrigin = .loaded
    | .distribute => ∃ account ∈ cfg.accounts,
        keyAt disk (keyPath (day :: cfg.keysDir) account.index) = some kp ∧
        ∀ env : Env, env.Reliable day → ∃ r w, resolveKeys cfg env (.init disk) = (.ok r, w) ∧
          r.children[account.index - 1]? = some kp ∧ r.batchOrigin = .loaded

/-- Everything that the keys have to be on the disk for. -/
structure Restorable (cfg : Config) (r : Resolved) (day : String) (disk : Tree) : Prop where
  eater : keyAt disk cfg.eaterPath = some r.eater
  funder : keyAt disk cfg.funderPath = some r.funder
  dev : keyAt disk cfg.devPath = some r.dev
  there : (disk.lookup (day :: cfg.keysDir)).isSome
  size : r.children.length = cfg.batchSize
  children : HoldKeys (day :: cfg.keysDir) r.children disk

theorem Restorable.resolveKeys (h : Restorable cfg r day disk) (hr : env.Reliable day) :
    ∃ w, TokenPumper.resolveKeys cfg env (.init disk) =
      (.ok { r with funderOrigin := .loaded, batchOrigin := .loaded }, w) := by
  have hrun : Triple env (·.disk = disk) (TokenPumper.resolveKeys cfg)
      (fun r' _ => r' = { r with funderOrigin := .loaded, batchOrigin := .loaded })
      (fun _ => False) := by
    refine Triple.bind (Q := fun eater w => w.disk = disk ∧ eater = r.eater) ?_ fun eater =>
      Triple.assume fun heater => ?_
    · refine Triple.bind (reliable_ensure hr h.eater) fun res => Triple.pure ?_
      rintro w ⟨hw, rfl⟩
      exact ⟨hw, rfl⟩
    apply Triple.bind (reliable_ensure hr h.funder)
    intro funder
    apply Triple.assume
    intro hfunder
    apply Triple.bind (reliable_ensure hr h.dev)
    intro dev
    apply Triple.assume
    intro hdev
    rw [← h.size]
    refine Triple.bind (reliable_resolveToday hr h.there h.children) fun batch => Triple.pure ?_
    rintro w ⟨-, rfl⟩
    rw [heater, hfunder, hdev]
  obtain ⟨_, w, hw, rfl⟩ := hrun.returns (s := .init disk) rfl
  exact ⟨w, hw⟩

theorem Restorable.refill (h : Restorable cfg r day disk) :
    Recoverable cfg .refill day disk (Ed25519.verifyingKey r.funder) := by
  refine ⟨r.funder, rfl, h.funder, fun env hr => ?_⟩
  obtain ⟨w, hw⟩ := h.resolveKeys hr
  exact ⟨_, w, hw, rfl, rfl⟩

theorem Restorable.distribute {assigner : Assigner} {recipients : List (Pubkey × UInt64)}
    (h : Restorable cfg r day disk) (hslots : FromAccounts cfg.accounts assigner.slots)
    (hrecipients : recipientsOf r.children assigner.iter = some recipients) :
    ∀ recipient ∈ recipients, Recoverable cfg .distribute day disk recipient.1 := by
  intro recipient hmem
  obtain ⟨a, ha, hchild⟩ := Fallible.mem_of_mapM hrecipients hmem
  obtain ⟨kp, hkp, rfl⟩ := Option.map_eq_some_iff.1 hchild
  have hslot : some a ∈ assigner.slots := by simpa [Assigner.iter] using ha
  obtain ⟨account, haccount, hindex⟩ := hslots a hslot
  refine ⟨kp, rfl, account, haccount, ?_, fun env hr => ?_⟩
  · rw [hindex]
    exact h.children a.index kp hkp
  · obtain ⟨w, hw⟩ := h.resolveKeys hr
    refine ⟨_, w, hw, ?_, rfl⟩
    rw [hindex, Nat.add_sub_cancel]
    exact hkp

/-- The log of a run up to the funding, and the funding after it. -/
def Funded (cfg : Config) : Cond := fun disk log =>
  ∃ base more, log = base ++ more ∧ (∀ e ∈ base, ¬e.isFunding) ∧ ∀ e ∈ more,
    ∃ day purpose recipients tx, e = .sent purpose recipients tx disk ∧ lastDay base = some day ∧
      ∀ recipient ∈ recipients, Recoverable cfg purpose day disk recipient.1

theorem funded_of_plain (h : Since [] Event.Plain disk log) : Funded cfg disk log := by
  obtain ⟨_, rfl, hplain⟩ := h
  refine ⟨_, [], (List.append_nil _).symm, fun e he => (hplain e he).1, ?_⟩
  exact fun e he => absurd he List.not_mem_nil

theorem triple_fund {base : List Event} {disk : Tree} {assigner : Assigner}
    (hbase : Since [] Event.Plain disk base) (hday : lastDay base = some day)
    (h : Restorable cfg r day disk) (hslots : FromAccounts cfg.accounts assigner.slots) :
    Triple env (on fun disk' log => disk' = disk ∧ log = base)
      (fund cfg ⟨r.eater, r.funder, r.dev, r.children, assigner⟩) (fun _ => on (Funded cfg))
      (on (Funded cfg)) := by
  let sent (e : Event) : Prop := ∃ purpose recipients tx, e = .sent purpose recipients tx disk ∧
    ∀ recipient ∈ recipients, Recoverable cfg purpose day disk recipient.1
  let funding : Cond := fun disk' log => disk' = disk ∧ Since base sent disk' log
  have hstep (purpose : Purpose) (recipients : List (Pubkey × UInt64))
      (hrecipients : ∀ recipient ∈ recipients, Recoverable cfg purpose day disk recipient.1)
      (disk' : Tree) (log : List Event) (tx : List UInt8) (hw : funding disk' log) :
      funding disk' (log ++ [.sent purpose recipients tx disk']) := by
    obtain ⟨rfl, hlog⟩ := hw
    exact ⟨rfl, hlog.concat ⟨purpose, recipients, tx, rfl, hrecipients⟩⟩
  have hkeeps : Keeps env (on funding)
      (fund cfg ⟨r.eater, r.funder, r.dev, r.children, assigner⟩) := by
    refine Keeps.bind (keeps_eaterToFunder (.inr (hstep .refill _ ?_))) fun _ => ?_
    · exact List.forall_mem_singleton.2 h.refill
    · exact keeps_funderToChildren (.inr fun recipients hrecipients =>
        hstep .distribute recipients (h.distribute hslots hrecipients))
  have hdone (w : World) (hw : on funding w) : on (Funded cfg) w := by
    obtain ⟨hdisk, more, hlog, hmore⟩ := hw
    obtain ⟨_, rfl, hplain⟩ := hbase
    refine ⟨_, more, hlog, fun e he => (hplain e he).1, fun e he => ?_⟩
    obtain ⟨purpose, recipients, tx, rfl, hrecipients⟩ := hmore e he
    rw [hdisk]
    exact ⟨day, purpose, recipients, tx, rfl, hday, hrecipients⟩
  refine hkeeps.conseq ?_ (fun _ => hdone) hdone
  rintro w ⟨hdisk, hlog⟩
  exact ⟨hdisk, hlog ▸ since_self _ _ _⟩

/-- The keys that are stored are so in the places that the configuration has for them. -/
theorem Stored.restorable (hapart : cfg.Apart) (hlog : Since [] Event.Plain disk log)
    (h : Stored cfg r disk log) : ∃ day, lastDay log = some day ∧ Restorable cfg r day disk := by
  obtain ⟨heater, hfunder, hdev, hlen, day, hday, hthere, hkeys⟩ := h
  refine ⟨day, hday, heater ?_, hfunder ?_, hdev ?_, hthere, hlen, hkeys⟩
  · exact fun day hday => (hapart.fromDays hlog (by simp) day hday).2
  · exact fun day hday => (hapart.fromDays hlog (by simp) day hday).2
  · exact fun day hday => (hapart.fromDays hlog (by simp) day hday).2

theorem batchStored_addStable (keysDir : Path) (kps : List SigningKey) :
    (BatchStored keysDir kps).AddStable := by
  rintro disk log name parent node hd hnew ⟨day, hday, hthere, hkeys⟩
  obtain ⟨old, hold⟩ := Option.isSome_iff_exists.1 hthere
  refine ⟨day, hday, ?_, hkeys.add hd hnew⟩
  exact Option.isSome_iff_exists.2 ⟨old, Tree.lookup_add_of_some hd hnew hold⟩

theorem keyStored_removes {removed : Path} (hne : path ≠ removed) (keysDir : Path)
    (kp : SigningKey) :
    (KeyStored keysDir path kp).Removes (KeyStored keysDir path kp) removed := by
  intro disk log bytes hf hw hapart
  refine keyAt_removeFile hf hne (hw fun day hday => ?_)
  exact hapart day (List.mem_append_left _ hday)

/-- A file that is neither the day's directory nor a `*.json` file of it is not part of the
batch. -/
theorem BatchStored.removeFile {removed : Path} (hf : disk.lookup removed = some (.file bytes))
    (h : BatchStored keysDir kps disk log)
    (hne : ∀ day, .today day ∈ log → removed ≠ day :: keysDir ∧ ApartFrom keysDir removed day) :
    BatchStored keysDir kps (disk.removeFile removed hf) (log ++ [.removed removed bytes]) := by
  obtain ⟨day, hday, hthere, hkeys⟩ := h
  obtain ⟨hdir, hjson⟩ := hne day (mem_of_lastDay hday)
  refine ⟨day, (lastDay_of_day? rfl log).trans hday, ?_, fun i kp hi => ?_⟩
  · rwa [Tree.lookup_removeFile_of_ne hf hdir.symm]
  · have hpath : keyPath (day :: keysDir) (i + 1) ≠ removed :=
      (hjson _ (isJson_keyName (i + 1))).symm
    exact keyAt_removeFile hf hpath (hkeys i kp hi)

theorem triple_recycleFunder (hapart : cfg.Apart) (r : Resolved) :
    Triple env (on fun disk log => Since [] Event.Plain disk log ∧ Stored cfg r disk log)
      (recycleFunder cfg r)
      (fun funder => on fun disk log => Since [] Event.Plain disk log ∧
        Stored cfg { r with funder } disk log) (on (Since [] Event.Plain)) := by
  rw [recycleFunder]
  split
  · let rest : Cond := fun disk log => Since [] Event.Plain disk log ∧
      KeyStored cfg.keysDir cfg.eaterPath r.eater disk log ∧
      KeyStored cfg.keysDir cfg.devPath r.dev disk log ∧
      r.children.length = cfg.batchSize ∧ BatchStored cfg.keysDir r.children disk log
    have hstable : rest.AddStable := by
      rintro disk log name parent node hd hnew ⟨hlog, heater, hdev, hlen, hbatch⟩
      exact ⟨hlog, (keyStored_survives _ _ _).add name parent node hd hnew heater,
        (keyStored_survives _ _ _).add name parent node hd hnew hdev, hlen,
        batchStored_addStable _ _ name parent node hd hnew hbatch⟩
    have hrem : Cond.Removes (fun disk log => Since [] Event.Plain disk log ∧
        Stored cfg r disk log) rest cfg.funderPath := by
      rintro disk log bytes hf ⟨hlog, heater, -, hdev, hlen, hbatch⟩
      exact ⟨hlog.concat (plain_removed _ _), keyStored_removes hapart.eater _ _ hf heater,
        keyStored_removes hapart.dev _ _ hf hdev, hlen,
        hbatch.removeFile hf (hapart.fromDays hlog (by simp))⟩
    refine (triple_regenerate hrem (fun _ _ hw => ⟨hw.1, hw.2.1, hw.2.2.2⟩) hstable
      (fun w hw => hw.1) fun w hw => hw.1).conseq (fun _ hw => hw) ?_ fun _ hw => hw
    rintro funder w ⟨⟨hlog, heater, hdev, hlen, hbatch⟩, hfunder⟩
    exact ⟨hlog, heater, fun _ => hfunder, hdev, hlen, hbatch⟩
  · exact Triple.pure fun w hw => hw

theorem triple_recycleBatch (r : Resolved) :
    Triple env (on fun disk log => Since [] Event.Plain disk log ∧ Stored cfg r disk log)
      (recycleBatch cfg r)
      (fun children => on fun disk log => Since [] Event.Plain disk log ∧
        Stored cfg { r with children } disk log) (on (Since [] Event.Plain)) := by
  rw [recycleBatch]
  split
  · have hsurvives := (((plain_survives cfg.keysDir).and
      (keyStored_survives cfg.keysDir cfg.eaterPath r.eater)).and
      (keyStored_survives cfg.keysDir cfg.funderPath r.funder)).and
      (keyStored_survives cfg.keysDir cfg.devPath r.dev)
    refine (triple_regenerateToday (E := on (Since [] Event.Plain)) cfg.batchSize hsurvives
      fun w hw => hw.1.1.1).conseq ?_ ?_ fun _ hw => hw
    · rintro w ⟨hlog, heater, hfunder, hdev, -⟩
      exact ⟨⟨⟨hlog, heater⟩, hfunder⟩, hdev⟩
    · rintro children w ⟨⟨⟨⟨hlog, heater⟩, hfunder⟩, hdev⟩, hlen, hbatch⟩
      exact ⟨hlog, heater, hfunder, hdev, hlen, hbatch⟩
  · exact Triple.pure fun w hw => hw

theorem triple_prepare (env : Env) (hapart : cfg.Apart) :
    Triple env (on (Since [] Event.Plain)) (prepare cfg) (fun _ => on (Funded cfg))
      (on (Funded cfg)) := by
  have hfail : ∀ w, on (Since [] Event.Plain) w → on (Funded cfg) w :=
    fun w hw => funded_of_plain hw
  have hsettle := triple_settle cfg env (plain_survives cfg.keysDir)
    (.inr (since_logs fun _ => plain_of_isSweep)) (.inr (since_logs fun _ => plain_of_isVerified))
  have hsettled : Triple env (on (Since [] Event.Plain)) (settle cfg)
      (fun r w => on (fun disk log => Since [] Event.Plain disk log ∧ Stored cfg r.1 disk log) w ∧
        FromAccounts cfg.accounts r.2.slots) (on (Funded cfg)) :=
    hsettle.conseq (fun _ hw => hw) (fun r w hw => ⟨hw.1, hw.2.1⟩) hfail
  refine Triple.bind hsettled fun ⟨r, assigner⟩ => Triple.assume fun hslots => ?_
  refine Triple.bind ((triple_recycleFunder hapart r).conseq (fun _ hw => hw) (fun _ _ hw => hw)
    hfail) fun funder => ?_
  refine Triple.bind ((triple_recycleBatch { r with funder }).conseq (fun _ hw => hw)
    (fun _ _ hw => hw) hfail) fun children => ?_
  rintro w ⟨hlog, hstored⟩
  obtain ⟨day, hday, hrestorable⟩ := hstored.restorable hapart hlog
  refine Triple.bind (x := fund cfg ⟨r.eater, funder, r.dev, children, assigner⟩)
    (triple_fund hlog hday hrestorable hslots) (fun _ => ?_) w ⟨rfl, rfl⟩
  exact Triple.pure fun _ hw => hw

/-- Whatever a run pays into is a wallet whose key lies on the disk then, and still does at the end
of the run, from where a restart on that day loads it. -/
theorem prepare_persists (hapart : cfg.Apart) (disk : Tree) (before after : List Event)
    (hlog : (prepare cfg env (.init disk)).2.log =
      before ++ .sent purpose recipients tx snapshot :: after)
    (hpurpose : purpose ≠ .sweep) :
    snapshot = (prepare cfg env (.init disk)).2.disk ∧ ∃ day, lastDay before = some day ∧
      ∀ recipient ∈ recipients, Recoverable cfg purpose day snapshot recipient.1 := by
  obtain ⟨base, more, hsplit, hbase, hmore⟩ :=
    (triple_prepare env hapart (.init disk) (since_self _ _ disk)).state
  have hfunding : Event.isFunding (.sent purpose recipients tx snapshot) := by
    cases purpose with
    | sweep => exact absurd rfl hpurpose
    | refill => trivial
    | distribute => trivial
  obtain ⟨sent, rfl, hsent⟩ : ∃ sent, before = base ++ sent ∧
      more = sent ++ .sent purpose recipients tx snapshot :: after := by
    rcases List.append_eq_append_iff.1 (hlog.symm.trans hsplit) with ⟨c, hc, hc'⟩ | ⟨c, hc, hc'⟩
    · cases c with
      | nil => exact ⟨[], by simpa using hc.symm, by simpa using hc'.symm⟩
      | cons e c =>
        obtain ⟨rfl, -⟩ := List.cons.inj hc'
        exact absurd hfunding (hbase _ (by simp [hc]))
    · exact ⟨c, hc, hc'⟩
  have hday : lastDay (base ++ sent) = lastDay base := by
    refine lastDay_append (fun e he => ?_) base
    obtain ⟨-, -, -, -, rfl, -⟩ := hmore e (by simp [hsent, he])
    rfl
  obtain ⟨day, purpose', recipients', tx', he, hlast, hrecoverable⟩ :=
    hmore (.sent purpose recipients tx snapshot) (by simp [hsent])
  obtain ⟨rfl, rfl, rfl, rfl⟩ := Event.sent.inj he
  exact ⟨rfl, day, hday.trans hlast, hrecoverable⟩

end Prepare

theorem apart_of_defaults (cfg : Config) (heater : cfg.eaterPath = ["eater.json", "keys"])
    (hfunder : cfg.funderPath = ["key.json", "funder", "keys"])
    (hdev : cfg.devPath = ["key.json", "dev", "keys"]) (hdir : cfg.keysDir = ["keys"]) :
    cfg.Apart where
  eater := by rw [heater, hfunder]; decide
  dev := by rw [hdev, hfunder]; decide
  batch := by
    intro n day hday path hpath
    have hdash := dash_mem_formatYmd hday
    have hne (name : String) (hname : '-' ∉ name.toList) : name ≠ day := by
      rintro rfl
      exact hname hdash
    have heaterName := hne "eater.json" (by decide)
    have hfunderDir := hne "funder" (by decide)
    have hdevDir := hne "dev" (by decide)
    rw [heater, hfunder, hdev] at hpath
    rw [hdir, ApartFrom]
    simp only [List.mem_cons, List.not_mem_nil, or_false] at hpath
    rcases hpath with rfl | rfl | rfl
    · simp [heaterName]
    · simp [hfunderDir]
    · simp [hdevDir]

abbrev sampleSigner : Ed25519 := .ofVectors samplePublics
  [(.replicate 32 1, #v[
    54, 52, 86, 193, 180, 54, 237, 85, 181, 80, 127, 174, 85, 98, 32, 210, 94, 7, 127, 194, 220, 92,
    78, 35, 90, 245, 219, 232, 97, 37, 91, 83, 49, 180, 135, 154, 47, 16, 34, 173, 115, 71, 17, 149,
    233, 130, 231, 17, 191, 200, 121, 74, 9, 131, 203, 10, 167, 175, 140, 198, 4, 89, 180, 10])]

def sampleEater : Tree :=
  sampleKeysDir.add "eater.json" ["keys"] (.file (@keyFile sampleSigner (.replicate 32 1)))
    isDir_sampleKeysDir rfl

def sampleRefill : Config := { eaterAmount := 1000000, batchSize := 1 }

def sampleChain : Env :=
  { Env.calm 0 (.replicate 32 2) with balance := fun t _ => .ok (if t < 28 then 0 else 1000000) }

def sampleRecipients : List (Pubkey × UInt64) :=
  [(@Ed25519.verifyingKey sampleSigner (.replicate 32 2), 1000000)]

theorem prepare_persists_sample :
    ∃ day, lastDay [.today "1970-01-01"] = some day ∧
      ∀ recipient ∈ sampleRecipients, @Recoverable sampleSigner sampleRefill .refill day
        (@prepare sampleSigner sampleRefill sampleChain (.init sampleEater)).2.disk recipient.1 :=
  (@prepare_persists sampleSigner sampleChain sampleRefill .refill sampleRecipients
    (@Transaction.buildDistribute sampleSigner (.replicate 32 1) sampleRecipients
      (.replicate 32 0)) _ (apart_of_defaults _ rfl rfl rfl rfl) sampleEater
    [.today "1970-01-01"] [] (by decide +kernel) (by decide)).2

end TokenPumper
