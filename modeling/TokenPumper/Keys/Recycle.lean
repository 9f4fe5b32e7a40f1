import TokenPumper.Keys.BatchKept
import TokenPumper.Keys.Stages

namespace TokenPumper
open LittleEndian Effect FileTree Batch
set_option autoImplicit true

/-- The wallets that a reply shows as absent or as holding nothing. -/
def emptyWallets (wallets : List SigningKey) (balances : List (Option UInt64)) : List SigningKey :=
  ((wallets.zip balances).filter fun p => p.2 = none || p.2 = some 0).map Prod.fst

/-- The wallets and the replies of the verifications that a run has passed. -/
def verifications (log : List Event) : List (List SigningKey × List (Option UInt64)) :=
  log.filterMap fun
    | .verifiedEmpty wallets balances => some (wallets, balances)
    | _ => none

def verifiedWallets (log : List Event) : List SigningKey :=
  (verifications log).flatMap fun (wallets, balances) => emptyWallets wallets balances

def todayAt (env : Env) (w : World) : Option String :=
  (env.clock w.tick).bind fun secs => formatYmd (secs.toNat / 86400)

theorem emptyWallets_of_unstranded {toCheck : List (String × SigningKey)}
    (h : strandedWallets (toCheck.map Prod.fst) balances = [])
    (hlen : toCheck.length ≤ balances.length) :
    emptyWallets (toCheck.map Prod.snd) balances = toCheck.map Prod.snd := by
  induction toCheck generalizing balances with
  | nil => rfl
  | cons p toCheck ih =>
    cases balances with
    | nil => simp at hlen
    | cons balance balances =>
      have hrest : strandedWallets (toCheck.map Prod.fst) balances = [] := by
        rw [strandedWallets] at h
        exact (List.filterMap_eq_nil_iff.2 fun x hx =>
          List.filterMap_eq_nil_iff.1 h x (List.mem_cons_of_mem _ hx))
      have hempty : balance = none ∨ balance = some 0 := by
        cases balance with
        | none => exact .inl rfl
        | some lamports =>
          have hx := List.filterMap_eq_nil_iff.1 h (p.1, some lamports) List.mem_cons_self
          by_cases hz : lamports = 0
          · exact .inr (congrArg some hz)
          · simp [hz] at hx
      have htail := ih hrest (Nat.le_of_succ_le_succ hlen)
      rw [emptyWallets] at htail ⊢
      rcases hempty with rfl | rfl <;> simpa using htail

theorem PassedGate.verified (h : PassedGate kp log)
    (hlen : ∀ v ∈ verifications log, v.1.length ≤ v.2.length) : kp ∈ verifiedWallets log := by
  obtain ⟨toCheck, hkp, balances, hmem, hstranded⟩ := h
  have hv : (toCheck.map Prod.snd, balances) ∈ verifications log :=
    List.mem_filterMap.2 ⟨_, hmem, rfl⟩
  have hle : toCheck.length ≤ balances.length := by simpa using hlen _ hv
  refine List.mem_flatMap.2 ⟨_, hv, ?_⟩
  dsimp only
  rwa [emptyWallets_of_unstranded hstranded hle]

theorem triple_todayAt (env : Env) (w : World) :
    Triple env (· = w) today
      (fun day s => todayAt env w = some day ∧ s.disk = w.disk ∧ s.log = w.log ++ [.today day])
      (fun s => s.disk = w.disk ∧ s.log = w.log) := by
  refine Triple.bind (Q := fun clock s => clock = env.clock w.tick ∧ s.disk = w.disk ∧
    s.log = w.log) ?_ fun clock => ?_
  · rintro s rfl
    exact ⟨rfl, rfl, rfl⟩
  rintro s ⟨rfl, hdisk, hlog⟩
  cases hclock : env.clock w.tick with
  | none => exact ⟨hdisk, hlog⟩
  | some secs =>
    dsimp only
    cases hday : formatYmd (secs.toNat / 86400) with
    | none => exact ⟨hdisk, hlog⟩
    | some day =>
      refine ⟨?_, hdisk, congrArg (fun log => log ++ [Event.today day]) hlog⟩
      rw [todayAt, hclock]
      exact hday

section Prepare
variable [Ed25519] {env : Env} {cfg : Config} {w : World} {kps : List SigningKey}

def Event.removedKey : Event → Option SigningKey
  | .removed _ bytes => keyOf bytes
  | _ => none

/-- If the event is the removal of a key file, then the key is one of these. -/
def RemovesOnly (kps : List SigningKey) (e : Event) : Prop := ∀ kp ∈ e.removedKey, kp ∈ kps

/-- What lies in the files of a day's directory that recycling clears. -/
def ClearsOnly (kps : List SigningKey) (dir : Path) (disk : Tree) : Prop :=
  ∀ name kp, isJson name → keyAt disk (name :: dir) = some kp → kp ∈ kps

/-- Where recycling starts in `w`, the verification had an answer for each wallet, the funder's file
is none of the batch's, and the directory of the day that the clock then shows holds no other keys
than those that the batch was loaded from. -/
structure Recyclable (cfg : Config) (env : Env) (r : Resolved) (w : World) : Prop where
  answered : ∀ v ∈ verifications w.log, v.1.length ≤ v.2.length
  funder : r.funderOrigin = .loaded → ∀ day, .today day ∈ w.log →
    ApartFrom cfg.keysDir cfg.funderPath day
  batch : r.batchOrigin = .loaded → ∀ funder w' before day,
    recycleFunder cfg r env w = (.ok funder, w') → lastDay w.log = some before →
    todayAt env w' = some day → ∀ name kp, isJson name →
    keyAt w'.disk (name :: day :: cfg.keysDir) = some kp →
    ∃ path ∈ keyPaths (before :: cfg.keysDir) cfg.batchSize, keyAt w.disk path = some kp

theorem ClearsOnly.addDir {disk : Tree} {parent : Path} (hd : disk.IsDir parent)
    (hnew : disk.lookup (name :: parent) = none) (h : ClearsOnly kps dir disk) :
    ClearsOnly kps dir (disk.add name parent .dir hd hnew) := by
  intro file kp hjson hkey
  refine h file kp hjson ?_
  by_cases hp : file :: dir = name :: parent
  · rw [hp, keyAt, Tree.lookup_add_self hd hnew] at hkey
    cases hkey
  · rwa [keyAt, Tree.lookup_add_of_ne hd hnew hp] at hkey

theorem ClearsOnly.removeFile {disk : Tree} {removed : Path}
    (hf : disk.lookup removed = some (.file bytes)) (h : ClearsOnly kps dir disk) :
    ClearsOnly kps dir (disk.removeFile removed hf) := by
  intro file kp hjson hkey
  refine h file kp hjson ?_
  by_cases hp : file :: dir = removed
  · rw [hp, keyAt, Tree.lookup_removeFile_self hf] at hkey
    cases hkey
  · rwa [keyAt, Tree.lookup_removeFile_of_ne hf hp] at hkey

theorem triple_createFresh_removesOnly (base : List Event) (dir : Path) (count : Nat) :
    Triple env
      (on fun disk log => Since base (RemovesOnly kps) disk log ∧ ClearsOnly kps dir disk)
      (createFresh dir count) (fun _ => on (Since base (RemovesOnly kps)))
      (on (Since base (RemovesOnly kps))) := by
  have hstable : (Since base (RemovesOnly kps)).AddStable := since_addStable
  refine (triple_createFresh count ?_ (fun name hjson => ?_) (fun _ _ hw => hw.1) hstable
    (fun _ hw => hw.1) fun _ hw => hw).conseq (fun _ hw => hw) (fun _ _ hw => hw.1.1) fun _ hw => hw
  · exact fun _ log name parent hd hnew hw => ⟨hw.1, hw.2.addDir hd hnew⟩
  · intro disk log bytes hf hw
    refine ⟨hw.1.concat ?_, hw.2.removeFile hf⟩
    exact fun kp hkp => hw.2 name kp hjson ((keyAt_of_file hf).trans hkp)

theorem triple_regenerateToday_removesOnly {base : List Event} {keysDir : Path} (count : Nat)
    (hlog : Since base (RemovesOnly kps) w.disk w.log)
    (hclear : ∀ day, todayAt env w = some day → ClearsOnly kps (day :: keysDir) w.disk) :
    Triple env (· = w) (regenerateToday keysDir count) (fun _ => on (Since base (RemovesOnly kps)))
      (on (Since base (RemovesOnly kps))) := by
  refine Triple.bind (Q := fun dir => on fun disk log => Since base (RemovesOnly kps) disk log ∧
    ClearsOnly kps dir disk) ?_ fun dir => triple_createFresh_removesOnly base dir count
  refine Triple.bind ((triple_todayAt env w).conseq (fun _ hw => hw) (fun _ _ hw => hw) ?_)
    fun day => Triple.pure ?_
  · rintro s ⟨-, hs⟩
    rw [on, hs]
    exact hlog
  · rintro s ⟨hday, hdisk, hs⟩
    rw [on, hdisk, hs]
    have hquiet : RemovesOnly kps (.today day) := by
      intro kp hkp
      cases hkp
    exact ⟨hlog.concat hquiet, hclear day hday⟩

theorem triple_regenerate_removesOnly {path : Path}
    (hkey : ∀ kp, keyAt w.disk path = some kp → kp ∈ kps) :
    Triple env (· = w) (Singleton.regenerate path) (fun _ => on (Since w.log (RemovesOnly kps)))
      (on (Since w.log (RemovesOnly kps))) := by
  let same : Cond := fun disk log => disk = w.disk ∧ log = w.log
  have hsame : ∀ disk log, same disk log → Since w.log (RemovesOnly kps) disk log := by
    rintro disk log ⟨rfl, rfl⟩
    exact since_self _ _ _
  have hrem : same.Removes (Since w.log (RemovesOnly kps)) path := by
    rintro disk log bytes hf ⟨rfl, rfl⟩
    exact (since_self _ _ w.disk).concat fun kp hkp => hkey kp ((keyAt_of_file hf).trans hkp)
  refine (triple_regenerate hrem hsame since_addStable (fun s hs => hsame _ _ hs)
    fun _ hs => hs).conseq ?_ (fun _ _ hs => hs.1) fun _ hs => hs
  rintro s rfl
  exact ⟨rfl, rfl⟩

theorem mem_of_holdKeys {disk : Tree} {dir path : Path} (hlen : kps.length = count)
    (h : HoldKeys dir kps disk) (hpath : path ∈ keyPaths dir count)
    (hkey : keyAt disk path = some kp) : kp ∈ kps := by
  obtain ⟨i, hi⟩ := List.mem_iff_getElem?.1 hpath
  have hlt : i < kps.length := by
    have hi' := (List.getElem?_eq_some_iff.1 hi).1
    rwa [length_keyPaths, ← hlen] at hi'
  have hkey' := h i _ (List.getElem?_eq_getElem hlt)
  rw [← keyPaths_getElem? dir count i hi, hkey] at hkey'
  rw [Option.some.inj hkey']
  exact List.getElem_mem hlt

theorem keeps_fund_removesOnly (base : List Event) (p : Prepared) :
    Keeps env (on (Since base (RemovesOnly kps))) (fund cfg p) := by
  have hsent (purpose : Purpose) (recipients : List (Pubkey × UInt64)) (tx : List UInt8)
      (disk : Tree) : RemovesOnly kps (.sent purpose recipients tx disk) :=
    fun kp hkp => nomatch hkp
  refine Keeps.bind (keeps_eaterToFunder (.inr fun disk log tx hw => hw.concat (hsent _ _ _ _)))
    fun _ => ?_
  exact keeps_funderToChildren (.inr fun recipients _ disk log tx hw => hw.concat (hsent _ _ _ _))

/-- From the recycling on, only the keys of verified wallets are removed. -/
theorem prepare_removes_verified (hdebug : cfg.debug = false)
    (hsettle : settle cfg env (.init disk) = (.ok (r, assigner), w))
    (hsafe : Recyclable cfg env r w) :
    ∃ more, (prepare cfg env (.init disk)).2.log = w.log ++ more ∧
      ∀ kp ∈ more.filterMap Event.removedKey, kp ∈ verifiedWallets w.log := by
  let kps := verifiedWallets w.log
  let recycled : World → Prop := on (Since w.log (RemovesOnly kps))
  have hsettled := triple_settle (D := fun _ _ => True) cfg env
    ⟨fun _ _ _ _ _ _ _ h => h, fun _ _ _ _ h => h, fun _ _ _ _ _ _ _ _ => trivial⟩
    (.inr fun _ _ _ _ h => h) (.inr fun _ _ _ _ h => h) (.init disk) trivial
  rw [hsettle] at hsettled
  obtain ⟨⟨-, -, hfunder, -, hlen, before, hbefore, -, hbatch⟩, -, hpassed⟩ := hsettled
  obtain ⟨hpassedFunder, hpassedBatch⟩ := hpassed hdebug
  have hstart : recycled w := since_self _ _ _
  have hfunderRun : Triple env (· = w) (recycleFunder cfg r) (fun _ => recycled) recycled := by
    rw [recycleFunder]
    split
    · rename_i h
      have hloaded : r.funderOrigin = .loaded := by simpa [hdebug] using h
      apply triple_regenerate_removesOnly
      intro kp hkp
      obtain rfl : r.funder = kp :=
        Option.some.inj ((hfunder (hsafe.funder hloaded)).symm.trans hkp)
      exact (hpassedFunder hloaded).verified hsafe.answered
    · exact Triple.pure fun s hs => hs ▸ hstart
  have hbatchRun (funder : SigningKey) (w' : World) (hw' : recycled w')
      (hrun : recycleFunder cfg r env w = (.ok funder, w')) :
      Triple env (· = w') (recycleBatch cfg r) (fun _ => recycled) recycled := by
    rw [recycleBatch]
    split
    · rename_i h
      have hloaded : r.batchOrigin = .loaded := by simpa [hdebug] using h
      apply triple_regenerateToday_removesOnly cfg.batchSize hw'
      intro day hday name kp hjson hkp
      obtain ⟨path, hpath, hkey⟩ :=
        hsafe.batch hloaded funder w' before day hrun hbefore hday name kp hjson hkp
      have hmem := mem_of_holdKeys hlen hbatch hpath hkey
      exact (hpassedBatch hloaded kp hmem).verified hsafe.answered
    · exact Triple.pure fun s hs => hs ▸ hw'
  have hrest : Triple env (· = w) (do
      let funder ← recycleFunder cfg r
      let children ← recycleBatch cfg r
      let p := ⟨r.eater, funder, r.dev, children, assigner⟩
      fund cfg p
      pure p) (fun _ => recycled) recycled := by
    apply Triple.bind hfunderRun.of_run
    intro funder
    rintro w' ⟨hw', hrun⟩
    refine Triple.bind (hbatchRun funder w' hw' hrun) (fun children => ?_) w' rfl
    exact Triple.bind (keeps_fund_removesOnly w.log _) fun _ => Triple.pure fun _ hw => hw
  have hprepare : prepare cfg env (.init disk) = _ := bind_run_ok hsettle
  rw [hprepare]
  obtain ⟨more, hmore, honly⟩ := (hrest w rfl).state
  refine ⟨more, hmore, fun kp hkp => ?_⟩
  obtain ⟨e, he, hkey⟩ := List.mem_filterMap.1 hkp
  exact honly e he kp hkey

end Prepare

def sampleKeys : Tree :=
  ((sampleBatch (@keyFile .sample (.replicate 32 1))).add "funder" ["keys"] .dir (.inr rfl) rfl).add
    "key.json" ["funder", "keys"] (.file (@keyFile .sample (.replicate 32 2))) (.inr rfl) rfl

def sampleConfig : Config := { eaterAmount := 0, batchSize := 1 }

def sampleEnv : Env :=
  { Env.calm 0 (.replicate 32 3) with balance := fun _ _ => .error ["connection refused"] }

def sampleResolved : Resolved where
  eater := .replicate 32 3
  funder := .replicate 32 2
  funderOrigin := .loaded
  dev := .replicate 32 3
  children := [.replicate 32 1]
  batchOrigin := .loaded

theorem sampleKeys_settle :
    let w := (@settle .sample sampleConfig sampleEnv (.init sampleKeys)).2
    let w' := (@recycleFunder .sample sampleConfig sampleResolved sampleEnv w).2
    (@settle .sample sampleConfig sampleEnv (.init sampleKeys)).1 =
        .ok (sampleResolved, ⟨[none]⟩) ∧
      (∀ v ∈ verifications w.log, v.1.length ≤ v.2.length) ∧
      w.log.filterMap Event.day? = ["1970-01-01"] ∧
      todayAt sampleEnv w' = some "1970-01-01" ∧
      w'.disk.entries ["1970-01-01", "keys"] = ["1.json"] ∧
      w'.disk.lookup ["1.json", "1970-01-01", "keys"] =
        w.disk.lookup ["1.json", "1970-01-01", "keys"] := by
  decide +kernel

theorem sampleKeys_recyclable :
    @Recyclable .sample sampleConfig sampleEnv sampleResolved
      (@settle .sample sampleConfig sampleEnv (.init sampleKeys)).2 := by
  obtain ⟨-, hanswered, hdays, htoday, hentries, hsame⟩ := sampleKeys_settle
  generalize (@settle .sample sampleConfig sampleEnv (.init sampleKeys)).2 = w at *
  refine @Recyclable.mk .sample _ _ _ _ hanswered ?_ ?_
  · intro _ day hday name _ hpath
    have hfunder : "funder" = day := (List.cons.inj (List.cons.inj hpath).2).1
    have hmem : day ∈ w.log.filterMap Event.day? := List.mem_filterMap.2 ⟨_, hday, rfl⟩
    rw [hdays, List.mem_singleton, ← hfunder] at hmem
    exact absurd hmem (by decide)
  · intro _ funder w' before day hrun hbefore hday name kp _ hkey
    rw [hrun] at htoday hentries hsame
    dsimp only at htoday hentries hsame
    obtain rfl := Option.some.inj (htoday.symm.trans hday)
    rw [lastDay, hdays] at hbefore
    obtain rfl := Option.some.inj hbefore
    have hname : name = "1.json" := by
      have hmem : name ∈ w'.disk.entries ["1970-01-01", "keys"] :=
        Tree.mem_entries.2 (@isSome_of_keyAt .sample _ _ _ hkey)
      rw [hentries] at hmem
      exact List.mem_singleton.1 hmem
    subst hname
    refine ⟨_, List.mem_singleton.2 rfl, ?_⟩
    exact (@keyAt_congr .sample _ _ _ hsame).symm.trans hkey

theorem prepare_removes_verified_sample :
    ∃ more, (@prepare .sample sampleConfig sampleEnv (.init sampleKeys)).2.log =
        (@settle .sample sampleConfig sampleEnv (.init sampleKeys)).2.log ++ more ∧
      ∀ kp ∈ more.filterMap (@Event.removedKey .sample),
        kp ∈ verifiedWallets (@settle .sample sampleConfig sampleEnv (.init sampleKeys)).2.log :=
  @prepare_removes_verified .sample sampleEnv sampleConfig _ _ _ _ rfl
    (run_eq sampleKeys_settle.1) sampleKeys_recyclable

def sampleSurplus : Tree :=
  (sampleBatch (@keyFile .sample (.replicate 32 1))).add "2.json" ["1970-01-01", "keys"]
    (.file (@keyFile .sample (.replicate 32 2))) (.inr rfl) rfl

theorem sampleSurplus_prepare :
    let w := (@settle .sample sampleConfig sampleEnv (.init sampleSurplus)).2
    (@settle .sample sampleConfig sampleEnv (.init sampleSurplus)).1 =
        .ok (⟨.replicate 32 3, .replicate 32 3, .created, .replicate 32 3, [.replicate 32 1],
          .loaded⟩, ⟨[none]⟩) ∧
      w.log.filterMap (@Event.removedKey .sample) = [] ∧
      verifiedWallets w.log = [.replicate 32 1] ∧
      .replicate 32 2 ∈ (@prepare .sample sampleConfig sampleEnv
        (.init sampleSurplus)).2.log.filterMap (@Event.removedKey .sample) := by
  decide +kernel

/-- A key file beyond the batch size is removed unseen. -/
theorem prepare_removes_unverified :
    ¬∀ (cfg : Config) (env : Env) (disk : Tree) (r : Resolved) (assigner : Assigner) (w : World),
      cfg.debug = false → @settle .sample cfg env (.init disk) = (.ok (r, assigner), w) →
      ∃ more, (@prepare .sample cfg env (.init disk)).2.log = w.log ++ more ∧
        ∀ kp ∈ more.filterMap (@Event.removedKey .sample), kp ∈ verifiedWallets w.log := by
  intro hall
  obtain ⟨hsettle, hbefore, hverified, hremoved⟩ := sampleSurplus_prepare
  obtain ⟨more, hlog, honly⟩ := hall sampleConfig sampleEnv sampleSurplus _ _ _ rfl (run_eq hsettle)
  rw [hlog, List.filterMap_append, hbefore, List.nil_append] at hremoved
  have hmem := honly _ hremoved
  rw [hverified] at hmem
  exact absurd hmem (by decide)

end TokenPumper
