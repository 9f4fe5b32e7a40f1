import TokenPumper.Files
import TokenPumper.Leaders.Classified

namespace TokenPumper
open Effect FileTree
set_option autoImplicit true

/-- `serde_json` on the cache's documents. -/
class LeaderJson where
  print : EpochLeaderMapFile → List Char
  parse : List Char → Except String EpochLeaderMapWire

/-- What comes back to one start of the program over the network. -/
structure LeaderAnswers where
  epochInfo : Reply EpochInfo
  schedule : Reply Schedule
  vote : Reply VoteAccountsResult
  vapp : Reply VAppResponse

def LeaderAnswers.fetched (answers : LeaderAnswers) (epochInfo : EpochInfo) : Reply Fetched := do
  let schedule ← answers.schedule
  let vote ← answers.vote
  let vapp ← answers.vapp
  pure { epochInfo, schedule, vote, vapp }

section Program
variable [LeaderJson] [Base58]

/-- `build_and_write` up to the bytes that it writes. -/
def leaderDocument (answers : LeaderAnswers) (epochInfo : EpochInfo) (outPath : Path) :
    Run (List UInt8) := do
  let fetched ← lift ((answers.fetched epochInfo).mapError .error)
  let now ← ask (·.clock)
  let file ← lift (fetched.file (now.getD 0))
  match outPath with
  | [] => pure ()
  | _ :: parent => withContext s!"creating cache dir {display parent}" (createDirAll parent)
  pure (Text.toUtf8 (LeaderJson.print file))

def buildAndWrite (answers : LeaderAnswers) (epochInfo : EpochInfo) (outPath : Path) :
    Run Unit := do
  let serialized ← leaderDocument answers epochInfo outPath
  withContext s!"writing leader cache {display outPath}" (writeFile outPath serialized)

def EpochLeaderMap.loadFromFile (path : Path) : Run EpochLeaderMap := do
  let raw ← withContext s!"reading leader cache {display path}" (readToString path)
  let wire ← withContext s!"parsing leader cache {display path}"
    (lift ((LeaderJson.parse raw).mapError fun cause => .error [cause]))
  lift ((fromWire wire (display path)).mapError fun cause => .error [cause])

def cachePath (cacheDir : Path) (epoch : UInt64) : Path :=
  s!"leaders-epoch-{epoch}.json" :: cacheDir

/-- Fetch the cache if its file is missing. The token is sent with the request to
validators.app. -/
def ensureCache (answers : LeaderAnswers) (validatorsAppToken : Option String)
    (epochInfo : EpochInfo) (path : Path) : Run Unit := do
  let there ← fileExists path
  if there then pure ()
  else
    match validatorsAppToken with
    | none => bail <| s!"leader cache {display path} missing and validators_app_token not set in " ++
        "config.toml"
    | some _ =>
      withContext s!"building leader cache at {display path}" <|
        buildAndWrite answers epochInfo path

def LeaderCache.bootstrap (answers : LeaderAnswers) (validatorsAppToken : Option String)
    (cacheDir : Path) (focusCountry : String) : Run LeaderCache := do
  let epochInfo ← withContext "getEpochInfo" (lift (answers.epochInfo.mapError .error))
  let path := cachePath cacheDir epochInfo.epoch
  ensureCache answers validatorsAppToken epochInfo path
  let map ← withContext s!"loading leader cache {display path}" (EpochLeaderMap.loadFromFile path)
  pure (map.cacheFor focusCountry)

end Program

/-- What is relied on of `serde_json` for a document: it reads as what was written, and no
beginning of it reads as a document. -/
structure LeaderJson.Reliable [LeaderJson] (file : EpochLeaderMapFile) : Prop where
  reads : parse (print file) = .ok file.wire
  whole : ∀ bytes, bytes <+: Text.toUtf8 (print file) → bytes ≠ Text.toUtf8 (print file) →
    ∀ text, Text.ofUtf8 bytes = some text → ∀ wire, parse text ≠ .ok wire

/-- Surroundings in which no call of the file system fails. -/
structure Healthy (env : Env) : Prop where
  stat : ∀ t, env.statFails t = false
  io : ∀ t, env.ioFault t = none

theorem ensureCache_there [LeaderJson] {env : Env} {w : World}
    (hstat : env.statFails w.tick = false) (hfile : (w.disk.lookup path).isSome) :
    ensureCache answers token info path env w = (.ok (), { w with tick := w.tick + 1 }) := by
  unfold ensureCache
  rw [bind_run_ok fileExists_run, hstat, hfile]
  rfl

section Later
variable [LeaderJson] [Base58]

def HoldsCache (path : Path) (bytes : List UInt8) : Prop :=
  ∃ text wire map, Text.ofUtf8 bytes = some text ∧ LeaderJson.parse text = .ok wire ∧
    EpochLeaderMap.fromWire wire (display path) = .ok map

def CacheFine (path : Path) (disk : Tree) : Prop :=
  disk.lookup path = none ∨ ∃ bytes, disk.lookup path = some (.file bytes) ∧ HoldsCache path bytes

/-- Every later start of the epoch in healthy surroundings finds no file, or gets its cache. -/
def LaterStarts (cacheDir : Path) (epoch : UInt64) (disk : Tree) : Prop :=
  ∀ (answers : LeaderAnswers) (token : Option String) (focus : String) (env : Env) (w : World)
    (info : EpochInfo), Healthy env → w.disk = disk → answers.epochInfo = .ok info →
    info.epoch = epoch →
    disk.lookup (cachePath cacheDir epoch) = none ∨
      ∃ cache w', LeaderCache.bootstrap answers token cacheDir focus env w = (.ok cache, w')

theorem loadFromFile_run {env : Env} {w : World} (hio : env.ioFault w.tick = none)
    (hfile : w.disk.lookup path = some (.file bytes)) (h : HoldsCache path bytes) :
    ∃ map w', EpochLeaderMap.loadFromFile path env w = (.ok map, w') := by
  obtain ⟨text, wire, map, htext, hwire, hmap⟩ := h
  refine ⟨map, { w with tick := w.tick + 1 }, ?_⟩
  rw [EpochLeaderMap.loadFromFile,
    bind_run_ok (withContext_run_ok (readToString_run hio hfile htext)), hwire]
  rw [bind_run_ok (withContext_run_ok rfl), hmap]
  rfl

theorem keeps_loadFromFile {env : Env} {D : Cond} :
    Keeps env (on D) (EpochLeaderMap.loadFromFile path) := by
  have hread : Keeps env (on D) (readToString path) :=
    (triple_readToString fun w hw => hw).conseq (fun w hw => hw) (fun _ w hw => hw.1) fun w hw => hw
  apply Keeps.bind (triple_withContext hread)
  intro raw
  apply Keeps.bind (triple_withContext Keeps.lift)
  exact fun wire => Keeps.lift

theorem holdsCache_of_loadFromFile {env : Env} {w : World}
    (h : EpochLeaderMap.loadFromFile path env w = (.ok map, w')) :
    ∃ bytes, w.disk.lookup path = some (.file bytes) ∧ HoldsCache path bytes := by
  obtain ⟨text, w₁, hread, h⟩ := bind_run_eq_ok h
  obtain ⟨wire, w₂, hparse, h⟩ := bind_run_eq_ok h
  obtain ⟨-, bytes, hfile, htext⟩ := readToString_eq_ok (withContext_run_eq_ok hread)
  obtain ⟨hwire, -⟩ := lift_mapError_eq_ok (withContext_run_eq_ok hparse)
  obtain ⟨hmap, -⟩ := lift_mapError_eq_ok h
  exact ⟨bytes, hfile, text, wire, map, htext, hwire, hmap⟩

theorem bootstrap_eq (hinfo : answers.epochInfo = .ok info) :
    LeaderCache.bootstrap answers token cacheDir focus env w =
      (do
        let path := cachePath cacheDir info.epoch
        ensureCache answers token info path
        let map ← withContext s!"loading leader cache {display path}"
          (EpochLeaderMap.loadFromFile path)
        pure (map.cacheFor focus) : Run LeaderCache) env w := by
  have hrun : withContext "getEpochInfo" (lift (answers.epochInfo.mapError .error)) env w =
      (.ok info, w) := by
    rw [hinfo]
    rfl
  rw [LeaderCache.bootstrap, bind_run_ok hrun]

theorem laterStarts_iff {answers : LeaderAnswers} (hinfo : answers.epochInfo = .ok info)
    (env : Env) (disk : Tree) :
    LaterStarts cacheDir info.epoch disk ↔ CacheFine (cachePath cacheDir info.epoch) disk := by
  constructor
  · intro h
    let healthy : Env := { env with statFails := fun _ => false, ioFault := fun _ => none }
    have hlater := h answers none "" healthy (.init disk) info ⟨fun _ => rfl, fun _ => rfl⟩ rfl
      hinfo rfl
    cases hfile : disk.lookup (cachePath cacheDir info.epoch) with
    | none => exact .inl hfile
    | some node =>
      obtain ⟨cache, w', hrun⟩ := hlater.resolve_left (by rw [hfile]; exact Option.some_ne_none node)
      rw [bootstrap_eq hinfo] at hrun
      have hthere : ((World.init disk).disk.lookup (cachePath cacheDir info.epoch)).isSome := by
        rw [World.init, hfile]
        rfl
      obtain ⟨_, w₁, hensure, hrun⟩ := bind_run_eq_ok hrun
      rw [ensureCache_there rfl hthere] at hensure
      obtain ⟨-, rfl⟩ := Prod.mk.inj hensure
      obtain ⟨map, w₂, hload, -⟩ := bind_run_eq_ok hrun
      exact .inr (hfile ▸ holdsCache_of_loadFromFile (withContext_run_eq_ok hload))
  · intro h answers token focus env w info' hhealthy hdisk hinfo' hepoch
    apply h.imp_right
    intro h
    obtain ⟨bytes, hfile, hholds⟩ := h
    subst hdisk
    rw [← hepoch] at hfile hholds
    have hensure : ensureCache answers token info' (cachePath cacheDir info'.epoch) env w = _ :=
      ensureCache_there (hhealthy.stat w.tick) (by rw [hfile]; rfl)
    obtain ⟨map, w', hload⟩ := loadFromFile_run (w := { w with tick := w.tick + 1 })
      (hhealthy.io _) hfile hholds
    refine ⟨map.cacheFor focus, w', ?_⟩
    rw [bootstrap_eq hinfo', bind_run_ok hensure, bind_run_ok (withContext_run_ok hload)]
    rfl

end Later

section Write
variable [LeaderJson]

/-- A start fetches the cache and comes to the write of these bytes. -/
structure ReachesWrite (answers : LeaderAnswers) (token : Option String) (info : EpochInfo)
    (path : Path) (env : Env) (w : World) (bytes : List UInt8) (w' : World) : Prop where
  missing : env.statFails w.tick = true ∨ w.disk.lookup path = none
  token : token.isSome
  document : leaderDocument answers info path env { w with tick := w.tick + 1 } = (.ok bytes, w')

/-- What the bytes of a document are made from. -/
structure FromAnswers (answers : LeaderAnswers) (info : EpochInfo) (env : Env)
    (bytes : List UInt8) (f : Fetched) (file : EpochLeaderMapFile) (t : Nat) : Prop where
  fetched : answers.fetched info = .ok f
  file_eq : f.file ((env.clock t).getD 0) = .ok file
  bytes_eq : bytes = Text.toUtf8 (LeaderJson.print file)

theorem triple_leaderDocument {env : Env} (x : Option Node) :
    Triple env (on fun disk _ => disk.lookup (name :: dir) = x)
      (leaderDocument answers info (name :: dir))
      (fun bytes => on fun disk _ => (disk.lookup (name :: dir) = x ∧ disk.IsDir dir) ∧
        ∃ f file t, FromAnswers answers info env bytes f file t)
      (on fun disk _ => disk.lookup (name :: dir) = x) := by
  let D : Cond := fun disk _ => disk.lookup (name :: dir) = x
  apply Triple.bind (Q := fun f s => on D s ∧ answers.fetched info = .ok f)
  · apply Triple.lift
    · exact fun f hf s hs => ⟨hs, Fallible.mapError_eq_ok hf⟩
    · exact fun s hs => hs
  intro f
  apply Triple.assume
  intro hfetched
  apply Triple.bind (Q := fun now s => on D s ∧ ∃ t, now = env.clock t)
  · exact fun s hs => ⟨hs, s.tick, rfl⟩
  intro now
  apply Triple.assume
  intro hnow
  obtain ⟨t, rfl⟩ := hnow
  apply Triple.bind (Q := fun file s => on D s ∧ f.file ((env.clock t).getD 0) = .ok file)
  · apply Triple.lift
    · exact fun file hfile s hs => ⟨hs, hfile⟩
    · exact fun s hs => hs
  intro file
  apply Triple.assume
  intro hfile
  apply Triple.bind
  · apply triple_withContext
    apply triple_createDirAll_of dir _ fun w hw => hw
    intro name' dir' hsuffix disk log hd hnew hlookup
    have hne : name :: dir ≠ name' :: dir' := by
      intro heq
      have hlen := hsuffix.length_le
      rw [← heq, List.length_cons] at hlen
      omega
    exact (Tree.lookup_add_of_ne hd hnew hne).trans hlookup
  · intro _
    apply Triple.pure
    exact fun s hs => ⟨hs, f, file, t, hfetched, hfile, rfl⟩

theorem ensureCache_reaches (h : ReachesWrite answers token info path env w bytes w') :
    (ensureCache answers token info path env w).2 = (writeFile path bytes env w').2 := by
  have hmissing : fileExists path env w = (.ok false, { w with tick := w.tick + 1 }) := by
    rw [fileExists_run]
    rcases h.missing with hstat | hnone
    · rw [hstat]
      rfl
    · rw [hnone, Option.isSome_none, Bool.and_false]
  obtain ⟨token, rfl⟩ := Option.isSome_iff_exists.1 h.token
  unfold ensureCache
  rw [bind_run_ok hmissing]
  change (withContext _ (buildAndWrite answers info path) env _).2 = _
  rw [withContext_run_disk, buildAndWrite, bind_run_ok h.document, withContext_run_disk]

theorem ensureCache_stays {env : Env}
    (h : ∀ bytes w', ¬ ReachesWrite answers token info (name :: dir) env w bytes w') :
    (ensureCache answers token info (name :: dir) env w).2.disk.lookup (name :: dir) =
      w.disk.lookup (name :: dir) := by
  unfold ensureCache
  rw [bind_run_ok fileExists_run]
  split
  · rfl
  · rename_i hthere
    cases token with
    | none => rfl
    | some token =>
      have hmissing : env.statFails w.tick = true ∨ w.disk.lookup (name :: dir) = none := by
        simpa [or_iff_not_imp_left] using hthere
      change (withContext _ (buildAndWrite answers info (name :: dir)) env _).2.disk.lookup _ = _
      have hdoc : Post _ _ (leaderDocument answers info (name :: dir) env _) :=
        triple_leaderDocument (w.disk.lookup (name :: dir)) { w with tick := w.tick + 1 } rfl
      rw [withContext_run_disk, buildAndWrite]
      cases hrun : leaderDocument answers info (name :: dir) env { w with tick := w.tick + 1 } with
      | mk res w' =>
        cases res with
        | ok bytes => exact absurd ⟨hmissing, rfl, hrun⟩ (h bytes w')
        | error e =>
          rw [bind_run_error hrun]
          rw [hrun] at hdoc
          exact hdoc

end Write

section Survives
variable [LeaderJson] [Base58]

theorem lookup_bootstrap {env : Env} (hinfo : answers.epochInfo = .ok info) :
    (LeaderCache.bootstrap answers token cacheDir focus env w).2.disk =
      (ensureCache answers token info (cachePath cacheDir info.epoch) env w).2.disk := by
  rw [bootstrap_eq hinfo]
  cases hrun : ensureCache answers token info (cachePath cacheDir info.epoch) env w with
  | mk res w' =>
    cases res with
    | error e => rw [bind_run_error hrun]
    | ok u =>
      rw [bind_run_ok hrun]
      have hload : Keeps env (on fun disk _ => disk = w'.disk) (do
          let map ← withContext s!"loading leader cache {display (cachePath cacheDir info.epoch)}"
            (EpochLeaderMap.loadFromFile (cachePath cacheDir info.epoch))
          pure (map.cacheFor focus) : Run LeaderCache) :=
        Keeps.bind (triple_withContext keeps_loadFromFile) fun map => Keeps.pure
      exact (hload w' rfl).state

theorem FromAnswers.holds_iff {env : Env} (h : FromAnswers answers info env bytes f file t)
    (hjson : LeaderJson.Reliable file) (path : Path) : HoldsCache path bytes ↔ f.Loads := by
  obtain ⟨regions, clients, hmade⟩ := f.made h.file_eq
  rw [← hmade.loads_iff (display path), h.bytes_eq]
  constructor
  · intro hholds
    obtain ⟨text, wire, map, htext, hwire, hmap⟩ := hholds
    rw [Text.ofUtf8_toUtf8] at htext
    obtain rfl := Option.some.inj htext
    rw [hjson.reads] at hwire
    obtain rfl := Except.ok.inj hwire
    exact ⟨map, hmap⟩
  · intro hmap
    obtain ⟨map, hmap⟩ := hmap
    exact ⟨_, _, map, Text.ofUtf8_toUtf8 _, hjson.reads, hmap⟩

theorem not_holds_of_torn (h : bytes = Text.toUtf8 (LeaderJson.print file))
    (hjson : LeaderJson.Reliable file) (hlen : n < bytes.length) :
    ¬ HoldsCache path (bytes.take n) := by
  intro hholds
  obtain ⟨text, wire, map, htext, hwire, -⟩ := hholds
  have hne : bytes.take n ≠ bytes := by
    intro heq
    have hshort := congrArg List.length heq
    rw [List.length_take] at hshort
    omega
  rw [h] at hne htext
  exact hjson.whole _ (List.take_prefix ..) hne text htext wire hwire

theorem FromAnswers.holds_written_iff {env : Env} (h : FromAnswers answers info env bytes f file t)
    (hjson : LeaderJson.Reliable file) (path : Path) (fault : Option String) (kept : Nat) :
    HoldsCache path (if fault = none then bytes else bytes.take kept) ↔
      (fault = none ∨ bytes.length ≤ kept) ∧ f.Loads := by
  by_cases hwhole : fault = none ∨ bytes.length ≤ kept
  · have hbytes : (if fault = none then bytes else bytes.take kept) = bytes := by
      split
      · rfl
      · rename_i hfault
        exact List.take_of_length_le (hwhole.resolve_left hfault)
    rw [hbytes, h.holds_iff hjson, and_iff_right hwhole]
  · rw [not_or, not_le] at hwhole
    rw [if_neg hwhole.1]
    constructor
    · intro hholds
      exact absurd hholds (not_holds_of_torn h.bytes_eq hjson hwhole.2)
    · intro hfine
      rcases hfine.1 with hfault | hlen
      · exact absurd hfault hwhole.1
      · omega

theorem cacheFine_of_lookup (h : disk'.lookup path = disk.lookup path)
    (hfine : CacheFine path disk) :
    CacheFine path disk' := by
  rw [CacheFine, h]
  exact hfine

theorem cacheFine_file (h : disk.lookup path = some (.file bytes)) :
    CacheFine path disk ↔ HoldsCache path bytes := by
  rw [CacheFine, h]
  constructor
  · intro hfine
    obtain ⟨bytes', hbytes, hholds⟩ := hfine.resolve_left (Option.some_ne_none _)
    obtain rfl := Node.file.inj (Option.some.inj hbytes)
    exact hholds
  · exact fun hholds => .inr ⟨bytes, rfl, hholds⟩

/-- The cache survives a start that stops anywhere, in the sense that every later start of the
epoch gets by, exactly if the start does not come to the write, or the write does not begin, or it
is not cut short and what it writes can be loaded. To stop at some moment is to have every call of
the file system fail from then on. -/
theorem cache_survives_iff {answers : LeaderAnswers} (hinfo : answers.epochInfo = .ok info)
    (token : Option String) (cacheDir : Path) (focus : String) (env : Env) (w : World)
    (hjson : ∀ f t file, answers.fetched info = .ok f →
      f.file ((env.clock t).getD 0) = .ok file → LeaderJson.Reliable file)
    (hfine : LaterStarts cacheDir info.epoch w.disk) :
    LaterStarts cacheDir info.epoch
        (LeaderCache.bootstrap answers token cacheDir focus env w).2.disk ↔
      ∀ bytes w', ReachesWrite answers token info (cachePath cacheDir info.epoch) env w bytes w' →
        env.ioFault w'.tick = none →
        (env.ioFault (w'.tick + 1) = none ∨ bytes.length ≤ env.torn (w'.tick + 2)) ∧
          ∀ f, answers.fetched info = .ok f → f.Loads := by
  rw [laterStarts_iff hinfo env] at hfine ⊢
  rw [lookup_bootstrap hinfo]
  by_cases hreach : ∃ bytes w',
      ReachesWrite answers token info (cachePath cacheDir info.epoch) env w bytes w'
  · obtain ⟨bytes, w', hreach⟩ := hreach
    have hpost : Post _ _ (leaderDocument answers info (cachePath cacheDir info.epoch) env _) :=
      triple_leaderDocument (w.disk.lookup (cachePath cacheDir info.epoch))
        { w with tick := w.tick + 1 } rfl
    rw [hreach.document] at hpost
    obtain ⟨⟨hlookup, hdir⟩, f, file, t, hfrom⟩ := hpost
    have hfile := hjson f t file hfrom.fetched hfrom.file_eq
    have hfine' : CacheFine (cachePath cacheDir info.epoch) w'.disk :=
      cacheFine_of_lookup hlookup hfine
    have hnodir : w'.disk.lookup (cachePath cacheDir info.epoch) ≠ some .dir := by
      rcases hfine' with hnone | hsome
      · rw [hnone]
        exact (Option.some_ne_none _).symm
      · obtain ⟨b, hb, -⟩ := hsome
        rw [hb]
        intro heq
        cases heq
    have hsame : ∀ {b v}, ReachesWrite answers token info (cachePath cacheDir info.epoch) env w b v →
        bytes = b ∧ w' = v := by
      intro b v h
      have heq := hreach.document.symm.trans h.document
      exact ⟨Except.ok.inj (Prod.mk.inj heq).1, (Prod.mk.inj heq).2⟩
    rw [ensureCache_reaches hreach]
    cases hopen : env.ioFault w'.tick with
    | some reason =>
      rw [writeFile_refused hopen]
      constructor
      · intro _ b v h hnone
        obtain ⟨rfl, rfl⟩ := hsame h
        rw [hopen] at hnone
        cases hnone
      · exact fun _ => hfine'
    | none =>
      have hafter : (writeFile (cachePath cacheDir info.epoch) bytes env w').2.disk.lookup
          (cachePath cacheDir info.epoch) = _ := lookup_writeFile hopen hdir hnodir
      rw [cacheFine_file hafter, hfrom.holds_written_iff hfile]
      constructor
      · intro hwritten b v h _
        obtain ⟨rfl, rfl⟩ := hsame h
        constructor
        · exact hwritten.1
        · intro f' hf'
          obtain rfl := Except.ok.inj (hfrom.fetched.symm.trans hf')
          exact hwritten.2
      · intro hall
        obtain ⟨hwhole, hloads⟩ := hall bytes w' hreach hopen
        exact ⟨hwhole, hloads f hfrom.fetched⟩
  · have hnever : ∀ bytes w',
        ¬ ReachesWrite answers token info (cachePath cacheDir info.epoch) env w bytes w' :=
      fun bytes w' h => hreach ⟨bytes, w', h⟩
    constructor
    · exact fun _ bytes w' h => absurd h (hnever bytes w')
    · intro _
      exact cacheFine_of_lookup (ensureCache_stays hnever) hfine

end Survives

def sampleAnswers : LeaderAnswers where
  epochInfo := .ok (sampleFetched "9-DE-Falkenstein").epochInfo
  schedule := .ok (sampleFetched "9-DE-Falkenstein").schedule
  vote := .ok (sampleFetched "9-DE-Falkenstein").vote
  vapp := .ok (sampleFetched "9-DE-Falkenstein").vapp

def sampleFile : EpochLeaderMapFile where
  epoch := 2
  epochStartSlot := 1000
  epochEndSlot := 1002
  slotsInEpoch := 3
  fetchedAtUnixSecs := 1700000000
  regions := ["DE"]
  softwareClients := ["Agave 2.0.4"]
  validators := [
    ⟨"11111111111111111111111111111111", some "11111111111111111111111111111112", some 0, true,
      some 0⟩,
    ⟨"11111111111111111111111111111112", none, none, false, none⟩]
  slots := [0, 255, 0]

/-- `serde_json` on the sample's document. -/
def sampleText : List Char :=
  ("\x7b\"epoch\":2,\"epochStartSlot\":1000,\"epochEndSlot\":1002,\"slotsInEpoch\":3," ++
    "\"fetchedAtUnixSecs\":1700000000,\"regions\":[\"DE\"]," ++
    "\"softwareClients\":[\"Agave 2.0.4\"]," ++
    "\"validators\":[\x7b\"pubkey\":\"11111111111111111111111111111111\"," ++
    "\"votekey\":\"11111111111111111111111111111112\",\"region\":0,\"isDz\":true," ++
    "\"softwareClient\":0\x7d,\x7b\"pubkey\":\"11111111111111111111111111111112\"," ++
    "\"isDz\":false\x7d],\"slots\":[0,255,0]\x7d").toList

def sampleParse (text : List Char) : Except String EpochLeaderMapWire :=
  if text = sampleText then .ok sampleFile.wire
  else .error "EOF while parsing an object at line 1 column 0"

theorem sampleParse_eq_ok (h : sampleParse text = .ok wire) :
    text = sampleText ∧ wire = sampleFile.wire := by
  rw [sampleParse] at h
  split at h
  · rename_i htext
    exact ⟨htext, (Except.ok.inj h).symm⟩
  · cases h

abbrev sampleLeaderJson : LeaderJson where
  print _ := sampleText
  parse := sampleParse

def sampleStart : Env := .calm 1700000000 (.replicate 32 1)

theorem sampleAnswers_reliable {env : Env} (hclock : ∀ t, env.clock t = some 1700000000) :
    ∀ f t file, sampleAnswers.fetched ⟨2, 1, 3, 1001⟩ = .ok f →
      f.file ((env.clock t).getD 0) = .ok file → @LeaderJson.Reliable sampleLeaderJson file := by
  intro f t file hf hfile
  obtain rfl : sampleFetched "9-DE-Falkenstein" = f := Except.ok.inj hf
  have hsample : (sampleFetched "9-DE-Falkenstein").file 1700000000 = .ok sampleFile := by
    decide +kernel
  rw [hclock, Option.getD_some, hsample] at hfile
  obtain rfl := Except.ok.inj hfile
  apply @LeaderJson.Reliable.mk sampleLeaderJson
  · change sampleParse sampleText = .ok sampleFile.wire
    rw [sampleParse, if_pos (Eq.refl sampleText)]
  · intro bytes _ hne text htext wire h
    rw [(sampleParse_eq_ok h).1] at htext
    exact hne (Text.toUtf8_of_ofUtf8 htext).symm

theorem cache_survives_iff_sample :
    @LaterStarts sampleLeaderJson sampleIdentities ["cache"] 2
        (@LeaderCache.bootstrap sampleLeaderJson sampleIdentities sampleAnswers (some "token")
          ["cache"] "DE" (sampleStart.stopAt 3) (.init .empty)).2.disk ↔
      ∀ bytes w', @ReachesWrite sampleLeaderJson sampleAnswers (some "token") ⟨2, 1, 3, 1001⟩
          (cachePath ["cache"] 2) (sampleStart.stopAt 3) (.init .empty) bytes w' →
        (sampleStart.stopAt 3).ioFault w'.tick = none →
        ((sampleStart.stopAt 3).ioFault (w'.tick + 1) = none ∨
            bytes.length ≤ (sampleStart.stopAt 3).torn (w'.tick + 2)) ∧
          ∀ f, sampleAnswers.fetched ⟨2, 1, 3, 1001⟩ = .ok f → @Fetched.Loads sampleIdentities f :=
  @cache_survives_iff sampleLeaderJson sampleIdentities ⟨2, 1, 3, 1001⟩ sampleAnswers rfl
    (some "token") ["cache"] "DE" (sampleStart.stopAt 3) (.init .empty)
    (sampleAnswers_reliable fun _ => rfl) fun _ _ _ _ _ _ _ _ _ _ => .inl rfl

def stoppedStart : Env := sampleStart.stopAt 4

theorem stoppedStart_document :
    let document := @leaderDocument sampleLeaderJson sampleAnswers ⟨2, 1, 3, 1001⟩
      (cachePath ["cache"] 2) stoppedStart ⟨1, .empty, []⟩
    document.1.isOk = true ∧ document.2.tick = 3 ∧ document.2.disk.IsDir ["cache"] ∧
      document.2.disk.lookup (cachePath ["cache"] 2) ≠ some .dir := by
  decide +kernel

theorem stopped_start_spoils_cache :
    ¬ ∀ (_ : LeaderJson) (_ : Base58) (answers : LeaderAnswers) (info : EpochInfo)
      (token : Option String) (cacheDir : Path) (focus : String) (env : Env) (w : World),
      answers.epochInfo = .ok info →
      (∀ f t file, answers.fetched info = .ok f →
        f.file ((env.clock t).getD 0) = .ok file → LeaderJson.Reliable file) →
      LaterStarts cacheDir info.epoch w.disk →
      LaterStarts cacheDir info.epoch
        (LeaderCache.bootstrap answers token cacheDir focus env w).2.disk := by
  intro hall
  let _ := sampleLeaderJson
  let _ := sampleIdentities
  have hinfo : sampleAnswers.epochInfo = .ok ⟨2, 1, 3, 1001⟩ := rfl
  have hlater := hall sampleLeaderJson sampleIdentities sampleAnswers ⟨2, 1, 3, 1001⟩
    (some "token") ["cache"] "DE" stoppedStart (.init .empty) hinfo
    (sampleAnswers_reliable fun _ => rfl) fun _ _ _ _ _ _ _ _ _ _ => .inl rfl
  rw [laterStarts_iff hinfo stoppedStart, lookup_bootstrap hinfo] at hlater
  obtain ⟨hok, htick, hdir, hnodir⟩ := stoppedStart_document
  obtain ⟨bytes, hbytes⟩ := Fallible.exists_of_isOk hok
  have hreach : ReachesWrite sampleAnswers (some "token") ⟨2, 1, 3, 1001⟩ (cachePath ["cache"] 2)
      stoppedStart (.init .empty) bytes _ := ⟨.inr rfl, rfl, run_eq hbytes⟩
  rw [ensureCache_reaches hreach] at hlater
  have hopen : stoppedStart.ioFault 3 = none := rfl
  rw [← htick] at hopen
  have hempty : (writeFile (cachePath ["cache"] 2) bytes stoppedStart _).2.disk.lookup
      (cachePath ["cache"] 2) = _ := lookup_writeFile hopen hdir hnodir
  rw [htick, if_neg (by decide)] at hempty
  obtain ⟨text, wire, map, htext, hwire, -⟩ := (cacheFine_file hempty).1 hlater
  obtain rfl : [] = text := Option.some.inj htext
  have hne : [] ≠ sampleText := by decide +kernel
  exact hne (sampleParse_eq_ok hwire).1

end TokenPumper
