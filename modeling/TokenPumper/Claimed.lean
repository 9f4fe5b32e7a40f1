import TokenPumper.Keys.History
import TokenPumper.Program
import TokenPumper.Pumpfun.Mints

namespace TokenPumper.Program
open Effect FileTree Tokens Ipfs
set_option autoImplicit true

theorem ne_empty_of_fills (h : Fills ts lines ts') (hlines : ∀ line ∈ lines, line ≠ "") :
    ∀ t ∈ ts', t.privatekey ≠ "" := by
  induction h with
  | nil => exact fun t ht => absurd ht List.not_mem_nil
  | kept t hkey h ih => exact List.forall_mem_cons.2 ⟨hkey, ih hlines⟩
  | filled t line hkey h ih =>
    obtain ⟨hline, hrest⟩ := List.forall_mem_cons.1 hlines
    exact List.forall_mem_cons.2 ⟨hline, ih hrest⟩

theorem names_of_grows (h : Grows tokens tokens') (hnames : ∀ t ∈ tokens, '/' ∉ t.symbol.toList) :
    ∀ t ∈ tokens', '/' ∉ t.symbol.toList := by
  intro t' ht'
  obtain ⟨i, hi', rfl⟩ := List.getElem_of_mem ht'
  have hi : i < tokens.length := h.length_eq ▸ hi'
  have hgrown : Tokens.TokenSpec.Grows tokens[i] tokens'[i] := h.entries.get hi hi'
  rw [hgrown.fields]
  exact hnames tokens[i] (List.getElem_mem hi)

section Shelves
variable [TokenJson] {s s' s'' : Shelf}

/-- A roster that can be read and has no symbol that would be a path, and a pool without returns in
its lines. -/
structure Stocked (s : Shelf) (tokens : List Tokens.TokenSpec) : Prop where
  readable : s.tokens = some tokens
  names : ∀ t ∈ tokens, '/' ∉ t.symbol.toList
  pool : s.pool.isSome
  returns : ∀ line ∈ s.lines, '\r' ∉ line.toList

/-- What the two files are after some calls. -/
structure Later (s : Shelf) (tokens : List Tokens.TokenSpec) (s' : Shelf)
    (tokens' : List Tokens.TokenSpec) : Prop where
  stocked : Stocked s' tokens'
  grows : Grows tokens tokens'
  keys : s'.keys ≤ s.keys

theorem Later.refl (h : Stocked s tokens) : Later s tokens s tokens :=
  ⟨h, .refl tokens, le_refl _⟩

theorem Later.trans (h : Later s tokens s' tokens') (h' : Later s' tokens' s'' tokens'') :
    Later s tokens s'' tokens'' :=
  ⟨h'.stocked, h.grows.trans h'.grows, le_trans h'.keys h.keys⟩

theorem Stocked.roster (h : Stocked s tokens) : s.roster.isSome := by
  have htokens := h.readable
  rw [Shelf.tokens] at htokens
  cases hroster : s.roster with
  | none =>
    rw [hroster] at htokens
    cases htokens
  | some node => rfl

theorem later_of_loads (hjson : TokenJson.RoundTrips) (hs : Stocked s tokens)
    (h : Loads env s (some loaded) s') :
    Later s tokens s' loaded ∧
      loaded.map Tokens.TokenSpec.isUsed = tokens.map Tokens.TokenSpec.isUsed ∧
      ∀ t ∈ loaded, t.privatekey ≠ "" := by
  obtain ⟨hloaded, hgrows, hflags⟩ := tokens_of_loads h hjson hs.readable
  cases h with
  | whole htokens hneeded =>
    obtain rfl := Option.some.inj (htokens.symm.trans hs.readable)
    refine ⟨.refl hs, rfl, ?_⟩
    exact ne_empty_of_fills (fills_self hneeded) fun _ hline => absurd hline List.not_mem_nil
  | @filled tokens' htokens hlines =>
    obtain rfl := Option.some.inj (htokens.symm.trans hs.readable)
    refine ⟨⟨⟨hloaded, names_of_grows hgrows hs.names, rfl, returns_drawn hs.returns _⟩, hgrows,
      ?_⟩, hflags, ?_⟩
    · exact le_of_eq (keys_filled hjson hs.returns htokens hlines)
    · exact ne_empty_of_fills (fills_hydrated hlines) fun line hline =>
        Shelf.ne_empty_of_mem_lines (List.mem_of_mem_take hline)

theorem later_of_loadStops (hs : Stocked s tokens) (h : LoadStops s s') :
    Later s tokens s' tokens := by
  cases h with
  | before => exact .refl hs
  | between htokens hlines =>
    obtain rfl := Option.some.inj (htokens.symm.trans hs.readable)
    refine ⟨⟨htokens, hs.names, rfl, returns_drawn hs.returns _⟩, .refl _, ?_⟩
    rw [keys_drawn hs.returns htokens, keys_of_tokens htokens]
    apply Multiset.add_le_add_iff_left.2
    exact (List.drop_sublist _ _).subperm

theorem later_of_burn (hjson : TokenJson.RoundTrips) (hs : Stocked s loaded)
    (hidx : idx + 1 < loaded.length) (h : burn loaded idx = some burnt) :
    Later s loaded (s.withTokens burnt) burnt := by
  have hgrows : Grows loaded burnt := grows_burn hidx h
  refine ⟨⟨Shelf.tokens_withTokens hjson _ _, names_of_grows hgrows hs.names, hs.pool,
    hs.returns⟩, hgrows, ?_⟩
  have hstep : InStep s (some loaded) := by
    refine ⟨hs.returns, fun t ht => ⟨loaded, hs.readable, ?_⟩⟩
    rw [Option.some.inj ht]
  exact le_of_eq (keys_marked hjson hstep h)

theorem loadAndHydrate_whole (hjson : TokenJson.RoundTrips)
    (hstat : env.statFails w.tick = false) (hio : env.ioFault (w.tick + 1) = none)
    (hroster : w.disk.lookup (tokensCacheFile :: cacheDir) = some (.file (rosterBytes tokens)))
    (hneeded : needed tokens = []) :
    loadAndHydrate cacheDir keysDir env w =
      (.ok (some tokens), { w with tick := w.tick + 2 }) := by
  have hthere : fileExists (tokensCacheFile :: cacheDir) env w =
      (.ok true, { w with tick := w.tick + 1 }) := by
    rw [fileExists_run, hstat, hroster]
    rfl
  have hraw : readToString (tokensCacheFile :: cacheDir) env { w with tick := w.tick + 1 } =
      (.ok (TokenJson.print tokens ++ ['\n']), { w with tick := w.tick + 2 }) :=
    readToString_run hio hroster (Text.ofUtf8_toUtf8 _)
  have hcontext (message : String) :
      withContext message (readToString (tokensCacheFile :: cacheDir)) env
        { w with tick := w.tick + 1 } =
      (.ok (TokenJson.print tokens ++ ['\n']), { w with tick := w.tick + 2 }) := by
    rw [withContext, mapFailure, hraw]
  have hread : readTokens (tokensCacheFile :: cacheDir) env { w with tick := w.tick + 1 } =
      (.ok tokens, { w with tick := w.tick + 2 }) := by
    rw [readTokens, bind_run_ok (hcontext _), withContext, mapFailure, hjson tokens]
    rfl
  rw [loadAndHydrate, bind_run_ok hthere]
  change (readTokens _ >>= _) env _ = _
  rw [bind_run_ok hread, hneeded]
  rfl

end Shelves

theorem exists_grown {i : Nat} (h : Grows tokens tokens') (ht : tokens[i]? = some t) :
    ∃ t', tokens'[i]? = some t' ∧ Tokens.TokenSpec.Grows t t' := by
  obtain ⟨hlt, rfl⟩ := List.getElem?_eq_some_iff.1 ht
  have hlt' : i < tokens'.length := h.length_eq ▸ hlt
  exact ⟨tokens'[i], List.getElem?_eq_getElem hlt', h.entries.get hlt hlt'⟩

/-- The roster and its pool are apart from where the wallet phase removes files. -/
structure Config.Apart (cfg : Config) : Prop where
  cache : ∀ day, cfg.cacheDir ≠ day :: cfg.keysDir
  roster : cfg.funderPath ≠ tokensCacheFile :: cfg.cacheDir
  pool : cfg.funderPath ≠ tokensKeyFile :: cfg.keysDir

section Phases
variable {env : Env} {cfg : Config} {s : Shelf}

theorem at_addStable (hroster : s.roster.isSome) (hpool : s.pool.isSome) :
    (At cacheDir keysDir s).AddStable := by
  rintro disk log name parent node hd hnew rfl
  obtain ⟨roster, hroster⟩ := Option.isSome_iff_exists.1 hroster
  obtain ⟨pool, hpool⟩ := Option.isSome_iff_exists.1 hpool
  rw [At, shelf, shelf, Shelf.mk.injEq]
  exact ⟨(Tree.lookup_add_of_some hd hnew hroster).trans hroster.symm,
    (Tree.lookup_add_of_some hd hnew hpool).trans hpool.symm⟩

theorem at_removes {removed : Path} (hroster : tokensCacheFile :: cacheDir ≠ removed)
    (hpool : tokensKeyFile :: keysDir ≠ removed) :
    (At cacheDir keysDir s).Removes (At cacheDir keysDir s) removed := by
  rintro disk log bytes hf rfl
  rw [At, shelf, shelf, Tree.lookup_removeFile_of_ne hf hroster,
    Tree.lookup_removeFile_of_ne hf hpool]

theorem keeps_prepare_at [Ed25519] (hcfg : cfg.Apart) (hroster : s.roster.isSome)
    (hpool : s.pool.isSome) :
    Keeps env (on (At cfg.cacheDir cfg.keysDir s)) (prepare cfg.toConfig) := by
  apply keeps_prepare
  · constructor
    · exact at_addStable hroster hpool
    · exact fun _ _ _ _ h => h
    · intro day name _ disk log bytes hf hw
      refine at_removes (fun heq => ?_) (fun heq => ?_) hf hw.1
      · exact hcfg.cache day (List.cons.inj heq).2
      · have hlen := congrArg List.length heq
        simp at hlen
  · exact at_removes hcfg.roster.symm hcfg.pool.symm
  · exact fun _ _ _ _ _ h => h
  · exact fun _ _ _ _ h => h

theorem imagePath_ne (symbol : String) (dir : Path) :
    Metadata.imagePath symbol ≠ tokensCacheFile :: dir ∧
      Metadata.imagePath symbol ≠ tmpPath tokensCacheFile dir := by
  have hlast : (Metadata.imageName symbol).toList.getLast? = some 'g' := by
    simp [Metadata.imageName]
  constructor
  · intro heq
    rw [(List.cons.inj heq).1] at hlast
    exact absurd hlast (by decide)
  · intro heq
    rw [(List.cons.inj heq).1] at hlast
    exact absurd hlast (by decide)

/-- What the claim of an entry does to the flags. -/
structure Claims (cfg : Config) (tokens : List Tokens.TokenSpec) (idx : Nat)
    (tokens' : List Tokens.TokenSpec) : Prop where
  real : cfg.tokenDebug = false → Marks tokens idx tokens'
  others : ∀ i, i ≠ idx ∨ cfg.tokenDebug = true → flagAt tokens' i = flagAt tokens i

theorem Claims.of_loads (hgrows : Grows tokens loaded)
    (hflags : loaded.map Tokens.TokenSpec.isUsed = tokens.map Tokens.TokenSpec.isUsed)
    (h : Claims cfg loaded idx tokens') : Claims cfg tokens idx tokens' := by
  have hsame (i : Nat) : flagAt loaded i = flagAt tokens i := flagAt_of_map_eq hflags i
  constructor
  · intro hdebug
    obtain ⟨hlater, hinside, hunused, hbefore, hused⟩ := h.real hdebug
    exact ⟨hgrows.trans hlater, hgrows.length_eq ▸ hinside, (hsame idx).symm.trans hunused,
      fun j hj => (hsame j).symm.trans (hbefore j hj), hused⟩
  · exact fun i hi => (h.others i hi).trans (hsame i)

theorem claims_burn (hdebug : cfg.tokenDebug = false) (hpick : pick loaded false = .ok idx)
    (hburn : burn loaded idx = some burnt) : Claims cfg loaded idx burnt := by
  constructor
  · exact fun _ => marks_burn (.refl loaded) rfl hpick hburn
  · rintro i (hi | hno)
    · rw [burn] at hburn
      split at hburn
      · obtain rfl := Option.some.inj hburn
        rw [flagAt, flagAt, List.getElem?_modify_ne _ _ hi.symm]
      · cases hburn
    · cases hdebug.symm.trans hno

variable [TokenJson]

theorem keeps_claim_image {tokens : List Tokens.TokenSpec} {node : Option Node} (symbol : String) :
    Keeps env (on fun disk _ => disk.lookup (Metadata.imagePath symbol) = node)
      (claim cfg tokens idx) := by
  obtain ⟨hfile, htmp⟩ := imagePath_ne symbol cfg.cacheDir
  rw [claim]
  split
  · exact Keeps.pure
  · apply Keeps.bind keeps_orPanic
    intro burnt
    apply triple_writeAtomic _ _ fun w hw => hw
    · exact fun disk disk' log hsame h => (hsame _ htmp).trans h
    · exact fun h _ hsame => (hsame _ hfile htmp).trans h

theorem triple_claim (hjson : TokenJson.RoundTrips) (hs : Stocked s loaded)
    (hpick : pick loaded cfg.tokenDebug = .ok idx) :
    Triple env (on (At cfg.cacheDir cfg.keysDir s)) (claim cfg loaded idx)
      (fun _ w => ∃ tokens', Later s loaded (shelf cfg.cacheDir cfg.keysDir w.disk) tokens' ∧
        Claims cfg loaded idx tokens')
      (on (At cfg.cacheDir cfg.keysDir s)) := by
  rw [claim]
  split
  · rename_i hdebug
    apply Triple.pure
    intro w hw
    obtain rfl : shelf cfg.cacheDir cfg.keysDir w.disk = s := hw
    refine ⟨loaded, .refl hs, fun hno => ?_, fun _ _ => rfl⟩
    cases hdebug.symm.trans hno
  · rename_i hdebug
    rw [Bool.not_eq_true] at hdebug
    rw [hdebug] at hpick
    apply triple_markUsed.conseq (fun _ h => h) _ fun _ h => h
    rintro _ w ⟨burnt, hburn, hshelf⟩
    refine ⟨burnt, ?_, claims_burn hdebug hpick hburn⟩
    rw [hshelf]
    exact later_of_burn hjson hs (pick_eq_ok hpick).1 hburn

end Phases

theorem picked_grown [ByteJson] {t t' : Tokens.TokenSpec} (h : t.Grows t')
    (hkey : t.privatekey ≠ "") :
    t'.picked = t.picked := by
  obtain ⟨hfields, -, hsame⟩ := h
  rw [hfields, hsame hkey]
  rfl

section Claimed
variable [PinataJson]

/-- An entry that a run has claimed, once its metadata was there. -/
structure Claimed (cfg : Config) (web : Web) (tokens tokens' : List Tokens.TokenSpec) (idx : Nat)
    (t : Tokens.TokenSpec) (metadata : Metadata.UploadedMetadata) (st : World × List Request) :
    Prop where
  entry : tokens'[idx]? = some t
  keyed : t.privatekey ≠ ""
  claims : Claims cfg tokens idx tokens'
  uploaded : Metadata.Uploaded web cfg.toPinataConfig t st.1.disk metadata st.2

/-- What has been sent where nothing is claimed: what an upload for an entry has come to. -/
def Asked (cfg : Config) (web : Web) (tokens' : List Tokens.TokenSpec)
    (st : World × List Request) : Prop :=
  st.2 = [] ∨ ∃ t ∈ tokens', Metadata.Stopped web cfg.toPinataConfig t st.1.disk st.2 ∨
    ∃ metadata, Metadata.Uploaded web cfg.toPinataConfig t st.1.disk metadata st.2

/-- What a run that fails has left. -/
inductive Left (cfg : Config) (web : Web) (tokens tokens' : List Tokens.TokenSpec)
    (st : World × List Request) : Prop
  | unclaimed
      (hflags : tokens'.map Tokens.TokenSpec.isUsed = tokens.map Tokens.TokenSpec.isUsed)
      (hasked : Asked cfg web tokens' st) : Left cfg web tokens tokens' st
  | claimed (h : Claimed cfg web tokens tokens' idx t metadata st) :
      Left cfg web tokens tokens' st

theorem Claimed.of_loads (hgrows : Grows tokens loaded)
    (hflags : loaded.map Tokens.TokenSpec.isUsed = tokens.map Tokens.TokenSpec.isUsed)
    (h : Claimed cfg web loaded tokens' idx t metadata st) :
    Claimed cfg web tokens tokens' idx t metadata st :=
  { h with claims := h.claims.of_loads hgrows hflags }

theorem Left.of_loads (hgrows : Grows tokens loaded)
    (hflags : loaded.map Tokens.TokenSpec.isUsed = tokens.map Tokens.TokenSpec.isUsed)
    (h : Left cfg web loaded tokens' st) : Left cfg web tokens tokens' st := by
  cases h with
  | unclaimed hsame hasked => exact .unclaimed (hsame.trans hflags) hasked
  | claimed h => exact .claimed (h.of_loads hgrows hflags)

end Claimed

section Run
variable [Ed25519] [AddressHash] [Base58] [TokenJson] [ByteJson] [PinataJson]

/-- A run that returns has gone live with an entry that it has claimed. -/
structure Launching (cfg : Config) (services : Services) (env : Env) (web : Web)
    (tokens tokens' : List Tokens.TokenSpec) (idx : Nat) (t : Tokens.TokenSpec)
    (metadata : Metadata.UploadedMetadata) (wired : Wired) (st : World × List Request) : Prop
    extends Claimed cfg web tokens tokens' idx t metadata st where
  live : ∃ prepared w w', prepare cfg.toConfig env w = (.ok prepared, w') ∧ ∃ w₁ w₂,
    goLive cfg.toConfig services t.picked prepared metadata.uri env w₁ = (.ok wired, w₂)

theorem triple_launch (hjson : TokenJson.RoundTrips) (hcfg : cfg.Apart) (hs : Stocked s loaded)
    (hkeys : ∀ t ∈ loaded, t.privatekey ≠ "") :
    Triple (env, web) (fun st => on (At cfg.cacheDir cfg.keysDir s) st.1 ∧ st.2 = [])
      (launch cfg services loaded)
      (fun wired st => ∃ tokens',
        Later s loaded (shelf cfg.cacheDir cfg.keysDir st.1.disk) tokens' ∧
        ∃ idx t metadata, Launching cfg services env web loaded tokens' idx t metadata wired st)
      (fun st => ∃ tokens', Later s loaded (shelf cfg.cacheDir cfg.keysDir st.1.disk) tokens' ∧
        Left cfg web loaded tokens' st) := by
  let here : World → Prop := on (At cfg.cacheDir cfg.keysDir s)
  have hstop (st : World × List Request) (h : here st.1) (hasked : Asked cfg web loaded st) :
      ∃ tokens', Later s loaded (shelf cfg.cacheDir cfg.keysDir st.1.disk) tokens' ∧
        Left cfg web loaded tokens' st := by
    refine ⟨loaded, ?_, .unclaimed rfl hasked⟩
    exact shelf_of_at (p := fun s' => Later s loaded s' loaded) h (.refl hs)
  have before {α : Type} {x : Run α} {Q : α → World → Prop} (h : Triple env here x Q here) :
      Triple (env, web) (fun st => here st.1 ∧ st.2 = []) (onFirst x)
        (fun a st => Q a st.1 ∧ st.2 = []) (fun st => ∃ tokens',
          Later s loaded (shelf cfg.cacheDir cfg.keysDir st.1.disk) tokens' ∧
            Left cfg web loaded tokens' st) :=
    (h.onFirst (r := (env, web)) (· = [])).conseq (fun _ h => h) (fun _ _ h => h)
      fun st hst => hstop st hst.1 (.inl hst.2)
  apply Triple.bind (before (Q := fun idx w => here w ∧ pick loaded cfg.tokenDebug = .ok idx)
    (Triple.lift (fun idx hidx w hw => ⟨hw, Fallible.mapError_eq_ok hidx⟩) fun w hw => hw))
  rintro idx st ⟨⟨hst, hpick⟩, hsent⟩
  refine Triple.bind (before (triple_orPanic fun w hw => hw)) (fun t => ?_) st ⟨hst, hsent⟩
  rintro st ⟨⟨hst, ht⟩, hsent⟩
  have hmem : t ∈ loaded := List.mem_of_getElem? ht
  refine Triple.bind (before (keeps_prepare_at hcfg hs.roster hs.pool).outcome)
    (fun prepared => ?_) st ⟨hst, hsent⟩
  rintro st ⟨⟨hst, wPrepare, hprepare⟩, hsent⟩
  refine Triple.bind ((Metadata.triple_upload cfg.toPinataConfig).conseq (fun _ h => h)
    (fun _ _ h => h) fun st hst => hstop st hst.1 (.inr ⟨t, hmem, .inl hst.2⟩))
    (fun metadata => ?_) st ⟨hst, hsent⟩
  rintro st ⟨hst, huploaded⟩
  let shown : Option Node := st.1.disk.lookup (Metadata.imagePath t.symbol)
  have hclaim : Triple env (fun w => here w ∧ w.disk.lookup (Metadata.imagePath t.symbol) = shown)
      (claim cfg loaded idx) (fun _ w => (∃ tokens',
        Later s loaded (shelf cfg.cacheDir cfg.keysDir w.disk) tokens' ∧
          Claims cfg loaded idx tokens') ∧ w.disk.lookup (Metadata.imagePath t.symbol) = shown)
      (fun w => here w ∧ w.disk.lookup (Metadata.imagePath t.symbol) = shown) :=
    (triple_claim hjson hs hpick).and (keeps_claim_image t.symbol)
  refine Triple.bind ((hclaim.onFirst (r := (env, web)) (· = st.2)).conseq (fun _ h => h)
    (fun _ _ h => h) ?_) (fun _ => ?_) st ⟨⟨hst, rfl⟩, rfl⟩
  · rintro st' ⟨⟨hst', hshown⟩, hsent⟩
    refine hstop st' hst' (.inr ⟨t, hmem, .inr ⟨metadata, ?_⟩⟩)
    rw [hsent]
    exact huploaded.of_lookup hshown
  rintro st' ⟨⟨⟨tokens', hlater, hclaims⟩, hshown⟩, hsent⟩
  obtain ⟨t', ht', hgrown⟩ := exists_grown hlater.grows ht
  have hkey : t.privatekey ≠ "" := hkeys t hmem
  have hsame : t'.privatekey = t.privatekey := hgrown.key hkey
  have hclaimed : Claimed cfg web loaded tokens' idx t' metadata st' := by
    refine ⟨ht', hsame ▸ hkey, hclaims, ?_⟩
    rw [hsent]
    exact (huploaded.of_lookup hshown).of_grows hgrown
  have hlive : Triple env (· = st'.1)
      (goLive cfg.toConfig services t.picked prepared metadata.uri)
      (fun wired w => w = st'.1 ∧ ∃ w₁, goLive cfg.toConfig services t.picked prepared
        metadata.uri env w₁ = (.ok wired, w)) (· = st'.1) :=
    (Triple.still (still_goLive _ _ _) fun _ h => h).outcome
  refine (hlive.onFirst (r := (env, web)) (· = st'.2)).conseq (fun _ h => h) ?_ ?_ st' ⟨rfl, rfl⟩
  · rintro wired ⟨w, sent⟩ ⟨⟨rfl, w₁, hlive⟩, rfl⟩
    rw [← picked_grown hgrown hkey] at hlive
    exact ⟨tokens', hlater, idx, t', metadata, hclaimed, prepared, _, _, hprepare, w₁, _, hlive⟩
  · rintro ⟨w, sent⟩ ⟨rfl, rfl⟩
    exact ⟨tokens', hlater, .claimed hclaimed⟩

theorem main_run (hload : loadAndHydrate cfg.cacheDir cfg.keysDir env w = (.ok (some tokens), w'))
    (hpick : pick tokens cfg.tokenDebug = .ok idx) (ht : tokens[idx]? = some t) :
    main cfg services (env, web) (w, sent) =
      (do
        let prepared ← onFirst (prepare cfg.toConfig)
        let metadata ← Metadata.upload cfg.toPinataConfig t
        onFirst (claim cfg tokens idx)
        onFirst (goLive cfg.toConfig services t.picked prepared metadata.uri) : Online Wired)
      (env, web) (w', sent) := by
  have hload' : (onFirst (loadAndHydrate cfg.cacheDir cfg.keysDir) : Online _) (env, web)
      (w, sent) = (.ok (some tokens), w', sent) := by
    rw [onFirst, hload]
  have hpick' : (onFirst (lift ((pick tokens cfg.tokenDebug).mapError fun m => .error [m])) :
      Online Nat) (env, web) (w', sent) = (.ok idx, w', sent) := by
    rw [hpick]
    rfl
  have ht' : (onFirst (orPanic tokens[idx]?) : Online _) (env, web) (w', sent) =
      (.ok t, w', sent) := by
    rw [ht]
    rfl
  rw [main, bind_run_ok hload']
  change launch cfg services tokens (env, web) (w', sent) = _
  rw [launch, bind_run_ok hpick', bind_run_ok ht']

theorem triple_main (hjson : TokenJson.RoundTrips) (hcfg : cfg.Apart) (hs : Stocked s tokens) :
    Triple (env, web) (fun st => on (At cfg.cacheDir cfg.keysDir s) st.1 ∧ st.2 = [])
      (main cfg services)
      (fun wired st => ∃ tokens',
        Later s tokens (shelf cfg.cacheDir cfg.keysDir st.1.disk) tokens' ∧
        ∃ idx t metadata, Launching cfg services env web tokens tokens' idx t metadata wired st)
      (fun st => ∃ tokens', Later s tokens (shelf cfg.cacheDir cfg.keysDir st.1.disk) tokens' ∧
        Left cfg web tokens tokens' st) := by
  have hload : Triple env (on (At cfg.cacheDir cfg.keysDir s))
      (loadAndHydrate cfg.cacheDir cfg.keysDir) _ _ := triple_loadAndHydrate
  apply Triple.bind ((hload.onFirst (r := (env, web)) (· = [])).conseq (fun _ h => h)
    (fun _ _ h => h) fun st hst =>
      ⟨tokens, later_of_loadStops hs hst.1, .unclaimed rfl (.inl hst.2)⟩)
  intro loaded
  cases loaded with
  | none =>
    rintro st ⟨hst, hsent⟩
    have hsame : shelf cfg.cacheDir cfg.keysDir st.1.disk = s := eq_of_loads_none hst
    refine ⟨tokens, ?_, .unclaimed rfl (.inl hsent)⟩
    change Later s tokens (shelf cfg.cacheDir cfg.keysDir st.1.disk) tokens
    rw [hsame]
    exact .refl hs
  | some loaded =>
    rintro st ⟨hst, hsent⟩
    obtain ⟨hlater, hflags, hkeys⟩ := later_of_loads hjson hs hst
    refine (triple_launch hjson hcfg hlater.stocked hkeys).conseq (fun _ h => h) ?_ ?_ st
      ⟨rfl, hsent⟩
    · rintro wired st' ⟨tokens', hlater', idx, t, metadata, h⟩
      exact ⟨tokens', hlater.trans hlater', idx, t, metadata,
        h.toClaimed.of_loads hlater.grows hflags, h.live⟩
    · rintro st' ⟨tokens', hlater', hleft⟩
      exact ⟨tokens', hlater.trans hlater', hleft.of_loads hlater.grows hflags⟩

end Run

end TokenPumper.Program
