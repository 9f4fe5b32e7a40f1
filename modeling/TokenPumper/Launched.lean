import TokenPumper.Claimed
import TokenPumper.Funded

namespace TokenPumper.Program
open LittleEndian Machine Effect FileTree Tokens Ipfs Idl
set_option autoImplicit true

/-- The key of the second signer of a packet, which for a launch is the mint that it creates. -/
def secondSigner (bs : List UInt8) : Option Pubkey := do
  let tx ← SolanaWire.decodeTransaction bs
  if 2 ≤ tx.message.body.header.numRequiredSignatures.toNat then tx.message.body.accountKeys[1]?
  else none

section Packets
variable [Ed25519] {wired : Wired}

theorem secondSigner_oneSigner (h : OneSignerTx signer user blockhash meanings bs tx) :
    secondSigner bs = none := by
  rw [secondSigner, h.decodes, Option.bind_eq_bind, Option.bind_some, h.signers.1]
  rfl

theorem secondSigner_launch {ctx : LaunchContext}
    (h : fireLaunch ctx slot blockhash txBuf = some (built, some bs)) :
    secondSigner bs = some ctx.mintPubkey := by
  obtain ⟨tx, hdecodes, hmessage⟩ := launch_decodes h
  rw [secondSigner, hdecodes, Option.bind_eq_bind, Option.bind_some, hmessage]
  rfl

theorem secondSigner_of_launch (hx : .launch slot (some bs) ∈ wired.trace happenings) :
    secondSigner bs = some wired.launchCtx.mintPubkey := by
  obtain ⟨blockhash, txBuf, built, hfire⟩ := Wired.trace_launch hx
  exact secondSigner_launch hfire

theorem secondSigner_trace [Base58]
    (hbootstrap : AltIndices.bootstrap accountData table = .ok wired.launchCtx.alt)
    (hx : x ∈ wired.trace happenings) (hbs : x.handed = some bs)
    (hsigner : secondSigner bs = some mint) :
    Wired.isLaunch x = true ∧ mint = wired.launchCtx.mintPubkey := by
  cases x with
  | launch slot handed =>
    obtain rfl : handed = some bs := hbs
    exact ⟨rfl, Option.some.inj (hsigner.symm.trans (secondSigner_of_launch hx))⟩
  | fired f =>
    obtain ⟨-, -, blockhash, -, task, tx, -, hmeans⟩ := Wired.trace_means hbootstrap hx hbs
    have hone : ∃ signer user meanings, OneSignerTx signer user blockhash meanings bs tx := by
      cases f with
      | buy k slot handed =>
        obtain ⟨ctx, -, htx⟩ := hmeans
        exact ⟨_, _, _, htx⟩
      | spawned slot => exact hmeans.elim
      | devSell slot handed =>
        obtain ⟨ctx, -, htx⟩ := hmeans
        exact ⟨_, _, _, htx⟩
      | walletSell k slot amount handed =>
        obtain ⟨ctx, -, -, htx⟩ := hmeans
        exact ⟨_, _, _, htx⟩
    obtain ⟨signer, user, meanings, htx⟩ := hone
    cases hsigner.symm.trans (secondSigner_oneSigner htx)

theorem secondSigners_run [Base58]
    (hbootstrap : AltIndices.bootstrap accountData table = .ok wired.launchCtx.alt)
    (happenings : List Happening) :
    (((outputs wired.step wired.init happenings).flatten).filterMap secondSigner).length ≤ 1 ∧
      ∀ mint ∈ ((outputs wired.step wired.init happenings).flatten).filterMap secondSigner,
        mint = wired.launchCtx.mintPubkey := by
  rw [wired.submitted_eq happenings, List.filterMap_filterMap]
  constructor
  · rw [List.length_filterMap_eq_countP]
    refine Nat.le_trans (List.countP_mono_left ?_) (Wired.countP_isLaunch_le happenings)
    intro x hx hsome
    obtain ⟨mint, hmint⟩ := Option.isSome_iff_exists.1 hsome
    obtain ⟨bs, hbs, hsigner⟩ := Option.bind_eq_some_iff.1 hmint
    exact (secondSigner_trace hbootstrap hx hbs hsigner).1
  · intro mint hmint
    obtain ⟨x, hx, hmint⟩ := List.mem_filterMap.1 hmint
    obtain ⟨bs, hbs, hsigner⟩ := Option.bind_eq_some_iff.1 hmint
    exact (secondSigner_trace hbootstrap hx hbs hsigner).2

theorem secondSigners_of_launched
    (h : (wired.trace happenings).map (fun x => (Wired.isLaunch x, x.handed.isSome)) =
      [(true, true)]) :
    ((outputs wired.step wired.init happenings).flatten).filterMap secondSigner =
      [wired.launchCtx.mintPubkey] := by
  obtain ⟨x, htrace, hx⟩ := List.map_eq_singleton_iff.1 h
  obtain ⟨hlaunch, hhanded⟩ := Prod.mk.inj hx
  obtain ⟨bs, hbs⟩ := Option.isSome_iff_exists.1 hhanded
  cases x with
  | fired f => cases hlaunch
  | launch slot handed =>
    obtain rfl : handed = some bs := hbs
    have hmem : .launch slot (some bs) ∈ wired.trace happenings := by
      rw [htrace]
      exact List.mem_singleton_self _
    rw [wired.submitted_eq happenings, htrace]
    change [bs].filterMap secondSigner = _
    rw [List.filterMap_cons, secondSigner_of_launch hmem]
    rfl

end Packets

section Mints
variable [ByteJson]

def mintOf (key : String) : Option Pubkey :=
  match ByteJson.parse key.toList with
  | .error _ => none
  | .ok bytes =>
    if h : bytes.length = 64 then some (ofList (bytes.drop 32) (by rw [List.length_drop, h]))
    else none

theorem mintOf_picked {t : Tokens.TokenSpec}
    (h : t.picked.mintPubkey env w = (.ok mint, w')) : mintOf t.privatekey = some mint := by
  obtain ⟨kp, w₁, hkp, h⟩ := bind_run_eq_ok h
  obtain rfl := Except.ok.inj (Prod.mk.inj h).1
  have hbytes : t.parseKeypairBytes = .ok kp := Fallible.mapError_eq_ok (congrArg Prod.fst hkp)
  rw [Tokens.TokenSpec.parseKeypairBytes] at hbytes
  rw [mintOf]
  cases hparse : ByteJson.parse t.privatekey.toList with
  | error cause =>
    rw [hparse] at hbytes
    cases hbytes
  | ok bytes =>
    rw [hparse] at hbytes
    dsimp only at hbytes ⊢
    split at hbytes
    · rename_i hlen
      obtain rfl := Except.ok.inj hbytes
      rw [dif_pos hlen]
      apply congrArg some
      apply Vector.toList_inj.1
      rw [toList_ofList, toList_ofList, toList_ofList]
    · cases hbytes

theorem eq_of_mintOf {tokens : List Tokens.TokenSpec} {i j : Nat}
    (hdistinct : ((keysOf tokens).filterMap mintOf).Nodup)
    (hi : tokens[i]? = some t) (hj : tokens[j]? = some t') (hkey : t.privatekey ≠ "")
    (hkey' : t'.privatekey ≠ "") (hmint : mintOf t.privatekey = some mint)
    (hmint' : mintOf t'.privatekey = some mint) : i = j := by
  rw [keysOf, List.filterMap_filter, List.filterMap_map, List.nodup_iff_pairwise_ne,
    List.pairwise_filterMap, List.pairwise_iff_getElem] at hdistinct
  obtain ⟨hlt, rfl⟩ := List.getElem?_eq_some_iff.1 hi
  obtain ⟨hlt', rfl⟩ := List.getElem?_eq_some_iff.1 hj
  have hat (k : Nat) (hk : k < tokens.length) (hne : tokens[k].privatekey ≠ "") :
      ((fun key => if decide (key ≠ "") = true then mintOf key else none) ∘
        Tokens.TokenSpec.privatekey) tokens[k] = mintOf tokens[k].privatekey :=
    if_pos (decide_eq_true hne)
  rcases Nat.lt_trichotomy i j with hij | hij | hij
  · exact absurd rfl (hdistinct i j hlt hlt' hij mint ((hat i hlt hkey).trans hmint) mint
      ((hat j hlt' hkey').trans hmint'))
  · exact hij
  · exact absurd rfl (hdistinct j i hlt' hlt hij mint ((hat j hlt' hkey').trans hmint') mint
      ((hat i hlt hkey).trans hmint))

def UsedUp (tokens : List Tokens.TokenSpec) (mint : Pubkey) : Prop :=
  ∃ (i : Nat) (t : Tokens.TokenSpec), tokens[i]? = some t ∧ t.isUsed = true ∧
    t.privatekey ≠ "" ∧ mintOf t.privatekey = some mint

theorem nodup_mints [TokenJson] {s : Shelf} (htokens : s.tokens = some tokens)
    (h : (s.keys.filterMap mintOf).Nodup) : ((keysOf tokens).filterMap mintOf).Nodup := by
  rw [keys_of_tokens htokens] at h
  have hle : (↑(keysOf tokens) : Multiset String) ≤ ↑(keysOf tokens) + ↑s.lines :=
    Multiset.le_add_right _ _
  exact Multiset.nodup_of_le (Multiset.filterMap_le_filterMap mintOf hle) h

theorem UsedUp.grows (h : UsedUp tokens mint) (hgrows : Grows tokens tokens') :
    UsedUp tokens' mint := by
  obtain ⟨i, t, ht, hused, hkey, hmint⟩ := h
  obtain ⟨t', ht', hgrown⟩ := exists_grown hgrows ht
  have hsame := hgrown.key hkey
  exact ⟨i, t', ht', hgrown.used hused, hsame ▸ hkey, hsame ▸ hmint⟩

theorem UsedUp.ne_of_unused {idx : Nat} (h : UsedUp tokens mint)
    (hunused : flagAt tokens idx = some false) (hgrows : Grows tokens tokens')
    (hdistinct : ((keysOf tokens').filterMap mintOf).Nodup) (ht' : tokens'[idx]? = some t')
    (hkey : t'.privatekey ≠ "") (hmint : mintOf t'.privatekey = some mint') : mint ≠ mint' := by
  rintro rfl
  obtain ⟨i, t, ht, hused, hkey', hmint'⟩ := h
  obtain ⟨u, hu, hgrown⟩ := exists_grown hgrows ht
  have hsame : u.privatekey = t.privatekey := hgrown.key hkey'
  obtain rfl : i = idx :=
    eq_of_mintOf hdistinct hu ht' (hsame ▸ hkey') hkey (hsame ▸ hmint') hmint
  rw [flagAt, ht, Option.map_some, hused] at hunused
  cases hunused

end Mints

section Live
variable [Ed25519] [AddressHash] [Base58] [ByteJson] [PinataJson]

theorem Launching.launchCtx
    (h : Launching cfg services env web tokens tokens' idx t metadata wired st) :
    AltIndices.bootstrap services.accountData cfg.addressLookupTable = .ok wired.launchCtx.alt ∧
      wired.launchCtx.name = t.name ∧ wired.launchCtx.symbol = t.symbol ∧
      wired.launchCtx.uri = metadata.uri ∧
      mintOf t.privatekey = some wired.launchCtx.mintPubkey := by
  obtain ⟨prepared, w, w', hprepare, w₁, w₂, hlive⟩ := h.live
  obtain ⟨-, hbootstrap⟩ := main_eq_ok (main_of_parts hprepare hlive)
  obtain ⟨hname, hsymbol, huri, w₃, w₄, hmint⟩ := goLive_eq_ok hlive
  exact ⟨hbootstrap, hname, hsymbol, huri, mintOf_picked hmint⟩

/-- The packet creates the mint of the token, under the names of the token and the URI. -/
def Creates (wired : Wired) (accountData : String → Except String (List UInt8)) (table : String)
    (t : Tokens.TokenSpec) (uri : String) (mint : Pubkey) (bs : List UInt8) : Prop :=
  mintOf t.privatekey = some mint ∧
  ∀ data tables, accountData table = .ok data → (lookupTableEntries data).length ≤ 256 →
    tables wired.launchCtx.alt.altPubkey = some (lookupTableEntries data) →
    ∃ tx meanings accounts args, SolanaWire.decodeTransaction bs = some tx ∧
      (tx.message.resolve tables).bind interpretAll = some meanings ∧
      .createV2 accounts args [] ∈ meanings ∧ accounts.mint = mint ∧ args.name = t.name ∧
      args.symbol = t.symbol ∧ args.uri = uri

theorem Launching.creates
    (h : Launching cfg services env web tokens tokens' idx t metadata wired st)
    {happenings : List Happening}
    (hbs : bs ∈ (outputs wired.step wired.init happenings).flatten)
    (hsigner : secondSigner bs = some mint) :
    Creates wired services.accountData cfg.addressLookupTable t metadata.uri mint bs := by
  obtain ⟨hbootstrap, hname, hsymbol, huri, hmint⟩ := h.launchCtx
  rw [wired.submitted_eq happenings] at hbs
  obtain ⟨x, hx, hbs⟩ := List.mem_filterMap.1 hbs
  obtain ⟨hlaunch, rfl⟩ := secondSigner_trace hbootstrap hx hbs hsigner
  refine ⟨hmint, fun data tables hdata hshort htables => ?_⟩
  obtain ⟨-, -, blockhash, -, hmeans⟩ := Wired.trace_means hbootstrap hx hbs
  cases x with
  | launch slot handed =>
    obtain ⟨tx, hsaid⟩ := hmeans.2 data tables hdata hshort htables
    have hmem (inp : LaunchIx.LaunchInputs) :
        .createV2 inp.createV2Named inp.createV2Args [] ∈ inp.meanings := by
      simp [LaunchIx.LaunchInputs.meanings]
    exact ⟨tx, _, _, _, hsaid.decodes, hsaid.meanings, hmem _, rfl, hname, hsymbol, huri⟩
  | fired f => cases hlaunch

end Live

/-- A start of the program with all that it finds outside, and what comes in once it is live. -/
structure Start where
  cfg : Config
  services : Services
  env : Env
  web : Web
  happenings : List Happening

/-- The start is no debug run of the roster, has its files at these places and keeps them apart. -/
structure Start.Proper (cacheDir keysDir : Path) (start : Start) : Prop where
  cacheDir : start.cfg.cacheDir = cacheDir
  keysDir : start.cfg.keysDir = keysDir
  apart : start.cfg.Apart
  real : start.cfg.tokenDebug = false

section History
variable [Ed25519] [AddressHash] [Base58] [TokenJson] [ByteJson] [PinataJson]

def Start.run (start : Start) (disk : Tree) : Except Failure Wired × World × List Request :=
  main start.cfg start.services (start.env, start.web) (.init disk, [])

def Start.after (start : Start) (disk : Tree) : Tree := (start.run disk).2.1.disk

def Start.handed (start : Start) (disk : Tree) : List (List UInt8) :=
  match (start.run disk).1 with
  | .ok wired => (outputs wired.step wired.init start.happenings).flatten
  | .error _ => []

def diskAfter (disk : Tree) (starts : List Start) : Tree :=
  starts.foldl (fun disk start => start.after disk) disk

/-- What one start after the other hands over, each on the disk that the one before has left. -/
def handedOver : Tree → List Start → List (List UInt8)
  | _, [] => []
  | disk, start :: starts => start.handed disk ++ handedOver (start.after disk) starts

theorem handedOver_cons (disk : Tree) (start : Start) (starts : List Start) :
    handedOver disk (start :: starts) =
      start.handed disk ++ handedOver (start.after disk) starts := rfl

theorem secondSigners_of_run {start : Start} {disk : Tree} (hrun : (start.run disk).1 = .ok wired)
    (htrace : (wired.trace start.happenings).map (fun x => (Wired.isLaunch x, x.handed.isSome)) =
      [(true, true)]) :
    (start.handed disk).filterMap secondSigner = [wired.launchCtx.mintPubkey] := by
  rw [Start.handed, hrun]
  exact secondSigners_of_launched htrace

/-- What a run does to the roster, and what it has claimed before anything goes live. -/
theorem run_outcome {start : Start} (hjson : TokenJson.RoundTrips) (hcfg : start.cfg.Apart)
    {disk : Tree} (hs : Stocked (shelf start.cfg.cacheDir start.cfg.keysDir disk) tokens) :
    ∃ tokens', Later (shelf start.cfg.cacheDir start.cfg.keysDir disk) tokens
        (shelf start.cfg.cacheDir start.cfg.keysDir (start.after disk)) tokens' ∧
      match (start.run disk).1 with
      | .ok wired => ∃ idx t metadata, Launching start.cfg start.services start.env start.web tokens
          tokens' idx t metadata wired (start.run disk).2
      | .error _ => Left start.cfg start.web tokens tokens' (start.run disk).2 := by
  have hpost : Post _ _ (start.run disk) := triple_main hjson hcfg hs (World.init disk, [])
    ⟨rfl, rfl⟩
  rw [Start.after]
  cases hrun : start.run disk with
  | mk res st =>
    rw [hrun] at hpost
    cases res with
    | error e => exact hpost
    | ok wired =>
      obtain ⟨tokens', hlater, h⟩ := hpost
      exact ⟨tokens', hlater, h⟩

theorem run_later {start : Start} (hjson : TokenJson.RoundTrips)
    (hproper : start.Proper cacheDir keysDir) {disk : Tree}
    (hs : Stocked (shelf cacheDir keysDir disk) tokens) :
    ∃ tokens', Later (shelf cacheDir keysDir disk) tokens
        (shelf cacheDir keysDir (start.after disk)) tokens' ∧
      ((start.handed disk).filterMap secondSigner = [] ∨ ∃ mint idx t,
        (start.handed disk).filterMap secondSigner = [mint] ∧ Marks tokens idx tokens' ∧
          tokens'[idx]? = some t ∧ t.privatekey ≠ "" ∧ mintOf t.privatekey = some mint) := by
  obtain ⟨rfl, rfl, hcfg, hreal⟩ := hproper
  obtain ⟨tokens', hlater, houtcome⟩ := run_outcome hjson hcfg hs
  refine ⟨tokens', hlater, ?_⟩
  rw [Start.handed]
  cases hres : (start.run disk).1 with
  | error e => exact .inl rfl
  | ok wired =>
    rw [hres] at houtcome
    obtain ⟨idx, t, metadata, h⟩ := houtcome
    obtain ⟨hbootstrap, -, -, -, hmint⟩ := h.launchCtx
    obtain ⟨hone, hmints⟩ := secondSigners_run hbootstrap start.happenings
    dsimp only
    cases hlist : ((outputs wired.step wired.init start.happenings).flatten).filterMap
        secondSigner with
    | nil => exact .inl rfl
    | cons mint rest =>
      rw [hlist] at hone hmints
      obtain rfl : rest = [] := by
        rw [List.length_cons] at hone
        exact List.length_eq_zero_iff.1 (by omega)
      obtain rfl := hmints mint List.mem_cons_self
      exact .inr ⟨_, idx, t, rfl, h.claims.real hreal, h.entry, h.keyed, hmint⟩

theorem handedOver_nodup (hjson : TokenJson.RoundTrips) {disk : Tree} {launched : List Pubkey}
    (hs : Stocked (shelf cacheDir keysDir disk) tokens) (starts : List Start)
    (hproper : ∀ start ∈ starts, Start.Proper cacheDir keysDir start)
    (hdistinct : ((shelf cacheDir keysDir disk).keys.filterMap mintOf).Nodup)
    (hnodup : launched.Nodup) (hused : ∀ mint ∈ launched, UsedUp tokens mint) :
    (launched ++ (handedOver disk starts).filterMap secondSigner).Nodup ∧ ∃ tokens',
      (shelf cacheDir keysDir (diskAfter disk starts)).tokens = some tokens' ∧
      ∀ mint ∈ launched ++ (handedOver disk starts).filterMap secondSigner,
        UsedUp tokens' mint := by
  induction starts generalizing disk tokens launched with
  | nil =>
    rw [handedOver, List.filterMap_nil, List.append_nil]
    exact ⟨hnodup, tokens, hs.readable, hused⟩
  | cons start starts ih =>
    obtain ⟨hstart, hrest⟩ := List.forall_mem_cons.1 hproper
    obtain ⟨tokens', hlater, hlaunch⟩ := run_later hjson hstart hs
    have hdistinct' := Multiset.nodup_of_le (Multiset.filterMap_le_filterMap mintOf hlater.keys)
      hdistinct
    have hold (mint : Pubkey) (hmint : mint ∈ launched) : UsedUp tokens' mint :=
      (hused mint hmint).grows hlater.grows
    rw [handedOver_cons, List.filterMap_append, ← List.append_assoc]
    rcases hlaunch with hnone | ⟨mint, idx, t, hone, hmarks, ht, hkey, hmint⟩
    · rw [hnone, List.append_nil]
      exact ih hlater.stocked hrest hdistinct' hnodup hold
    · rw [hone]
      apply ih hlater.stocked hrest hdistinct'
      · apply hnodup.append (List.nodup_singleton mint)
        intro mint' hmem hmem'
        obtain rfl := List.mem_singleton.1 hmem'
        exact (hused mint' hmem).ne_of_unused hmarks.unused hlater.grows
          (nodup_mints hlater.stocked.readable hdistinct') ht hkey hmint rfl
      · intro mint' hmem
        rcases List.mem_append.1 hmem with hmem | hmem
        · exact hold mint' hmem
        · obtain rfl := List.mem_singleton.1 hmem
          have hisUsed := hmarks.used
          rw [flagAt, ht] at hisUsed
          exact ⟨idx, t, ht, Option.some.inj hisUsed, hkey, hmint⟩

/-- Over any number of starts, wherever they fail or are stopped and whatever comes in once they are
live: the launches that they hand over are for different mints, each of them the mint of an entry
that the roster on the disk has as used. -/
theorem mints_launched_once (hjson : TokenJson.RoundTrips) {disk : Tree}
    (hs : Stocked (shelf cacheDir keysDir disk) tokens)
    (hdistinct : ((shelf cacheDir keysDir disk).keys.filterMap mintOf).Nodup)
    (starts : List Start) (hproper : ∀ start ∈ starts, Start.Proper cacheDir keysDir start) :
    ((handedOver disk starts).filterMap secondSigner).Nodup ∧ ∃ tokens',
      (shelf cacheDir keysDir (diskAfter disk starts)).tokens = some tokens' ∧
      ∀ mint ∈ (handedOver disk starts).filterMap secondSigner, UsedUp tokens' mint :=
  handedOver_nodup hjson hs starts hproper hdistinct .nil fun _ h => absurd h List.not_mem_nil

/-- What comes of a start: it fails, with no entry claimed unless its metadata was there; or it
goes live with a claimed entry, and what it launches is that entry's mint, with the URI of what was
pinned for it. -/
def Published (start : Start) (tokens tokens' : List Tokens.TokenSpec)
    (st : World × List Request) : Except Failure Wired → Prop
  | .error _ => Left start.cfg start.web tokens tokens' st
  | .ok wired => ∃ idx t metadata,
      Claimed start.cfg start.web tokens tokens' idx t metadata st ∧
      (start.cfg.ipfsDebugmode = false →
        Metadata.Leads start.web start.cfg.ipfsGateway t st.1.disk metadata st.2) ∧
      ∀ bs ∈ (outputs wired.step wired.init start.happenings).flatten, ∀ mint,
        secondSigner bs = some mint →
        Creates wired start.services.accountData start.cfg.addressLookupTable t metadata.uri mint bs

/-- Whatever the disk, the network and the web do in a start: an entry is only claimed with its
metadata in place, and a launch is of the claimed entry with the URI of that metadata. -/
theorem token_published (hjson : TokenJson.RoundTrips) (hread : PinataJson.RoundTrips)
    {start : Start} {disk : Tree} (hcfg : start.cfg.Apart)
    (hs : Stocked (shelf start.cfg.cacheDir start.cfg.keysDir disk) tokens) :
    ∃ tokens', Later (shelf start.cfg.cacheDir start.cfg.keysDir disk) tokens
        (shelf start.cfg.cacheDir start.cfg.keysDir (start.after disk)) tokens' ∧
      Published start tokens tokens' (start.run disk).2 (start.run disk).1 := by
  obtain ⟨tokens', hlater, houtcome⟩ := run_outcome hjson hcfg hs
  refine ⟨tokens', hlater, ?_⟩
  cases hres : (start.run disk).1 with
  | error e =>
    rw [hres] at houtcome
    exact houtcome
  | ok wired =>
    rw [hres] at houtcome
    obtain ⟨idx, t, metadata, h⟩ := houtcome
    exact ⟨idx, t, metadata, h.toClaimed, h.uploaded.leads hread,
      fun bs hbs mint hsigner => h.creates hbs hsigner⟩

end History

def launchToken : Tokens.TokenSpec :=
  ⟨"Pepe", "PEPE", "a frog", "https://pepe.example", "@pepe", false,
    String.ofList (Text.array (List.replicate 32 47 ++ sampleMint.toList))⟩

def launchRoster : List Tokens.TokenSpec :=
  [launchToken, ⟨"Debug", "D", "sentinel", "", "", false, "[2,2]"⟩]

def launchAssets : Tree :=
  (sampleDirs.add "assets" [] .dir (Tree.isDir_root _) (by decide)).add "PEPE.png" ["assets"]
    (.file [137, 80, 78, 71]) (.inr (by decide)) (by decide)

def launchDisk : Tree :=
  (launchAssets.add "tokens.json" ["cache"] (.file (@rosterBytes rosterJson launchRoster))
    (.inr (by decide)) (by decide)).add "tokens.jsonl" ["keys"] (.file []) (.inr (by decide))
    (by decide)

def sampleEnvelope (cid : String) : List UInt8 :=
  Text.toUtf8 ("\x7b\"data\":\x7b\"id\":\"0\",\"cid\":\"".toList ++ cid.toList ++
    "\"\x7d\x7d".toList)

/-- `serde_json` on objects, and on the two envelopes. -/
abbrev sampleEnvelopes : PinataJson where
  toVec members := .ok (Text.toUtf8 (JsonText.objectText members))
  member json name :=
    ((Text.ofUtf8 json).bind JsonText.readObject).bind fun members => members.lookup name
  cid bytes :=
    match ["image", "pepe"].find? fun cid => decide (sampleEnvelope cid = bytes) with
    | some cid => .ok cid
    | none => .error ["expected value at line 1 column 1"]

theorem sampleEnvelopes_roundTrips : @PinataJson.RoundTrips sampleEnvelopes := by
  rintro members _ - hjson name
  obtain rfl := Except.ok.inj hjson
  change ((Text.ofUtf8 (Text.toUtf8 (JsonText.objectText members))).bind JsonText.readObject).bind
    (fun members => members.lookup name) = _
  rw [Text.ofUtf8_toUtf8, Option.bind_some, JsonText.readObject_objectText, Option.bind_some]

def sampleWeb : Web where
  client := .ok ()
  send number _ := .ok (.success (.ok (sampleEnvelope (if number = 0 then "image" else "pepe"))))

def sampleLive : Config where
  eaterAmount := 0
  debug := true
  batchSize := 1
  fireAtShredCount := 1
  addressLookupTable := "11111111111111111111111111111111"
  node1ApiKey := some "00112233-4455-6677-8899-aabbccddeeff"
  pinataJwt := some "jwt"
  ipfsGateway := "ipfs://"

def sampleServices : Services where
  leaders := sampleStartup.leaders
  blockhash := sampleStartup.blockhash
  global := sampleStartup.global
  accountData := sampleStartup.accountData
  node1 := sampleStartup.node1

def sampleEnv : Env := .calm 0 (.replicate 32 3)

def startIn (env : Env) : Start :=
  ⟨sampleLive, sampleServices, env, sampleWeb, sampleHappenings⟩

theorem lookup_roster_launchDisk : launchDisk.lookup ["tokens.json", "cache"] =
    some (.file (@rosterBytes rosterJson launchRoster)) := rfl

theorem shelf_launchDisk : shelf ["cache"] ["keys"] launchDisk =
    @Shelf.withTokens rosterJson ⟨none, some (.file [])⟩ launchRoster := rfl

theorem stocked_launchDisk :
    @Stocked rosterJson (shelf ["cache"] ["keys"] launchDisk) launchRoster := by
  rw [shelf_launchDisk]
  exact @Stocked.mk rosterJson _ _
    (@Shelf.tokens_withTokens rosterJson rosterJson_roundTrips _ _) (by decide) rfl (by decide)

theorem distinct_launchDisk :
    ((@Shelf.keys rosterJson (shelf ["cache"] ["keys"] launchDisk)).filterMap
      (@mintOf ByteJson.plain)).Nodup := by
  have hlines : (shelf ["cache"] ["keys"] launchDisk).lines = [] := by decide
  have hdebug : @mintOf ByteJson.plain "[2,2]" = none := by decide +kernel
  have hkeys : keysOf launchRoster = [launchToken.privatekey, "[2,2]"] ∨
      keysOf launchRoster = ["[2,2]"] := by
    rw [launchRoster, keysOf_cons]
    split
    · exact .inr (by decide)
    · exact .inl (congrArg (launchToken.privatekey :: ·) (by decide))
  rw [@keys_of_tokens rosterJson _ _ (@Stocked.readable rosterJson _ _ stocked_launchDisk), hlines,
    Multiset.coe_add, Multiset.filterMap_coe, Multiset.coe_nodup, List.append_nil]
  rcases hkeys with hkeys | hkeys
  · rw [hkeys, List.filterMap_cons, List.filterMap_cons, hdebug]
    split <;> simp
  · rw [hkeys, List.filterMap_cons, hdebug]
    exact .nil

theorem apart_sampleLive : sampleLive.Apart := by
  constructor
  · intro day heq
    cases (List.cons.inj heq).2
  · decide
  · decide

theorem proper_startIn (env : Env) : (startIn env).Proper ["cache"] ["keys"] :=
  ⟨rfl, rfl, apart_sampleLive, rfl⟩

theorem picked_launchToken :
    @Tokens.TokenSpec.picked ByteJson.plain launchToken = sampleToken := by
  have hparse : ByteJson.plain.parse launchToken.privatekey.toList =
      .ok (List.replicate 32 47 ++ sampleMint.toList) := by
    have harray := ByteJson.plain_readsArrays [] [] (List.replicate 32 47 ++ sampleMint.toList)
      (by simp) (by simp)
    rw [List.nil_append, List.append_nil] at harray
    rw [launchToken, String.toList_ofList]
    exact harray
  have hbytes := @parseKeypairBytes_of_parse ByteJson.plain _ _ hparse (by decide)
  unfold Tokens.TokenSpec.picked
  rw [hbytes]
  rfl

def sampleRun : Online Wired := do
  let prepared ← onFirst (@prepare sampleLauncher sampleLive.toConfig)
  let metadata ← @Metadata.upload sampleEnvelopes sampleLive.toPinataConfig launchToken
  onFirst (@claim rosterJson sampleLive launchRoster 0)
  onFirst (@goLive sampleLauncher sampleAddressHash LaunchIx.sampleBase58 sampleLive.toConfig
    sampleServices sampleToken prepared metadata.uri)

theorem needed_launchRoster : needed launchRoster = [] := by decide +kernel

theorem run_launchDisk : @Start.run sampleLauncher sampleAddressHash LaunchIx.sampleBase58
    rosterJson ByteJson.plain sampleEnvelopes (startIn sampleEnv) launchDisk =
    sampleRun (sampleEnv, sampleWeb) ({ World.init launchDisk with tick := 2 }, []) := by
  have hload : @loadAndHydrate rosterJson ["cache"] ["keys"] sampleEnv (.init launchDisk) =
      (.ok (some launchRoster), { World.init launchDisk with tick := 2 }) :=
    @loadAndHydrate_whole rosterJson launchRoster _ _ sampleEnv (.init launchDisk)
      rosterJson_roundTrips rfl rfl lookup_roster_launchDisk needed_launchRoster
  rw [sampleRun, ← picked_launchToken]
  exact @main_run sampleLauncher sampleAddressHash LaunchIx.sampleBase58 rosterJson ByteJson.plain
    sampleEnvelopes sampleEnv (.init launchDisk) _ launchRoster 0 launchToken sampleLive
    sampleServices sampleWeb [] hload rfl rfl

def OneLaunch (res : Except Failure Wired) : Prop :=
  ∃ wired, res = .ok wired ∧ wired.launchCtx.mintPubkey = sampleMint ∧
    (@Wired.trace sampleLauncher wired sampleHappenings).map
      (fun x => (Wired.isLaunch x, x.handed.isSome)) = [(true, true)]

theorem oneLaunch_launchDisk : OneLaunch (@Start.run sampleLauncher sampleAddressHash
    LaunchIx.sampleBase58 rosterJson ByteJson.plain sampleEnvelopes (startIn sampleEnv)
    launchDisk).1 := by
  have hall : ((sampleRun (sampleEnv, sampleWeb)
      ({ World.init launchDisk with tick := 2 }, [])).1.toOption.any fun wired =>
        decide (wired.launchCtx.mintPubkey = sampleMint ∧
          (@Wired.trace sampleLauncher wired sampleHappenings).map
            (fun x => (Wired.isLaunch x, x.handed.isSome)) = [(true, true)])) = true := by
    decide +kernel
  rw [run_launchDisk]
  generalize (sampleRun (sampleEnv, sampleWeb)
    ({ World.init launchDisk with tick := 2 }, [])).1 = res at hall
  cases res with
  | error e => cases hall
  | ok wired => exact ⟨wired, rfl, of_decide_eq_true hall⟩

theorem handed_launchDisk : (@Start.handed sampleLauncher sampleAddressHash LaunchIx.sampleBase58
    rosterJson ByteJson.plain sampleEnvelopes (startIn sampleEnv) launchDisk).filterMap
    secondSigner = [sampleMint] := by
  obtain ⟨wired, hrun, hmint, htrace⟩ := oneLaunch_launchDisk
  rw [@secondSigners_of_run sampleLauncher sampleAddressHash LaunchIx.sampleBase58 rosterJson
    ByteJson.plain sampleEnvelopes _ _ _ hrun htrace, hmint]

def threeStarts : List Start :=
  [sampleEnv, sampleEnv.stopAt 1, sampleEnv].map startIn

theorem mints_launched_once_sample :
    sampleMint ∈ (@handedOver sampleLauncher sampleAddressHash LaunchIx.sampleBase58 rosterJson
      ByteJson.plain sampleEnvelopes launchDisk threeStarts).filterMap secondSigner ∧
    ((@handedOver sampleLauncher sampleAddressHash LaunchIx.sampleBase58 rosterJson
      ByteJson.plain sampleEnvelopes launchDisk threeStarts).filterMap secondSigner).Nodup := by
  have hproper : ∀ start ∈ threeStarts, Start.Proper ["cache"] ["keys"] start :=
    List.forall_mem_map.2 fun env _ => proper_startIn env
  constructor
  · rw [threeStarts, List.map_cons, @handedOver_cons sampleLauncher, List.filterMap_append,
      handed_launchDisk]
    exact List.mem_append_left _ List.mem_cons_self
  · exact (@mints_launched_once sampleLauncher sampleAddressHash LaunchIx.sampleBase58 rosterJson
      ByteJson.plain sampleEnvelopes ["cache"] ["keys"] launchRoster rosterJson_roundTrips
      launchDisk stocked_launchDisk distinct_launchDisk threeStarts hproper).1

theorem token_published_sample : ∃ tokens' wired,
    (@Start.run sampleLauncher sampleAddressHash LaunchIx.sampleBase58 rosterJson ByteJson.plain
      sampleEnvelopes (startIn sampleEnv) launchDisk).1 = .ok wired ∧
    @Published sampleLauncher ByteJson.plain sampleEnvelopes (startIn sampleEnv) launchRoster
      tokens' (@Start.run sampleLauncher sampleAddressHash LaunchIx.sampleBase58 rosterJson
        ByteJson.plain sampleEnvelopes (startIn sampleEnv) launchDisk).2 (.ok wired) := by
  obtain ⟨wired, hrun, -, -⟩ := oneLaunch_launchDisk
  obtain ⟨tokens', hstart⟩ := @token_published sampleLauncher sampleAddressHash
    LaunchIx.sampleBase58 rosterJson ByteJson.plain sampleEnvelopes launchRoster
    rosterJson_roundTrips sampleEnvelopes_roundTrips (startIn sampleEnv) launchDisk
    apart_sampleLive stocked_launchDisk
  rw [hrun] at hstart
  exact ⟨tokens', wired, hrun, hstart.2⟩

end TokenPumper.Program
