import TokenPumper.Lib.Fallible
import TokenPumper.Keys.Reliable
import TokenPumper.Keys.Stages
import TokenPumper.Main
import TokenPumper.Pumpfun.LaunchTx
import TokenPumper.Shreds.Launches

namespace TokenPumper
open LittleEndian Borsh Effect
set_option autoImplicit true

def Event.NotSent (e : Event) : Prop := ∀ purpose, ¬e.isSent purpose

theorem notSent_survives (keysDir : FileTree.Path) :
    (Since [] Event.NotSent).Survives keysDir := by
  refine since_survives (fun e he => ?_) (fun path bytes purpose => id) keysDir
  cases e with
  | today day => exact fun purpose => id
  | removed path bytes => exact fun purpose => id
  | verifiedEmpty wallets balances => exact fun purpose => id
  | sent purpose recipients tx disk => cases he

/-- No context of what runs has a submitter. -/
structure Wired.Unwired (wired : Wired) : Prop where
  launch : wired.launchCtx.submitter = none
  task : ∀ task ∈ wired.curveSub, task.Unwired

def Live.Unwired (s : Live) : Prop :=
  ∀ state ∈ s.curveSub, ∀ d ∈ state.deadlines, d.Unwired

theorem Wired.init_unwired (wired : Wired) : wired.init.Unwired := by
  intro state hstate
  obtain ⟨task, -, rfl⟩ := Option.map_eq_some_iff.1 hstate
  exact fun d hd => absurd hd List.not_mem_nil

/-- node1 is not there: no key, a key that does not parse, or no connection with it. -/
def Config.NoNode1 (cfg : Config) (spawn : Node1Config → Reply Unit) : Prop :=
  ∀ rawKey apiKey, cfg.node1ApiKey = some rawKey → parseApiKey rawKey = .ok apiKey →
    ∃ chain, spawn ⟨cfg.node1Endpoint, cfg.node1ServerName, apiKey⟩ = .error chain

section Start
variable {env : Env} {D : Cond} {cfg : Config}

theorem keeps_answer {reply : Reply α} : Keeps env (on D) (answer reply) := Keeps.lift

theorem triple_spawnNode1 (h : cfg.NoNode1 spawn) :
    Triple env (on D) (spawnNode1 cfg spawn) (fun submitter w => on D w ∧ submitter = none)
      (on D) := by
  rw [spawnNode1]
  split
  · exact Triple.pure fun w hw => ⟨hw, rfl⟩
  · rename_i rawKey hraw
    refine Triple.bind (Q := fun apiKey w => on D w ∧ parseApiKey rawKey = .ok apiKey)
      (Triple.lift (fun apiKey hkey w hw => ⟨hw, hkey⟩) fun _ hw => hw) fun apiKey =>
      Triple.assume fun hkey => ?_
    obtain ⟨chain, hchain⟩ := h rawKey apiKey hraw hkey
    dsimp only
    rw [hchain]
    exact Triple.bind (Q := fun _ _ => False) (Triple.fail fun _ hw => hw) fun _ _ hw => hw.elim

variable [Ed25519]

theorem keeps_mintKeypair (token : TokenSpec) : Keeps env (on D) token.mintKeypair := by
  apply Keeps.bind keeps_answer
  intro kp
  split
  · exact Keeps.pure
  · exact Keeps.fail

variable [AddressHash]

theorem walletContexts_unwired (h : walletContexts cfg s none slotIdx assignment = some ctxs) :
    ctxs.buy.submitter = none ∧ ctxs.sell.submitter = none := by
  obtain ⟨wallet, -, h⟩ := Option.bind_eq_some_iff.1 h
  obtain ⟨ata, -, h⟩ := Option.bind_eq_some_iff.1 h
  obtain ⟨⟨uva, _⟩, -, h⟩ := Option.bind_eq_some_iff.1 h
  obtain rfl := Option.some.inj h
  exact ⟨rfl, rfl⟩

theorem triple_curveSubTask (s : Staged) :
    Triple env (on D) (curveSubTask cfg s none)
      (fun curveSub w => on D w ∧ ∀ task ∈ curveSub, task.Unwired) (on D) := by
  rw [curveSubTask]
  split
  · refine Triple.bind (triple_orPanic fun _ hw => hw) fun wallets => Triple.pure ?_
    rintro w ⟨hw, hwallets⟩
    refine ⟨hw, fun task htask => ?_⟩
    obtain rfl := Option.some.inj htask
    have hall (ctxs : WalletContexts) (hctxs : ctxs ∈ wallets) :
        ctxs.buy.submitter = none ∧ ctxs.sell.submitter = none := by
      obtain ⟨_, -, hctx⟩ := Fallible.mem_of_mapM hwallets hctxs
      exact walletContexts_unwired hctx
    refine ⟨?_, ?_, ?_⟩
    · exact List.forall_mem_map.2 fun ctxs hctxs => (hall ctxs hctxs).1
    · exact List.forall_mem_map.2 fun ctxs hctxs => (hall ctxs hctxs).2
    · intro ctx hctx
      obtain rfl := Option.some.inj hctx
      rfl
  · exact Triple.pure fun w hw => ⟨hw, fun task htask => (nomatch htask)⟩

theorem keeps_stage [Base58] (hdebug : cfg.debug = true) (hD : D.Survives cfg.keysDir)
    (startup : Startup) : Keeps env (on D) (stage cfg startup) := by
  apply Keeps.bind keeps_answer
  intro token
  apply Keeps.bind (keeps_prepare_debug hdebug hD)
  intro prepared
  apply Keeps.bind keeps_answer
  intro uri
  refine Keeps.bind ?_ fun _ => ?_
  · rw [claimToken]
    split
    · exact Keeps.pure
    · exact keeps_answer
  apply Keeps.bind keeps_answer
  intro map
  apply Keeps.bind keeps_answer
  intro _
  apply Keeps.bind keeps_answer
  intro global
  apply Keeps.bind (Keeps.bind keeps_answer fun _ => Keeps.pure)
  intro mintPubkey
  apply Keeps.bind keeps_orPanic
  intro pdas
  apply Keeps.bind Keeps.lift
  intro alt
  exact Keeps.bind keeps_orPanic fun quote => Keeps.pure

/-- Without node1 a debug start sends nothing, and nothing that runs after it has a submitter. -/
theorem triple_main_debug [Base58] (env : Env) (hdebug : cfg.debug = true)
    (hD : D.Survives cfg.keysDir) (startup : Startup) (hnode1 : cfg.NoNode1 startup.node1) :
    Triple env (on D) (main cfg startup) (fun wired w => on D w ∧ wired.Unwired) (on D) := by
  apply Triple.bind (keeps_stage hdebug hD startup)
  intro s
  apply Triple.bind (triple_spawnNode1 hnode1)
  intro submitter
  apply Triple.assume
  intro hnone
  subst hnone
  apply Triple.bind (keeps_mintKeypair s.token)
  intro mint
  refine Triple.bind (triple_curveSubTask s) fun curveSub => Triple.pure ?_
  exact fun w hw => ⟨hw.1, rfl, hw.2⟩

end Start

section Live
variable [Ed25519] {wired : Wired} {s s' : Live}

theorem receivePacket_unwired (h : wired.Unwired) (receiver : Receiver) (txBuf : BuiltTx)
    (buf : List UInt8) (blockhash : Bytes 32) :
    (wired.receivePacket receiver txBuf buf blockhash).2 = none := by
  rw [Wired.receivePacket]
  split
  · rfl
  · rfl
  · split
    · rfl
    · rename_i hfire
      rw [fireLaunch, h.launch] at hfire
      exact fire_unwired hfire

theorem Wired.Unwired.step (h : wired.Unwired) (hs : s.Unwired)
    (hstep : wired.step s happening = some (s', out)) : s'.Unwired ∧ out = [] := by
  unfold Wired.step at hstep
  split at hstep
  case h_1 =>
    obtain ⟨rfl, rfl⟩ := Prod.mk.inj (Option.some.inj hstep)
    exact ⟨hs, rfl⟩
  case h_2 buf blockhash receiver txBuf _ =>
    have hquiet := receivePacket_unwired h receiver txBuf buf blockhash
    generalize wired.receivePacket receiver txBuf buf blockhash = received at hstep hquiet
    obtain ⟨thread, handed⟩ := received
    obtain ⟨rfl, rfl⟩ := Prod.mk.inj (Option.some.inj hstep)
    obtain rfl : handed = none := hquiet
    exact ⟨hs, rfl⟩
  case h_3 e =>
    obtain ⟨task, htask, hstep⟩ := Option.bind_eq_some_iff.1 hstep
    obtain ⟨state, hstate, hstep⟩ := Option.bind_eq_some_iff.1 hstep
    obtain ⟨⟨state', fired⟩, hfired, hstep⟩ := Option.bind_eq_some_iff.1 hstep
    obtain ⟨rfl, rfl⟩ := Prod.mk.inj (Option.some.inj hstep)
    obtain ⟨hstate', hquiet⟩ := CurveSub.step_unwired (h.task task htask) (hs state hstate) hfired
    refine ⟨fun x hx => ?_, List.filterMap_eq_nil_iff.2 hquiet⟩
    obtain rfl := Option.some.inj hx
    exact hstate'
  case h_4 => cases hstep

theorem Wired.Unwired.quiet (h : wired.Unwired) (happenings : List Happening) :
    (Machine.outputs wired.step wired.init happenings).flatten = [] := by
  refine List.eq_nil_iff_forall_not_mem.2
    (Machine.outputs_forall Live.Unwired (fun _ => False) (fun hs hstep => ?_) wired.init_unwired)
  obtain ⟨hs', rfl⟩ := h.step hs hstep
  exact ⟨hs', fun _ ho => absurd ho List.not_mem_nil⟩

/-- A debug run without node1 sends nothing over RPC and submits nothing. -/
theorem main_debug_quiet [AddressHash] [Base58] {cfg : Config} {startup : Startup}
    (hdebug : cfg.debug = true) (hnode1 : cfg.NoNode1 startup.node1) (env : Env)
    (disk : FileTree.Tree) (happenings : List Happening) :
    (∀ e ∈ (main cfg startup env (.init disk)).2.log, e.NotSent) ∧
      submissions cfg startup env disk happenings = [] := by
  have hmain := triple_main_debug env hdebug (notSent_survives cfg.keysDir) startup hnode1
    (.init disk) (since_self _ _ _)
  rw [submissions]
  cases hrun : main cfg startup env (.init disk) with
  | mk res w =>
    rw [hrun] at hmain
    cases res with
    | error e =>
      obtain ⟨_, rfl, hlog⟩ := hmain
      exact ⟨hlog, rfl⟩
    | ok wired =>
      obtain ⟨⟨_, rfl, hlog⟩, hunwired⟩ := hmain
      exact ⟨hlog, hunwired.quiet happenings⟩

end Live

def sampleDev : Pubkey := samplePublic3

def sampleMint : Pubkey := #v[
  110, 50, 193, 151, 65, 240, 175, 130, 96, 97, 42, 233, 159, 209, 61, 138, 56, 148, 71, 34, 224,
  137, 100, 221, 35, 151, 56, 245, 82, 166, 21, 59]

def sampleCurve : Pubkey := #v[
  6, 239, 200, 211, 140, 67, 51, 192, 246, 240, 92, 253, 78, 242, 199, 22, 251, 15, 126, 207, 248,
  148, 171, 56, 71, 94, 147, 47, 70, 163, 42, 96]

def samplePreimage (seeds : List (List UInt8)) (programId : Pubkey) : List UInt8 :=
  seeds.flatten ++ [255] ++ programId.toList ++ pdaMarker

def sampleDigests : List (List UInt8 × Bytes 32) :=
  [(samplePreimage [utf8 "bonding-curve", sampleMint.toList] pumpProgramId, sampleCurve),
    (samplePreimage [sampleCurve.toList, token2022ProgramId.toList, sampleMint.toList] ataProgramId,
      #v[
        33, 176, 159, 104, 128, 80, 139, 238, 140, 249, 45, 178, 229, 136, 155, 197, 217, 182, 102,
        144, 31, 65, 79, 59, 131, 13, 48, 52, 236, 43, 221, 166]),
    (samplePreimage [utf8 "mayhem-state", sampleMint.toList] mayhemProgramId, #v[
        8, 202, 55, 99, 251, 72, 235, 238, 233, 202, 101, 132, 5, 215, 183, 40, 95, 43, 103, 29, 25,
        40, 108, 215, 200, 134, 65, 172, 65, 164, 159, 10]),
    (samplePreimage [solVaultPda.toList, token2022ProgramId.toList, sampleMint.toList] ataProgramId,
      #v[
        72, 184, 235, 223, 198, 206, 246, 88, 111, 190, 66, 243, 167, 66, 200, 109, 70, 112, 221,
        215, 107, 217, 180, 6, 245, 46, 211, 34, 245, 216, 201, 148]),
    (samplePreimage [sampleDev.toList, token2022ProgramId.toList, sampleMint.toList] ataProgramId,
      #v[
        55, 55, 250, 42, 74, 200, 25, 94, 115, 22, 9, 101, 53, 140, 199, 234, 151, 146, 212, 9, 174,
        235, 49, 255, 58, 4, 140, 176, 183, 100, 43, 99]),
    (samplePreimage [utf8 "creator-vault", sampleDev.toList] pumpProgramId, #v[
        55, 78, 27, 135, 207, 252, 188, 233, 236, 101, 116, 125, 110, 213, 189, 75, 68, 27, 130,
        184, 83, 26, 236, 46, 193, 250, 19, 201, 140, 225, 43, 247]),
    (samplePreimage [utf8 "user_volume_accumulator", sampleDev.toList] pumpProgramId, #v[
        109, 241, 145, 52, 179, 212, 7, 145, 75, 15, 106, 167, 137, 125, 199, 159, 17, 145, 51, 65,
        252, 243, 194, 214, 240, 132, 132, 110, 13, 24, 99, 136]),
    (samplePreimage [utf8 "bonding-curve-v2", sampleMint.toList] pumpProgramId, #v[
        165, 207, 75, 207, 228, 159, 130, 36, 141, 194, 188, 17, 111, 30, 38, 43, 133, 6, 148, 245,
        3, 77, 92, 235, 235, 197, 102, 37, 226, 243, 53, 176])]

abbrev sampleAddressHash : AddressHash where
  sha256 preimage := (sampleDigests.lookup preimage).getD (.replicate 32 0)
  onCurve _ := false

abbrev sampleLauncher : Ed25519 := .ofVectors
  [(.replicate 32 3, sampleDev), (.replicate 32 47, sampleMint)]
  [(.replicate 32 3, #v[
      160, 13, 147, 97, 80, 156, 220, 96, 247, 142, 99, 28, 217, 161, 148, 62, 34, 61, 85, 102, 95,
      224, 255, 186, 167, 174, 237, 70, 28, 77, 153, 111, 252, 175, 69, 77, 44, 247, 178, 102, 23,
      24, 21, 236, 62, 162, 211, 196, 253, 130, 170, 20, 196, 157, 99, 235, 113, 39, 243, 148, 170,
      235, 1, 5]),
    (.replicate 32 47, #v[
      138, 236, 6, 12, 39, 30, 54, 229, 161, 61, 77, 84, 66, 85, 15, 210, 225, 245, 177, 76, 6,
      148, 34, 249, 5, 172, 84, 140, 112, 63, 104, 55, 55, 7, 148, 55, 124, 65, 255, 159, 146, 55,
      221, 246, 175, 239, 105, 229, 39, 154, 97, 25, 213, 226, 78, 34, 45, 164, 221, 231, 148, 173,
      244, 1])]

def sampleToken : TokenSpec where
  name := "Pepe"
  symbol := "PEPE"
  keypairBytes := .ok (ofList (List.replicate 32 47 ++ sampleMint.toList) (by decide))

def sampleStartup : Startup where
  token := .ok sampleToken
  metadata := .ok "ipfs://pepe"
  markUsed := .ok ()
  leaders := .ok sampleMap
  blockhash := .ok ()
  global := .ok sampleGlobal
  accountData _ := .ok LaunchIx.sampleTableData
  node1 _ := .ok ()

def sampleDebug (node1ApiKey : Option String) : Config where
  eaterAmount := 0
  debug := true
  tokenDebug := true
  batchSize := 1
  fireAtShredCount := 1
  addressLookupTable := "11111111111111111111111111111111"
  node1ApiKey

def sampleHappenings : List Happening :=
  [.streamSpawned, .packet (sampleShred 100) (.replicate 32 9)]

theorem main_debug_quiet_sample :
    (∀ e ∈ (@main sampleLauncher sampleAddressHash LaunchIx.sampleBase58 (sampleDebug none)
        sampleStartup (.calm 0 (.replicate 32 3)) (.init .empty)).2.log, e.NotSent) ∧
      @submissions sampleLauncher sampleAddressHash LaunchIx.sampleBase58 (sampleDebug none)
        sampleStartup (.calm 0 (.replicate 32 3)) .empty sampleHappenings = [] :=
  @main_debug_quiet sampleLauncher sampleAddressHash LaunchIx.sampleBase58 (sampleDebug none)
    sampleStartup rfl (fun _ _ hraw => nomatch hraw) (.calm 0 (.replicate 32 3)) .empty
    sampleHappenings

/-- A debug run that has a key for node1 submits the launch. -/
theorem main_debug_submits :
    ¬∀ (cfg : Config) (startup : Startup) (env : Env) (disk : FileTree.Tree)
      (happenings : List Happening), cfg.debug = true →
      (∀ e ∈ (@main sampleLauncher sampleAddressHash LaunchIx.sampleBase58 cfg startup env
          (.init disk)).2.log, e.NotSent) ∧
        @submissions sampleLauncher sampleAddressHash LaunchIx.sampleBase58 cfg startup env disk
          happenings = [] := by
  intro hall
  have hempty := (hall (sampleDebug (some "00112233-4455-6677-8899-aabbccddeeff")) sampleStartup
    (.calm 0 (.replicate 32 3)) .empty sampleHappenings rfl).2
  have hlaunch : (@submissions sampleLauncher sampleAddressHash LaunchIx.sampleBase58
      (sampleDebug (some "00112233-4455-6677-8899-aabbccddeeff")) sampleStartup
      (.calm 0 (.replicate 32 3)) .empty sampleHappenings).length = 1 := by
    decide +kernel
  rw [hempty] at hlaunch
  cases hlaunch

end TokenPumper
