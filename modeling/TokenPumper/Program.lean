import TokenPumper.Main
import TokenPumper.Pumpfun.Metadata
import TokenPumper.Pumpfun.MintKeys

namespace TokenPumper.Program
open LittleEndian Effect FileTree Ipfs
set_option autoImplicit true

structure Config extends TokenPumper.Config, Metadata.PinataConfig where
  cacheDir : Path := ["cache"]

/-- What `main` fetches once the token is claimed. -/
structure Services where
  leaders : Reply EpochLeaderMap
  blockhash : Reply Unit
  global : Reply GlobalCache
  accountData : String → Except String (List UInt8)
  node1 : Node1Config → Reply Unit

/-- What `main` finds outside if the token is at hand. -/
def Services.startup (services : Services) (token : TokenSpec) (uri : String) : Startup where
  token := .ok token
  metadata := .ok uri
  markUsed := .ok ()
  leaders := services.leaders
  blockhash := services.blockhash
  global := services.global
  accountData := services.accountData
  node1 := services.node1

abbrev Online (α : Type) := Eff (Env × Web) (World × List Request) Failure α

section Definitions
variable [Ed25519] [AddressHash] [Base58]

/-- The lines of `main` behind the claim. -/
def goLive (cfg : TokenPumper.Config) (services : Services) (token : TokenSpec)
    (prepared : Prepared) (uri : String) : Run Wired := do
  let map ← answer services.leaders
  let _ ← answer services.blockhash
  let global ← answer services.global
  let mintPubkey ← token.mintPubkey
  let devPubkey := Ed25519.verifyingKey prepared.dev
  let pdas ← orPanic (LaunchPdas.derive mintPubkey devPubkey)
  let alt ← lift ((AltIndices.bootstrap services.accountData cfg.addressLookupTable).mapError
    fun message => .error [message])
  let quote ← orPanic (quoteBuyAtCreate global cfg.buySolLamports)
  let leaderCache := ⟨map, resolveRegionIdx map cfg.focusCountry⟩
  let s : Staged :=
    ⟨token, prepared, uri, leaderCache, global, mintPubkey, devPubkey, pdas, alt, quote⟩
  let submitter ← spawnNode1 cfg services.node1
  let mint ← s.token.mintKeypair
  let curveSub ← curveSubTask cfg s submitter
  pure ⟨s.launchCtx cfg mint submitter, s.leaderCache, cfg.fireAtShredCount, curveSub⟩

variable [Tokens.TokenJson] [ByteJson] [PinataJson]

/-- A debug token is never marked. -/
def claim (cfg : Config) (tokens : List Tokens.TokenSpec) (idx : Nat) : Run Unit :=
  if cfg.tokenDebug then pure () else Tokens.markUsed cfg.cacheDir tokens idx

def launch (cfg : Config) (services : Services) (tokens : List Tokens.TokenSpec) :
    Online Wired := do
  let idx ← onFirst (lift ((Tokens.pick tokens cfg.tokenDebug).mapError fun m => .error [m]))
  let token ← onFirst (orPanic tokens[idx]?)
  let prepared ← onFirst (prepare cfg.toConfig)
  let metadata ← Metadata.upload cfg.toPinataConfig token
  onFirst (claim cfg tokens idx)
  onFirst (goLive cfg.toConfig services token.picked prepared metadata.uri)

def main (cfg : Config) (services : Services) : Online Wired := do
  match ← onFirst (Tokens.loadAndHydrate cfg.cacheDir cfg.keysDir) with
  | none => onFirst (bail "no tokens.json yet created — exiting..")
  | some tokens => launch cfg services tokens

end Definitions

section Refinement
variable {cfg : TokenPumper.Config} {services : Services}

theorem still_answer (reply : Reply α) : Still (answer reply) := Still.lift _

theorem still_orPanic (o : Option α) : Still (orPanic o) := by
  cases o with
  | none => exact Still.fail _
  | some a => exact Still.pure a

theorem still_spawnNode1 (spawn : Node1Config → Reply Unit) : Still (spawnNode1 cfg spawn) := by
  rw [spawnNode1]
  split
  · exact Still.pure _
  · exact Still.bind (Still.lift _) fun _ => Still.bind (Still.lift _) fun _ => Still.pure _

theorem still_mintPubkey (token : TokenSpec) : Still token.mintPubkey :=
  Still.bind (still_answer _) fun _ => Still.pure _

variable [Ed25519]

theorem still_mintKeypair (token : TokenSpec) : Still token.mintKeypair := by
  apply Still.bind (still_answer _)
  intro kp
  split
  · exact Still.pure _
  · exact Still.fail _

variable [AddressHash]

theorem still_curveSubTask (s : Staged) (submitter : Option Node1Submitter) :
    Still (curveSubTask cfg s submitter) := by
  rw [curveSubTask]
  split
  · exact Still.bind (still_orPanic _) fun _ => Still.pure _
  · exact Still.pure _

variable [Base58]

theorem still_goLive (token : TokenSpec) (prepared : Prepared) (uri : String) :
    Still (goLive cfg services token prepared uri) := by
  apply Still.bind (still_answer _)
  intro map
  apply Still.bind (still_answer _)
  intro _
  apply Still.bind (still_answer _)
  intro global
  apply Still.bind (still_mintPubkey token)
  intro mintPubkey
  apply Still.bind (still_orPanic _)
  intro pdas
  apply Still.bind (Still.lift _)
  intro alt
  apply Still.bind (still_orPanic _)
  intro quote
  apply Still.bind (still_spawnNode1 _)
  intro submitter
  apply Still.bind (still_mintKeypair token)
  intro mint
  apply Still.bind (still_curveSubTask _ _)
  exact fun curveSub => Still.pure _

/-- With a token that is at hand, `main` is the wallet phase and what comes behind the claim. -/
theorem main_startup (token : TokenSpec) (uri : String) :
    TokenPumper.main cfg (services.startup token uri) =
      (prepare cfg >>= fun prepared => goLive cfg services token prepared uri) := by
  have hclaim : claimToken cfg (services.startup token uri) = pure () := by
    rw [claimToken]
    split <;> rfl
  simp only [TokenPumper.main, stage, Effect.bind_assoc, hclaim]
  rfl

theorem goLive_eq_ok (h : goLive cfg services token prepared uri env w = (.ok wired, w')) :
    wired.launchCtx.name = token.name ∧ wired.launchCtx.symbol = token.symbol ∧
      wired.launchCtx.uri = uri ∧ ∃ w₁ w₂, token.mintPubkey env w₁ =
        (.ok wired.launchCtx.mintPubkey, w₂) := by
  obtain ⟨map, w₁, -, h⟩ := bind_run_eq_ok h
  obtain ⟨_, w₂, -, h⟩ := bind_run_eq_ok h
  obtain ⟨global, w₃, -, h⟩ := bind_run_eq_ok h
  obtain ⟨mintPubkey, w₄, hmint, h⟩ := bind_run_eq_ok h
  obtain ⟨pdas, w₅, -, h⟩ := bind_run_eq_ok h
  obtain ⟨alt, w₆, -, h⟩ := bind_run_eq_ok h
  obtain ⟨quote, w₇, -, h⟩ := bind_run_eq_ok h
  obtain ⟨submitter, w₈, -, h⟩ := bind_run_eq_ok h
  obtain ⟨mint, w₉, -, h⟩ := bind_run_eq_ok h
  obtain ⟨curveSub, w₁₀, -, h⟩ := bind_run_eq_ok h
  obtain rfl := Except.ok.inj (Prod.mk.inj h).1
  exact ⟨rfl, rfl, rfl, w₃, w₄, hmint⟩

/-- A wallet phase and what has come behind the claim, with whatever in between, are a run of
`main` to which the token was given. -/
theorem main_of_parts (hprepare : prepare cfg env w = (.ok prepared, w'))
    (hlive : goLive cfg services token prepared uri env w₁ = (.ok wired, w₂)) :
    TokenPumper.main cfg (services.startup token uri) env w = (.ok wired, w') := by
  rw [main_startup, bind_run_ok hprepare]
  exact ((still_goLive token prepared uri).run_eq_ok hlive env w').2

end Refinement

end TokenPumper.Program
