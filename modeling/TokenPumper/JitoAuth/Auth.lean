import TokenPumper.Base58
import TokenPumper.Keys.World
import TokenPumper.Lib.Machine

namespace TokenPumper.JitoAuth
open LittleEndian Borsh Effect
set_option autoImplicit true

structure Timestamp where
  seconds : Int64
  nanos : Int32
deriving DecidableEq, Repr

/-- `SystemTime::try_from` of `prost_types`; a time is nanoseconds since the epoch. -/
class TimestampTime where
  systemTime : Timestamp → Option Int

structure Token where
  value : String
  expiresAtUtc : Option Timestamp
deriving DecidableEq, Repr

inductive Role
  | relayer
  | searcher
  | validator
  | shredstreamSubscriber
deriving DecidableEq, Repr

inductive Request
  | challenge (role : Role) (pubkey : Pubkey)
  | tokens (challenge : String) (clientPubkey : Pubkey) (signedChallenge : Bytes 64)
  | refresh (refreshToken : String)
deriving DecidableEq, Repr

structure TokensResponse where
  accessToken : Option Token
  refreshToken : Option Token

/-- What one iteration of the loop finds outside. -/
structure Round where
  exit : Bool
  now : Int
  challenge : Reply String
  tokens : Reply TokensResponse
  refreshed : Reply (Option Token)
  /-- The clock when the last reply is in, where the loop does not look at it. -/
  replied : Int

/-- Calls to the auth service, with the requests that have been sent. -/
abbrev Calls := Eff Round (List Request) (List String)

def call (request : Request) (reply : Round → Reply α) : Calls α := do
  update (· ++ [request])
  let round ← surroundings
  lift (reply round)

/-- A duration is nanoseconds. -/
def second : Nat := 1000000000

/-- Re-up the access token when it has this much TTL or less. -/
def refreshMargin : Nat := 5 * 60 * second

def refreshPoll : Nat := 5 * second

/-- `SystemTime::duration_since`. -/
def durationSince (t earlier : Int) : Option Nat :=
  if earlier ≤ t then some (t - earlier).toNat else none

/-- What the loop remembers: the refresh token, and when the access token expires. -/
structure Refresher where
  refreshToken : Token
  accessExpires : Timestamp
deriving DecidableEq, Repr

/-- A call with the tokens that it installed and the clock after it, or a sleep. -/
inductive Event
  | rpc (requests : List Request) (installed : List Token) (replied : Int)
  | sleep (duration : Nat)
deriving DecidableEq, Repr

/-- Before the loop; without an expiry the task panics. -/
def start (access refresh : Token) : Option Refresher :=
  access.expiresAtUtc.map fun expires => ⟨refresh, expires⟩

def Refresher.refreshAccess (s : Refresher) (r : Round) : Option Refresher × List Event :=
  let requests := [Request.refresh s.refreshToken.value]
  match r.refreshed with
  | .ok (some access) =>
    (access.expiresAtUtc.map fun expires => { s with accessExpires := expires },
      [.rpc requests [access] r.replied])
  -- there is no sleep behind these two warnings
  | .ok none => (some s, [.rpc requests [] r.replied])
  | .error _ => (some s, [.rpc requests [] r.replied])

section Handshake
variable [Ed25519] [Base58Encode] (keypair : SigningKey) (role : Role)

def challengeAndSign : Calls (Token × Token) := do
  let pubkey := Ed25519.verifyingKey keypair
  let challenge ← mapFailure ("generate_auth_challenge" :: ·)
    (call (.challenge role pubkey) Round.challenge)
  let message := s!"{Base58Encode.encode pubkey.toList}-{challenge}"
  let signed := Ed25519.sign keypair (utf8 message)
  let tokens ← mapFailure ("generate_auth_tokens" :: ·)
    (call (.tokens message pubkey signed) Round.tokens)
  match tokens.accessToken, tokens.refreshToken with
  | some access, some refresh => pure (access, refresh)
  | none, _ => fail ["auth response missing access_token"]
  | some _, none => fail ["auth response missing refresh_token"]

def Refresher.rehandshake (s : Refresher) (r : Round) : Option Refresher × List Event :=
  match challengeAndSign keypair role r [] with
  | (.ok (access, refresh), requests) =>
    (start access refresh, [.rpc requests [access, refresh] r.replied])
  | (.error _, requests) => (some s, [.rpc requests [] r.replied, .sleep refreshPoll])

variable [TimestampTime]

def ttlFrom (now : Int) (ts : Timestamp) : Nat :=
  ((TimestampTime.systemTime ts).bind (durationSince · now)).getD 0

/-- One iteration behind the check of the exit flag. Nothing is left after a panic. -/
def Refresher.iterate (s : Refresher) (r : Round) : Option Refresher × List Event :=
  match s.refreshToken.expiresAtUtc with
  | none => (none, [])
  | some refreshExpires =>
    if ttlFrom r.now refreshExpires < refreshMargin then s.rehandshake keypair role r
    else if ttlFrom r.now s.accessExpires < refreshMargin then s.refreshAccess r
    else (some s, [.sleep refreshPoll])

/-- The task has ended where there is no state. -/
def step (s : Option Refresher) (r : Round) : Option (Option Refresher × List Event) :=
  s.map fun s => if r.exit then (none, []) else s.iterate keypair role r

def next (s : Option Refresher) (r : Round) : Option (Option Refresher) :=
  (step keypair role s r).map Prod.fst

def trace (s : Option Refresher) (rounds : List Round) : List Event :=
  (Machine.outputs (step keypair role) s rounds).flatten

def events (access refresh : Token) (rounds : List Round) : List Event :=
  trace keypair role (start access refresh) rounds

end Handshake

end TokenPumper.JitoAuth
