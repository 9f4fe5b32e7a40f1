import TokenPumper.Files
import TokenPumper.Lib.JsonObject

namespace TokenPumper
open Effect FileTree JsonText
set_option autoImplicit true

/-- `anyhow::Context` on a failure. -/
def Failure.within (message : String) : Failure → Failure
  | .error chain => .error (message :: chain)
  | .panic => .panic

namespace Ipfs

def uploadUrl : String := "https://uploads.pinata.cloud/v3/files"

def network : String := "public"

/-- A file in a multipart form, with the network that it is pinned on. -/
structure Form where
  file : List UInt8
  filename : String
  mime : String
  network : String
deriving DecidableEq, Repr

inductive Request
  | post (url bearer : String) (form : Form)
  | get (url : String)
deriving DecidableEq, Repr

/-- A status that is no success, with the text that comes with it, or the body of a success; either
may break off on the way. -/
inductive Response
  | refused (status : String) (text : Option String)
  | success (body : Reply (List UInt8))

/-- What the HTTP client and the servers answer. Every request has a number of its own. -/
structure Web where
  client : Except String Unit
  send : Nat → Request → Reply Response

/-- A part of a run that is about requests; those that have been sent are its state. -/
abbrev Net (α : Type) := Eff Web (List Request) Failure α

def context (message : String) (x : Net α) : Net α := mapFailure (.within message) x

/-- The client is built at the first request, and kept. -/
def client : Net Unit := do
  let web ← surroundings
  lift (web.client.mapError fun cause => .error ["building pinata HTTP client", cause])

def send (request : Request) : Net Response := do
  let sent ← current
  update (· ++ [request])
  let web ← surroundings
  lift ((web.send sent.length request).mapError .error)

/-- `serde_json` on an object of strings and truth values, what a reader of objects finds in the
text under a name, and `serde_json` on the envelope of an answer, of which only the CID is read. -/
class PinataJson where
  toVec : List Member → Reply (List UInt8)
  member : List UInt8 → String → Option Value
  cid : List UInt8 → Reply String

/-- In the text of an object each of its members is found under its name, and nothing else. -/
def PinataJson.RoundTrips [PinataJson] : Prop := ∀ members json,
  (members.map Prod.fst).Nodup → toVec members = .ok json →
    ∀ name, member json name = members.lookup name

/-- `gateway_url`: the base may end with a slash or not. -/
def gatewayUrl (gatewayBase cid : String) : String :=
  if gatewayBase.toList.getLast? = some '/' then gatewayBase ++ cid
  else gatewayBase ++ "/" ++ cid

def warmOne (url : String) : Net Nat := do
  client
  match ← context s!"warm-up GET {url}" (send (.get url)) with
  | .refused status _ => fail (.error [s!"HTTP {status}"])
  | .success body => do
    let bytes ← context "draining warm-up body" (lift (body.mapError .error))
    pure bytes.length

/-- Each URL once; a failure is logged and that is all. -/
def warmUp : List String → Net Unit
  | [] => pure ()
  | url :: urls => do
    let _ ← attempt (warmOne url)
    warmUp urls

def uploadPost (jwt : String) (bytes : List UInt8) (filename mime : String) : Request :=
  .post uploadUrl jwt ⟨bytes, filename, mime, network⟩

def jsonPost (jwt : String) (json : List UInt8) : Request :=
  uploadPost jwt json "metadata.json" "application/json"

section Upload
variable [PinataJson]

def parseResponse (resp : Response) (method : String) : Net String :=
  match resp with
  | .refused status text => do
    let body := text.getD "<no body>"
    fail (.error [s!"pinata {method} HTTP {status}: {body}"])
  | .success body =>
    lift ((body.bind PinataJson.cid).mapError fun chain =>
      .error [": ".intercalate (s!"decoding {method} response" :: chain)])

def upload (jwt : String) (bytes : List UInt8) (filename mime : String) : Net String := do
  client
  let resp ← context "POST pinata v3/files" (send (uploadPost jwt bytes filename mime))
  parseResponse resp "v3/files"

def pinFile (jwt : String) (bytes : List UInt8) (filename mime : String) : Net String :=
  upload jwt bytes filename mime

/-- A value is what it makes of itself for a serializer, and is pinned as a file with its text. -/
def pinJson (jwt : String) (value : List Member) : Net String := do
  let bytes ← context "serializing JSON for pinata upload"
    (lift ((PinataJson.toVec value).mapError .error))
  upload jwt bytes "metadata.json" "application/json"

def Web.pinned (web : Web) (number : Nat) (request : Request) : Option String :=
  (web.send number request).toOption.bind fun
    | .refused _ _ => none
    | .success body => (body.bind PinataJson.cid).toOption

end Upload

section Rules
variable {web : Web} {sent : List Request} {P E : List Request → Prop}

theorem toOption_of_mapError {x : Except ε α} {g : ε → ε'} (h : x.mapError g = .ok a) :
    x.toOption = some a := by
  rw [Fallible.mapError_eq_ok h]
  rfl

theorem triple_client (h : web.client ≠ .ok () → ∀ s, P s → E s) :
    Triple web P client (fun _ s => P s ∧ web.client = .ok ()) E := by
  apply Triple.bind (Q := fun web' s => P s ∧ web' = web)
  · exact Triple.surroundings fun s hs => ⟨hs, rfl⟩
  intro web'
  apply Triple.assume
  rintro rfl
  intro s hs
  cases hclient : web'.client with
  | ok u => exact ⟨hs, rfl⟩
  | error cause => exact h (by rw [hclient]; nofun) s hs

theorem triple_send (message : String) (request : Request) :
    Triple web (· = sent) (context message (send request))
      (fun resp s => s = sent ++ [request] ∧ (web.send sent.length request).toOption = some resp)
      (· = sent ++ [request]) := by
  apply Triple.mapFailure
  apply Triple.bind_current
  rintro s rfl
  apply Triple.bind (Q := fun _ => (· = s ++ [request]))
  · apply Triple.update
    rintro s' rfl
    rfl
  intro _
  apply Triple.bind (Q := fun web' s' => s' = s ++ [request] ∧ web' = web)
  · exact Triple.surroundings fun s' hs => ⟨hs, rfl⟩
  intro web'
  apply Triple.assume
  rintro rfl
  exact Triple.lift (fun resp hresp s' hs => ⟨hs, toOption_of_mapError hresp⟩) fun s' hs => hs

theorem triple_warmOne (hclient : web.client = .ok ()) (url : String) :
    Triple web (· = sent) (warmOne url) (fun _ => (· = sent ++ [.get url]))
      (· = sent ++ [.get url]) := by
  apply Triple.bind (triple_client fun hno => absurd hclient hno)
  intro _
  apply Triple.assume
  intro _
  apply Triple.bind ((triple_send _ _).conseq (fun _ h => h) (fun _ _ h => h.1) fun _ h => h)
  intro resp
  cases resp with
  | refused status text => exact Triple.fail fun s hs => hs
  | success body =>
    apply Triple.bind (Q := fun _ => (· = sent ++ [.get url]))
    · exact Triple.mapFailure (Triple.still (Still.lift _) fun s hs => hs)
    · exact fun bytes => Triple.pure fun s hs => hs

theorem triple_warmUp (hclient : web.client = .ok ()) (urls : List String) :
    Triple web (· = sent) (warmUp urls) (fun _ => (· = sent ++ urls.map .get)) E := by
  induction urls generalizing sent with
  | nil =>
    apply Triple.pure
    rintro s rfl
    exact (List.append_nil s).symm
  | cons url urls ih =>
    apply Triple.bind (Q := fun _ => (· = sent ++ [.get url]))
    · exact Triple.attempt ((triple_warmOne hclient url).conseq (fun _ h => h) (fun _ _ h => h)
        fun s hs e => hs)
    · intro _
      apply ih.conseq (fun _ h => h) _ fun _ h => h
      rintro _ s rfl
      rw [List.map_cons, List.append_assoc, List.singleton_append]

theorem triple_upload [PinataJson] (jwt : String) (bytes : List UInt8) (filename mime : String) :
    Triple web (· = sent) (upload jwt bytes filename mime)
      (fun cid s => s = sent ++ [uploadPost jwt bytes filename mime] ∧ web.client = .ok () ∧
        web.pinned sent.length (uploadPost jwt bytes filename mime) = some cid)
      (fun s => s = sent ∨ s = sent ++ [uploadPost jwt bytes filename mime]) := by
  apply Triple.bind (triple_client fun _ s hs => .inl hs)
  intro _
  apply Triple.assume
  intro hclient
  apply Triple.bind ((triple_send _ _).conseq (fun _ h => h) (fun _ _ h => h) fun s hs => .inr hs)
  intro resp
  cases resp with
  | refused status text => exact Triple.fail fun s hs => .inr hs.1
  | success body =>
    apply Triple.lift _ fun s hs => .inr hs.1
    intro cid hcid s hs
    refine ⟨hs.1, hclient, ?_⟩
    rw [Web.pinned, hs.2, Option.bind_some]
    exact toOption_of_mapError hcid

theorem triple_pinJson [PinataJson] (jwt : String) (value : List Member) :
    Triple web (· = sent) (pinJson jwt value)
      (fun cid s => ∃ json, PinataJson.toVec value = .ok json ∧ s = sent ++ [jsonPost jwt json] ∧
        web.client = .ok () ∧ web.pinned sent.length (jsonPost jwt json) = some cid)
      (fun s => s = sent ∨ ∃ json, PinataJson.toVec value = .ok json ∧
        s = sent ++ [jsonPost jwt json]) := by
  apply Triple.bind (Q := fun json s => s = sent ∧ PinataJson.toVec value = .ok json)
  · apply Triple.mapFailure
    exact Triple.lift (fun json hjson s hs => ⟨hs, Fallible.mapError_eq_ok hjson⟩)
      fun s hs => .inl hs
  · intro json
    apply Triple.assume
    intro hjson
    exact (triple_upload jwt json _ _).conseq (fun _ h => h) (fun _ _ h => ⟨json, hjson, h⟩)
      fun s hs => hs.imp_right fun hsent => ⟨json, hjson, hsent⟩

end Rules

end Ipfs

end TokenPumper
