import TokenPumper.Ipfs
import TokenPumper.Pumpfun.Picks

namespace TokenPumper.Metadata
open Effect FileTree Ipfs JsonText Tokens
set_option autoImplicit true

/-- What the configuration says about the upload. -/
structure PinataConfig where
  pinataJwt : Option String := none
  ipfsDebugmode : Bool := false
  ipfsGateway : String := "https://gateway.pinata.cloud/ipfs/"

structure UploadedMetadata where
  uri : String
  imageUri : String
deriving DecidableEq, Repr

structure PumpJson where
  name : String
  symbol : String
  description : String
  image : String
  showName : Bool
  createdOn : String
  twitter : String
  website : String
deriving DecidableEq, Repr

def assetsDir : String := "assets"

def createdOn : String := "https://pump.fun"

/-- The fields as `serde` renames and orders them. -/
def PumpJson.members (json : PumpJson) : List Member :=
  [("name", .string json.name), ("symbol", .string json.symbol),
    ("description", .string json.description), ("image", .string json.image),
    ("showName", .bool json.showName), ("createdOn", .string json.createdOn),
    ("twitter", .string json.twitter), ("website", .string json.website)]

def pumpJson (token : TokenSpec) (imageUri : String) : PumpJson where
  name := token.name
  symbol := token.symbol
  description := token.description
  image := imageUri
  showName := true
  createdOn := createdOn
  twitter := token.twitter
  website := token.website

def mimeFor (filename : String) : String :=
  match (extension filename).map fun ext => String.ofList (ext.toList.map Char.toLower) with
  | some "png" => "image/png"
  | some "jpg" | some "jpeg" => "image/jpeg"
  | some "webp" => "image/webp"
  | some "gif" => "image/gif"
  | _ => "application/octet-stream"

/-- The file of a symbol without a slash; one with a slash would be a path of its own. -/
def imageName (symbol : String) : String := symbol ++ ".png"

def imagePath (symbol : String) : Path := [imageName symbol, assetsDir]

/-- In debug mode nothing is pinned. -/
def placeholder : UploadedMetadata :=
  ⟨"ipfs://debug-mode-metadata", "ipfs://debug-mode-image"⟩

section Upload
variable [PinataJson]

def pin (gateway jwt : String) (token : TokenSpec) :
    Eff (Env × Web) (World × List Request) Failure UploadedMetadata := do
  let path := imagePath token.symbol
  let imageBytes ← onFirst (withContext s!"reading token image {display path}" (readFile path))
  let imageCid ← onSecond (pinFile jwt imageBytes (imageName token.symbol)
    (mimeFor (imageName token.symbol)))
  let imageUri := gatewayUrl gateway imageCid
  let metadataCid ← onSecond (pinJson jwt (pumpJson token imageUri).members)
  let uri := gatewayUrl gateway metadataCid
  onSecond (warmUp [uri, imageUri])
  pure ⟨uri, imageUri⟩

def upload (cfg : PinataConfig) (token : TokenSpec) :
    Eff (Env × Web) (World × List Request) Failure UploadedMetadata :=
  if cfg.ipfsDebugmode then pure placeholder
  else
    match cfg.pinataJwt with
    | none => fail (.error ["pinata_jwt not set in config.toml"])
    | some jwt => pin cfg.ipfsGateway jwt token

end Upload

def imagePost (jwt : String) (token : TokenSpec) (image : List UInt8) : Request :=
  uploadPost jwt image (imageName token.symbol) (mimeFor (imageName token.symbol))

theorem nodup_members (json : PumpJson) : (json.members.map Prod.fst).Nodup := by
  change ["name", "symbol", "description", "image", "showName", "createdOn", "twitter",
    "website"].Nodup
  decide

section Rules
variable [PinataJson] {env : Env} {web : Web} {D : Cond} {token : TokenSpec}

/-- What has been sent when an upload stops. -/
inductive Begun (web : Web) (gateway jwt : String) (token : TokenSpec) (image : List UInt8) :
    List Request → Prop
  | image : Begun web gateway jwt token image [imagePost jwt token image]
  | json (h : web.pinned 0 (imagePost jwt token image) = some cid)
      (hjson : PinataJson.toVec (pumpJson token (gatewayUrl gateway cid)).members = .ok json) :
      Begun web gateway jwt token image [imagePost jwt token image, jsonPost jwt json]

/-- What has been sent when an upload is over: the JSON has the URL of the image that was pinned
before it, and both URLs have been asked for. -/
structure Done (web : Web) (gateway jwt : String) (token : TokenSpec) (image json : List UInt8)
    (metadata : UploadedMetadata) (sent : List Request) : Prop where
  imageUri : (web.pinned 0 (imagePost jwt token image)).map (gatewayUrl gateway) =
    some metadata.imageUri
  written : PinataJson.toVec (pumpJson token metadata.imageUri).members = .ok json
  uri : (web.pinned 1 (jsonPost jwt json)).map (gatewayUrl gateway) = some metadata.uri
  sent : sent = [imagePost jwt token image, jsonPost jwt json, .get metadata.uri,
    .get metadata.imageUri]

/-- The image of a token is on the disk. -/
def ImageOn (token : TokenSpec) (image : List UInt8) (disk : Tree) : Prop :=
  disk.lookup (imagePath token.symbol) = some (.file image)

/-- What an upload that returns has sent. -/
inductive Uploaded (web : Web) (cfg : PinataConfig) (token : TokenSpec) (disk : Tree) :
    UploadedMetadata → List Request → Prop
  | debug (hdebug : cfg.ipfsDebugmode = true) : Uploaded web cfg token disk placeholder []
  | pinned (hdebug : cfg.ipfsDebugmode = false) (hjwt : cfg.pinataJwt = some jwt)
      (himage : ImageOn token image disk)
      (hdone : Done web cfg.ipfsGateway jwt token image json metadata sent) :
      Uploaded web cfg token disk metadata sent

theorem Uploaded.of_lookup (h : Uploaded web cfg token disk metadata sent)
    (hsame : disk'.lookup (imagePath token.symbol) = disk.lookup (imagePath token.symbol)) :
    Uploaded web cfg token disk' metadata sent := by
  cases h with
  | debug hdebug => exact .debug hdebug
  | pinned hdebug hjwt himage hdone => exact .pinned hdebug hjwt (hsame.trans himage) hdone

theorem Uploaded.of_grows (h : Uploaded web cfg token disk metadata sent)
    (hgrown : token.Grows token') : Uploaded web cfg token' disk metadata sent := by
  rw [hgrown.fields]
  cases h with
  | debug hdebug => exact .debug hdebug
  | pinned hdebug hjwt himage hdone =>
    exact .pinned hdebug hjwt himage ⟨hdone.imageUri, hdone.written, hdone.uri, hdone.sent⟩

/-- The URL is that of a file which has been sent to be pinned. -/
def Shows (web : Web) (gateway : String) (sent : List Request) (url : String)
    (file : List UInt8) : Prop :=
  ∃ number jwt form, sent[number]? = some (.post uploadUrl jwt form) ∧ form.file = file ∧
    (web.pinned number (.post uploadUrl jwt form)).map (gatewayUrl gateway) = some url

/-- Where the URLs lead: to a JSON that a reader finds to be the metadata of the token with the URL
of its image, and to the image that is on the disk. -/
def Leads (web : Web) (gateway : String) (token : TokenSpec) (disk : Tree)
    (metadata : UploadedMetadata) (sent : List Request) : Prop :=
  (∃ json, Shows web gateway sent metadata.uri json ∧
    ∀ name, PinataJson.member json name =
      (pumpJson token metadata.imageUri).members.lookup name) ∧
  ∃ image, Shows web gateway sent metadata.imageUri image ∧ ImageOn token image disk

theorem shows_upload
    (hsent : sent[number]? = some (uploadPost jwt bytes filename mime))
    (hpinned : (web.pinned number (uploadPost jwt bytes filename mime)).map (gatewayUrl gateway) =
      some url) : Shows web gateway sent url bytes :=
  ⟨number, jwt, ⟨bytes, filename, mime, network⟩, hsent, rfl, hpinned⟩

theorem Uploaded.leads (hread : PinataJson.RoundTrips)
    (h : Uploaded web cfg token disk metadata sent) (hdebug : cfg.ipfsDebugmode = false) :
    Leads web cfg.ipfsGateway token disk metadata sent := by
  cases h with
  | debug hyes => cases hdebug.symm.trans hyes
  | @pinned jwt image json _ _ _ _ himage hdone =>
    obtain ⟨himageUri, hjson, huri, rfl⟩ := hdone
    refine ⟨⟨json, shows_upload rfl huri, ?_⟩, image, shows_upload rfl himageUri, himage⟩
    exact hread _ json (nodup_members _) hjson

/-- What an upload that fails has sent. -/
inductive Stopped (web : Web) (cfg : PinataConfig) (token : TokenSpec) (disk : Tree) :
    List Request → Prop
  | before : Stopped web cfg token disk []
  | between (hdebug : cfg.ipfsDebugmode = false) (hjwt : cfg.pinataJwt = some jwt)
      (himage : ImageOn token image disk)
      (hbegun : Begun web cfg.ipfsGateway jwt token image sent) : Stopped web cfg token disk sent

theorem triple_pin (gateway jwt : String) :
    Triple (env, web) (fun s => on D s.1 ∧ s.2 = []) (pin gateway jwt token)
      (fun metadata s => on D s.1 ∧ ∃ image json, ImageOn token image s.1.disk ∧
        Done web gateway jwt token image json metadata s.2)
      (fun s => on D s.1 ∧ (s.2 = [] ∨ ∃ image, ImageOn token image s.1.disk ∧
        Begun web gateway jwt token image s.2)) := by
  apply Triple.bind (((triple_withContext (triple_readFile (D := D) fun _ hw => hw)).onFirst
    (· = [])).conseq (fun _ h => h) (fun _ _ h => h) fun s hs => ⟨hs.1, .inl hs.2⟩)
  intro image
  let read : World → Prop := on fun disk log =>
    D disk log ∧ disk.lookup (imagePath token.symbol) = some (.file image)
  have hbegun (s : World × List Request) (hs : read s.1)
      (hsent : s.2 = [] ∨ Begun web gateway jwt token image s.2) :
      on D s.1 ∧ (s.2 = [] ∨ ∃ image, ImageOn token image s.1.disk ∧
        Begun web gateway jwt token image s.2) :=
    ⟨hs.1, hsent.imp_right fun h => ⟨image, hs.2, h⟩⟩
  have himage : Triple (env, web) (fun s => read s.1 ∧ s.2 = [])
      (onSecond (pinFile jwt image (imageName token.symbol) (mimeFor (imageName token.symbol))))
      (fun cid s => read s.1 ∧ s.2 = [imagePost jwt token image] ∧ web.client = .ok () ∧
        web.pinned 0 (imagePost jwt token image) = some cid)
      (fun s => read s.1 ∧ (s.2 = [] ∨ s.2 = [imagePost jwt token image])) :=
    Triple.onSecond (Ipfs.triple_upload jwt image _ _) read
  apply Triple.bind (himage.conseq (fun _ h => h) (fun _ _ h => h) fun s hs =>
    hbegun s hs.1 (hs.2.imp_right fun hsent => by rw [hsent]; exact .image))
  intro imageCid
  let value : List Member := (pumpJson token (gatewayUrl gateway imageCid)).members
  have hjson : Triple (env, web) (fun s => read s.1 ∧ s.2 = [imagePost jwt token image])
      (onSecond (pinJson jwt value))
      (fun cid s => read s.1 ∧ ∃ json, PinataJson.toVec value = .ok json ∧
        s.2 = [imagePost jwt token image, jsonPost jwt json] ∧ web.client = .ok () ∧
        web.pinned 1 (jsonPost jwt json) = some cid)
      (fun s => read s.1 ∧ (s.2 = [imagePost jwt token image] ∨ ∃ json,
        PinataJson.toVec value = .ok json ∧
          s.2 = [imagePost jwt token image, jsonPost jwt json])) :=
    Triple.onSecond (Ipfs.triple_pinJson jwt value) read
  rintro s ⟨hs, hsent, hclient, himageCid⟩
  have hstop (s : World × List Request) (hs : read s.1) (hsent : s.2 = [imagePost jwt token image] ∨
      ∃ json, PinataJson.toVec value = .ok json ∧
        s.2 = [imagePost jwt token image, jsonPost jwt json]) :
      on D s.1 ∧ (s.2 = [] ∨ ∃ image, ImageOn token image s.1.disk ∧
        Begun web gateway jwt token image s.2) := by
    apply hbegun s hs
    rcases hsent with hsent | ⟨json, hjson, hsent⟩
    · rw [hsent]
      exact .inr .image
    · rw [hsent]
      exact .inr (.json himageCid hjson)
  refine Triple.bind (hjson.conseq (fun _ h => h) (fun _ _ h => h) fun s hs =>
    hstop s hs.1 hs.2) (fun metadataCid => ?_) s ⟨hs, hsent⟩
  rintro s ⟨hs, json, hvalue, hsent, -, hmetadataCid⟩
  have hget : Triple web (· = [imagePost jwt token image, jsonPost jwt json])
      (warmUp [gatewayUrl gateway metadataCid, gatewayUrl gateway imageCid])
      (fun _ => (· = [imagePost jwt token image, jsonPost jwt json,
        .get (gatewayUrl gateway metadataCid), .get (gatewayUrl gateway imageCid)]))
      (fun _ => False) := triple_warmUp hclient _
  have hwarm := hget.onSecond (r := (env, web)) read
  refine Triple.bind (hwarm.conseq (fun _ h => h) (fun _ _ h => h) fun s hs => hs.2.elim)
    (fun _ => Triple.pure ?_) s ⟨hs, hsent⟩
  rintro s ⟨hs, hsent⟩
  refine ⟨hs.1, image, json, hs.2, ?_, hvalue, ?_, hsent⟩
  · rw [himageCid, Option.map_some]
  · exact congrArg (Option.map (gatewayUrl gateway)) hmetadataCid

theorem triple_upload (cfg : PinataConfig) :
    Triple (env, web) (fun s => on D s.1 ∧ s.2 = []) (upload cfg token)
      (fun metadata s => on D s.1 ∧ Uploaded web cfg token s.1.disk metadata s.2)
      (fun s => on D s.1 ∧ Stopped web cfg token s.1.disk s.2) := by
  rw [upload]
  split
  · rename_i hdebug
    apply Triple.pure
    rintro ⟨w, sent⟩ ⟨hw, rfl⟩
    exact ⟨hw, .debug hdebug⟩
  · rename_i hdebug
    rw [Bool.not_eq_true] at hdebug
    split
    · apply Triple.fail
      rintro ⟨w, sent⟩ ⟨hw, rfl⟩
      exact ⟨hw, .before⟩
    · rename_i jwt hjwt
      apply (triple_pin cfg.ipfsGateway jwt).conseq (fun _ h => h)
      · rintro metadata s ⟨hs, image, json, himage, hdone⟩
        exact ⟨hs, .pinned hdebug hjwt himage hdone⟩
      · rintro ⟨w, sent⟩ ⟨hs, rfl | ⟨image, himage, hbegun⟩⟩
        · exact ⟨hs, .before⟩
        · exact ⟨hs, .between hdebug hjwt himage hbegun⟩

end Rules

end TokenPumper.Metadata
