import TokenPumper.Files
import TokenPumper.Lib.Lines

namespace TokenPumper.Tokens
open Effect FileTree
set_option autoImplicit true

structure TokenSpec where
  name : String
  symbol : String
  description : String
  website : String
  twitter : String
  isUsed : Bool
  privatekey : String
deriving DecidableEq, Repr

def TokenSpec.withKey (t : TokenSpec) (line : String) : TokenSpec := { t with privatekey := line }

def TokenSpec.burnt (t : TokenSpec) : TokenSpec := { t with isUsed := true }

/-- `serde_json` on rosters: `to_vec_pretty` and `from_str`. -/
class TokenJson where
  print : List TokenSpec → List Char
  parse : List Char → Except String (List TokenSpec)

def TokenJson.RoundTrips [TokenJson] : Prop := ∀ tokens, parse (print tokens ++ ['\n']) = .ok tokens

def tokensCacheFile : String := "tokens.json"

def tokensKeyFile : String := "tokens.jsonl"

/-- The file is there, whatever a read of it says. -/
def openFile (path : Path) : Run Unit := do
  syscall
  let w ← current
  if (w.disk.lookup path).isSome then pure () else bail noSuchFile

def keyLines (text : List Char) : List String :=
  ((Text.lines text).filter fun line => !(Text.trim line).isEmpty).map String.ofList

def readLines (path : Path) : Run (List String) := do
  withContext s!"opening {display path}" (openFile path)
  let text ← withContext s!"reading {display path}" (readToString path)
  pure (keyLines text)

def joinLines (lines : List String) : List Char := Text.unlines (lines.map String.toList)

def tmpPath (name : String) (dir : Path) : Path := s!".{name}.tmp" :: dir

def writeAtomic (path : Path) (bytes : List UInt8) : Run Unit :=
  match path with
  | [] => bail s!"path has no filename: {display path}"
  | name :: dir => do
    let tmp := tmpPath name dir
    withContext s!"writing {display tmp}" (writeFile tmp bytes)
    withContext s!"renaming {display tmp} -> {display path}" (renameFile tmp path)

def needed (tokens : List TokenSpec) : List Nat :=
  (tokens.zipIdx.filter (·.1.privatekey.isEmpty)).map Prod.snd

def assign (tokens : List TokenSpec) (slots : List (Nat × String)) : List TokenSpec :=
  slots.foldl (fun tokens (slot, line) => tokens.modify slot (·.withKey line)) tokens

/-- `pick` with the sentinel at the end of the roster, which only a debug run gets. -/
def pick (tokens : List TokenSpec) (debug : Bool) : Except String Nat :=
  if tokens.isEmpty then .error "token roster is empty"
  else if debug then .ok (tokens.length - 1)
  else
    match (tokens.take (tokens.length - 1)).findIdx? (!·.isUsed) with
    | some idx => .ok idx
    | none => .error "no unused tokens left (debug sentinel reserved)"

/-- What `mark_used` makes of the roster in hand; an index out of range is a panic. -/
def burn (tokens : List TokenSpec) (idx : Nat) : Option (List TokenSpec) :=
  if idx < tokens.length then some (tokens.modify idx TokenSpec.burnt) else none

variable [TokenJson]

def rosterBytes (tokens : List TokenSpec) : List UInt8 :=
  Text.toUtf8 (TokenJson.print tokens ++ ['\n'])

def readTokens (cachePath : Path) : Run (List TokenSpec) := do
  let raw ← withContext s!"reading {display cachePath}" (readToString cachePath)
  withContext s!"parsing {display cachePath}"
    (lift ((TokenJson.parse raw).mapError fun cause => .error [cause]))

def hydrate (cachePath keysPath : Path) (tokens : List TokenSpec) (needed : List Nat) :
    Run (List TokenSpec) := do
  let lines ← readLines keysPath
  if lines.length < needed.length then
    bail <| s!"{needed.length} tokens need keys but {display keysPath} only has " ++
      s!"{lines.length} entries"
  else do
    let (consumed, remaining) := lines.splitAt needed.length
    -- the pool first: a stop in between loses lines, and never hands one out twice
    writeAtomic keysPath (Text.toUtf8 (joinLines remaining))
    writeAtomic cachePath (rosterBytes (assign tokens (needed.zip consumed)))
    pure (assign tokens (needed.zip consumed))

/-- Without a roster there is nothing to load. -/
def loadAndHydrate (cacheDir keysDir : Path) : Run (Option (List TokenSpec)) := do
  let there ← fileExists (tokensCacheFile :: cacheDir)
  if !there then pure none
  else do
    let tokens ← readTokens (tokensCacheFile :: cacheDir)
    if (needed tokens).isEmpty then pure (some tokens)
    else do
      let tokens ← hydrate (tokensCacheFile :: cacheDir) (tokensKeyFile :: keysDir) tokens
        (needed tokens)
      pure (some tokens)

def markUsed (cacheDir : Path) (tokens : List TokenSpec) (idx : Nat) : Run Unit := do
  let tokens ← orPanic (burn tokens idx)
  writeAtomic (tokensCacheFile :: cacheDir) (rosterBytes tokens)

end TokenPumper.Tokens
