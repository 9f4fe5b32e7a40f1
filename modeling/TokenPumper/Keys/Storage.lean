import TokenPumper.Keys.World

namespace TokenPumper
open LittleEndian Effect FileTree Text
set_option autoImplicit true

variable [Ed25519]

def encodeJson (kp : SigningKey) : List Char :=
  '[' :: join ',' ((toKeypairBytes kp).map fun b => decimal b.toNat) ++ [']']

def decodeJson (s : List Char) : Option SigningKey := do
  let inner ← stripSuffix ']' (← stripPrefix '[' (trim s))
  let bytes ← (split ',' inner).mapM fun t => parseU8 (trim t)
  if h : bytes.length = 64 then fromKeypairBytes (ofList bytes h) else none

def keyFile (kp : SigningKey) : List UInt8 := toUtf8 (encodeJson kp)

def Storage.writeNew (path : Path) (kp : SigningKey) : Run Unit :=
  TokenPumper.writeNew path (keyFile kp) s!"creating keypair file {display path}"
    s!"writing keypair file {display path}"

def Storage.read (path : Path) : Run SigningKey := do
  let s ← withContext s!"reading keypair file {display path}" (readToString path)
  match decodeJson s with
  | some kp => pure kp
  | none => bail s!"malformed keypair JSON in {display path}"

def keyOf (bytes : List UInt8) : Option SigningKey := (ofUtf8 bytes).bind decodeJson

/-- The key that a file on the disk holds. -/
def keyAt (disk : Tree) (path : Path) : Option SigningKey :=
  match disk.lookup path with
  | some (.file bytes) => keyOf bytes
  | _ => none

theorem encodeJson_eq (kp : SigningKey) : encodeJson kp = array (toKeypairBytes kp) := rfl

theorem decodeJson_surrounded (kp : SigningKey) (hbefore : ∀ c ∈ before, isWhitespace c = true)
    (hafter : ∀ c ∈ after, isWhitespace c = true) :
    decodeJson (before ++ encodeJson kp ++ after) = some kp := by
  have hlen := length_toKeypairBytes kp
  obtain ⟨hhead, hlast⟩ := array_ends (toKeypairBytes kp)
  have htrim : trim (before ++ encodeJson kp ++ after) = array (toKeypairBytes kp) := by
    rw [encodeJson_eq]
    apply trim_surrounded hbefore hafter
    · rw [hhead]
      simp [isWhitespace]
    · rw [hlast]
      simp [isWhitespace]
  have hstrip := strip_array (toKeypairBytes kp)
  have hne : toKeypairBytes kp ≠ [] := List.ne_nil_of_length_pos (by omega)
  have hbytes : ((decimals (toKeypairBytes kp)).mapM fun part => parseU8 (trim part)) =
      some (toKeypairBytes kp) :=
    mapM_decimals parseU8_trim_decimal (toKeypairBytes kp)
  obtain ⟨inner, hstem, hinner⟩ := Option.bind_eq_some_iff.1 hstrip
  simp only [decodeJson, htrim, hstem, hinner, split_decimals hne, hbytes, Option.bind_eq_bind,
    Option.bind_some, hlen, ↓reduceDIte]
  exact fromKeypairBytes_toKeypairBytes kp _ rfl

theorem decodeJson_encodeJson (kp : SigningKey) : decodeJson (encodeJson kp) = some kp := by
  have hdecode : decodeJson ([] ++ encodeJson kp ++ []) = some kp :=
    decodeJson_surrounded kp (by simp) (by simp)
  rwa [List.append_nil] at hdecode

theorem keyOf_keyFile (kp : SigningKey) : keyOf (keyFile kp) = some kp := by
  rw [keyOf, keyFile, ofUtf8_toUtf8, Option.bind_some, decodeJson_encodeJson]

theorem keyFile_inj (h : keyFile kp = keyFile kp') : kp = kp' := by
  have hk := congrArg keyOf h
  rw [keyOf_keyFile, keyOf_keyFile] at hk
  exact Option.some.inj hk

end TokenPumper
