import TokenPumper.Main
import TokenPumper.Pumpfun.Tokens
import TokenPumper.Lib.JsonText

namespace TokenPumper
open LittleEndian Effect Text
set_option autoImplicit true

/-- `serde_json::from_str::<Vec<u8>>`. -/
class ByteJson where
  parse : List Char → Except String (List UInt8)

/-- An array of numbers is read as it stands; JSON's spaces may be around it. -/
def ByteJson.ReadsArrays [ByteJson] : Prop :=
  ∀ (before after : List Char) (bytes : List UInt8), (∀ c ∈ before, JsonText.isSpace c = true) →
    (∀ c ∈ after, JsonText.isSpace c = true) → parse (before ++ array bytes ++ after) = .ok bytes

section Spec
variable [ByteJson]

def Tokens.TokenSpec.parseKeypairBytes (t : Tokens.TokenSpec) : Reply (Bytes 64) :=
  match ByteJson.parse t.privatekey.toList with
  | .error cause => .error [s!"parsing privatekey for {t.symbol}", cause]
  | .ok bytes =>
    if h : bytes.length = 64 then .ok (ofList bytes h)
    else .error [s!"{t.symbol} privatekey is {bytes.length} bytes, want 64"]

/-- An entry of the roster as the launch has it when it is picked. -/
def Tokens.TokenSpec.picked (t : Tokens.TokenSpec) : TokenPumper.TokenSpec :=
  ⟨t.name, t.symbol, t.parseKeypairBytes⟩

theorem parseKeypairBytes_of_parse {t : Tokens.TokenSpec}
    (h : ByteJson.parse t.privatekey.toList = .ok bytes) (hlen : bytes.length = 64) :
    t.parseKeypairBytes = .ok (ofList bytes hlen) := by
  simp only [Tokens.TokenSpec.parseKeypairBytes, h, hlen, ↓reduceDIte]

end Spec

section Keys
variable {token : TokenSpec} {env : Env} {w w' : World}

theorem answer_ok (a : α) : (answer (.ok a) : Run α) env w = (.ok a, w) := rfl

theorem mintPubkey_of_ok (h : token.keypairBytes = .ok bytes) :
    token.mintPubkey env w = (.ok (ofList (bytes.toList.drop 32) (by simp)), w) := by
  rw [TokenSpec.mintPubkey, h, bind_run_ok (answer_ok bytes)]
  rfl

variable [Ed25519]

theorem mintKeypair_of_ok (h : token.keypairBytes = .ok bytes)
    (hkp : fromKeypairBytes bytes = some kp) : token.mintKeypair env w = (.ok kp, w) := by
  rw [TokenSpec.mintKeypair, h, bind_run_ok (answer_ok bytes), hkp]
  rfl

theorem mintKeypair_eq_ok (h : token.mintKeypair env w = (.ok kp, w')) :
    ∃ bytes, token.keypairBytes = .ok bytes ∧ fromKeypairBytes bytes = some kp := by
  obtain ⟨bytes, w₁, hbytes, hkp⟩ := bind_run_eq_ok h
  have hreply : token.keypairBytes = .ok bytes :=
    Fallible.mapError_eq_ok (congrArg Prod.fst hbytes)
  refine ⟨bytes, hreply, ?_⟩
  cases hfrom : fromKeypairBytes bytes with
  | none =>
    rw [hfrom] at hkp
    cases hkp
  | some kp' =>
    rw [hfrom] at hkp
    cases hkp
    rfl

theorem drop_of_fromKeypairBytes (h : fromKeypairBytes bytes = some kp) :
    bytes.toList.drop 32 = (Ed25519.verifyingKey kp).toList := by
  simp only [fromKeypairBytes] at h
  split at h
  · rename_i hpublic
    obtain rfl := Option.some.inj h
    exact hpublic.symm
  · cases h

theorem mintPubkey_of_mintKeypair (h : token.mintKeypair env w = (.ok kp, w')) :
    token.mintPubkey env w = (.ok (Ed25519.verifyingKey kp), w) := by
  obtain ⟨bytes, hbytes, hkp⟩ := mintKeypair_eq_ok h
  have hpublic : ofList (bytes.toList.drop 32) (by simp) = Ed25519.verifyingKey kp := by
    apply Vector.toList_inj.1
    rw [toList_ofList, drop_of_fromKeypairBytes hkp]
  rw [mintPubkey_of_ok hbytes, hpublic]

variable [ByteJson]

theorem mintKeypair_of_text {t : Tokens.TokenSpec}
    (hparse : ByteJson.parse t.privatekey.toList = .ok (toKeypairBytes kp)) :
    t.picked.mintKeypair env w = (.ok kp, w) :=
  mintKeypair_of_ok (parseKeypairBytes_of_parse hparse (length_toKeypairBytes kp))
    (fromKeypairBytes_toKeypairBytes kp _ (toList_ofList _ _))

/-- One text of a key serves the reader of files and the reader of the roster. The roster's reader
is given to `serde_json`, for which fewer characters are spaces. -/
theorem stored_keys_come_back (hjson : ByteJson.ReadsArrays) :
    (∀ (kp : SigningKey) (before after : List Char), (∀ c ∈ before, isWhitespace c = true) →
      (∀ c ∈ after, isWhitespace c = true) →
      decodeJson (before ++ encodeJson kp ++ after) = some kp) ∧
    (∀ (kp : SigningKey) (before after : List Char) (t : Tokens.TokenSpec),
      (∀ c ∈ before, JsonText.isSpace c = true) → (∀ c ∈ after, JsonText.isSpace c = true) →
      t.privatekey = String.ofList (before ++ encodeJson kp ++ after) → ∀ env w,
      t.picked.mintKeypair env w = (.ok kp, w) ∧
      t.picked.mintPubkey env w = (.ok (Ed25519.verifyingKey kp), w)) ∧
    ∀ (t : Tokens.TokenSpec) (kp : SigningKey) (env : Env) (w : World),
      (t.picked.mintKeypair env w).1 = .ok kp →
      t.picked.mintPubkey env w = (.ok (Ed25519.verifyingKey kp), w) := by
  refine ⟨fun kp before after => decodeJson_surrounded kp, ?_, ?_⟩
  · intro kp before after t hbefore hafter htext env w
    have hparse : ByteJson.parse t.privatekey.toList = .ok (toKeypairBytes kp) := by
      rw [htext, String.toList_ofList, encodeJson_eq]
      exact hjson before after (toKeypairBytes kp) hbefore hafter
    have hkp : t.picked.mintKeypair env w = (.ok kp, w) := mintKeypair_of_text hparse
    exact ⟨hkp, mintPubkey_of_mintKeypair hkp⟩
  · intro t kp env w h
    exact mintPubkey_of_mintKeypair (run_eq h)

end Keys

abbrev ByteJson.plain : ByteJson where
  parse cs := (JsonText.readBytes cs).elim (.error "expected value at line 1 column 1") .ok

theorem ByteJson.plain_readsArrays : @ByteJson.ReadsArrays ByteJson.plain := by
  intro before after bytes hbefore hafter
  change (JsonText.readBytes (before ++ array bytes ++ after)).elim _ _ = _
  rw [JsonText.readBytes_array bytes hbefore hafter]
  rfl

/-- A token whose key is the first sample key, on a line that ends as on another system. -/
def storedToken : Tokens.TokenSpec :=
  ⟨"Stored", "S", "", "", "", false,
    String.ofList (@encodeJson Ed25519.sample (Vector.replicate 32 1) ++ ['\r'])⟩

theorem stored_keys_come_back_sample :
    @decodeJson Ed25519.sample
      (['\u00a0'] ++ @encodeJson Ed25519.sample (Vector.replicate 32 1) ++ ['\n']) =
      some (Vector.replicate 32 1) ∧
    @TokenSpec.mintKeypair Ed25519.sample (@Tokens.TokenSpec.picked ByteJson.plain storedToken)
      (.calm 0 (Vector.replicate 32 1)) (.init .empty) =
      (.ok (Vector.replicate 32 1), .init .empty) ∧
    (@Tokens.TokenSpec.picked ByteJson.plain storedToken).mintPubkey
      (.calm 0 (Vector.replicate 32 1)) (.init .empty) = (.ok samplePublic1, .init .empty) := by
  obtain ⟨hfile, hroster, hpublic⟩ :=
    @stored_keys_come_back Ed25519.sample ByteJson.plain ByteJson.plain_readsArrays
  have hkp := (hroster (Vector.replicate 32 1) [] ['\r'] storedToken (by simp)
    (by simp [JsonText.isSpace]) rfl (.calm 0 (Vector.replicate 32 1)) (.init .empty)).1
  refine ⟨hfile (Vector.replicate 32 1) ['\u00a0'] ['\n'] ?_ ?_, hkp, ?_⟩
  · simp [isWhitespace]
  · simp [isWhitespace]
  · exact hpublic storedToken (Vector.replicate 32 1) _ _ (congrArg Prod.fst hkp)

end TokenPumper
