import TokenPumper.Config
import TokenPumper.Keys.World
import TokenPumper.Pumpfun.Fire

namespace TokenPumper
open LittleEndian Effect
set_option autoImplicit true

def hexDigit (c : Char) : Option Nat :=
  if '0' ≤ c ∧ c ≤ '9' then some (c.toNat - '0'.toNat)
  else if 'a' ≤ c ∧ c ≤ 'f' then some (c.toNat - 'a'.toNat + 10)
  else if 'A' ≤ c ∧ c ≤ 'F' then some (c.toNat - 'A'.toNat + 10)
  else none

/-- `u8::from_str_radix` of two characters in base 16: the first may be a plus sign. -/
def hexByte (c d : Char) : Option UInt8 :=
  if c = '+' then (hexDigit d).map UInt8.ofNat
  else do pure (UInt8.ofNat (16 * (← hexDigit c) + (← hexDigit d)))

/-- Slices of two bytes, from the `i`-th on. A slice that cuts a character is a panic, and one
character of two bytes is no digit. -/
def hexBytes (i : Nat) : List Char → Except Failure (List UInt8)
  | [] => .ok []
  | c :: cs =>
    let invalid :=
      Failure.error [s!"invalid hex byte at offset {i * 2} in api key",
        "invalid digit found in string"]
    if c.utf8Size = 2 then .error invalid
    else
      match cs with
      | [] => .error .panic
      | d :: cs =>
        if c.utf8Size ≠ 1 ∨ d.utf8Size ≠ 1 then .error .panic
        else
          match hexByte c d with
          | none => .error invalid
          | some b => do
            let bytes ← hexBytes (i + 1) cs
            pure (b :: bytes)

def parseApiKey (s : String) : Except Failure (Bytes 16) := do
  let stripped := s.toList.filter (· ≠ '-')
  if (String.ofList stripped).utf8ByteSize ≠ 32 then
    .error (.error [s!"api key must be a 36-char UUID, got {s.utf8ByteSize}"])
  else do
    let bytes ← hexBytes 0 stripped
    if h : bytes.length = 16 then pure (ofList bytes h) else .error .panic

example : parseApiKey "00112233-4455-6677-8899-aabbccddeeff" =
    .ok #v[0, 17, 34, 51, 68, 85, 102, 119, 136, 153, 170, 187, 204, 221, 238, 255] := by
  decide +kernel

/-- Without a key there is no submitter; with one that does not parse, or if connecting or
authenticating fails, there is no run. -/
def spawnNode1 (cfg : Config) (spawn : Node1Config → Reply Unit) : Run (Option Node1Submitter) :=
  match cfg.node1ApiKey with
  | none => pure none
  | some rawKey => do
    let apiKey ← lift (parseApiKey rawKey)
    let nodeCfg := ⟨cfg.node1Endpoint, cfg.node1ServerName, apiKey⟩
    let _ ← lift ((spawn nodeCfg).mapError .error)
    pure (some ⟨nodeCfg⟩)

end TokenPumper
