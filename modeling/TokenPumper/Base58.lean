import Mathlib.Tactic.Common

namespace TokenPumper
set_option autoImplicit true

/-- `bs58::decode` of a third-party crate. -/
class Base58 where
  decode : String → Except String (List UInt8)

/-- `bs58::encode` of the same crate. -/
class Base58Encode where
  encode : List UInt8 → String

abbrev Base58.ofTable (table : List (String × List UInt8)) : Base58 where
  decode s :=
    match table.lookup s with
    | some bytes => .ok bytes
    | none => .error "provided string contained invalid character"

end TokenPumper
