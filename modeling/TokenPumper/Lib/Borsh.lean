import TokenPumper.Lib.ByteParser

namespace Borsh
open LittleEndian ByteParser
set_option autoImplicit true

def utf8 (s : String) : List UInt8 := s.toByteArray.data.toList

@[simp] theorem length_utf8 (s : String) : (utf8 s).length = s.utf8ByteSize := by
  rw [utf8, Array.length_toList, ← String.size_toByteArray]
  rfl

theorem fromUTF8?_utf8 (s : String) : String.fromUTF8? ⟨(utf8 s).toArray⟩ = some s := by
  have hb : (⟨(utf8 s).toArray⟩ : ByteArray) = s.toByteArray := by
    rw [utf8, Array.toArray_toList]
  rw [hb, String.fromUTF8?, dif_pos s.isValidUTF8]
  rfl

def string : Parser String := do
  let len ← u32
  let bs ← take len.toNat
  match String.fromUTF8? ⟨bs.toArray⟩ with
  | some s => pure s
  | none => failure

theorem consumes_string (s : String) (h : s.utf8ByteSize < 2 ^ 32) :
    Consumes string (u32 (UInt32.ofNat s.utf8ByteSize) ++ utf8 s) s := by
  have hl : (UInt32.ofNat s.utf8ByteSize).toNat = (utf8 s).length := by
    rw [length_utf8, UInt32.toNat_ofNat_of_lt' h]
  refine (consumes_u32 _).bind ?_
  rw [hl]
  refine (consumes_take _).bind_nil ?_
  rw [fromUTF8?_utf8]
  exact .pure s

/-- A boolean is one byte, and no byte above one is a boolean. -/
def bool : Parser Bool := do
  let b ← byte
  if b = 0 then pure false else if b = 1 then pure true else failure

theorem consumes_bool (b : Bool) : Consumes bool [if b then 1 else 0] b := by
  cases b with
  | false => exact fun _ => rfl
  | true => exact fun _ => rfl

end Borsh
