import Mathlib.Algebra.Order.Ring.Nat
import Mathlib.Tactic.Common

namespace LittleEndian
set_option autoImplicit true

/-- A byte array of a fixed length. -/
abbrev Bytes (n : Nat) := Vector UInt8 n

def ofList (bs : List UInt8) (h : bs.length = n) : Bytes n :=
  ⟨bs.toArray, by rwa [List.size_toArray]⟩

@[simp] theorem toList_ofList (bs : List UInt8) (h : bs.length = n) : (ofList bs h).toList = bs :=
  rfl

@[simp] theorem ofList_toList (v : Bytes n) (h : v.toList.length = n) : ofList v.toList h = v := rfl

/-- The `k` low bytes of a number, least significant first. -/
def encode : Nat → Nat → List UInt8
  | 0, _ => []
  | k + 1, n => UInt8.ofNat (n % 256) :: encode k (n / 256)

def decode : List UInt8 → Nat
  | [] => 0
  | b :: bs => b.toNat + 256 * decode bs

@[simp] theorem length_encode (k n : Nat) : (encode k n).length = k := by
  induction k generalizing n with
  | zero => rfl
  | succ k ih => simp only [encode, List.length_cons, ih]

theorem decode_encode (h : n < 256 ^ k) : decode (encode k n) = n := by
  induction k generalizing n with
  | zero =>
    have hn : n = 0 := by simpa using h
    subst n
    rfl
  | succ k ih =>
    have hd : n / 256 < 256 ^ k := by
      apply Nat.div_lt_of_lt_mul
      rw [Nat.pow_succ] at h
      omega
    have hb : (UInt8.ofNat (n % 256)).toNat = n % 256 :=
      UInt8.toNat_ofNat_of_lt' (Nat.mod_lt n (by decide))
    rw [encode, decode, ih hd, hb]
    omega

theorem decode_lt (bs : List UInt8) : decode bs < 256 ^ bs.length := by
  induction bs with
  | nil => exact Nat.one_pos
  | cons b bs ih =>
    have hb : b.toNat < 256 := b.toNat_lt
    rw [decode, List.length_cons, Nat.pow_succ]
    omega

theorem encode_decode (bs : List UInt8) : encode bs.length (decode bs) = bs := by
  induction bs with
  | nil => rfl
  | cons b bs ih =>
    have hb : b.toNat < 256 := b.toNat_lt
    have hmod : (b.toNat + 256 * decode bs) % 256 = b.toNat := by omega
    have hdiv : (b.toNat + 256 * decode bs) / 256 = decode bs := by omega
    rw [decode, List.length_cons, encode, hmod, hdiv, ih, UInt8.ofNat_toNat]

def u64 (v : UInt64) : List UInt8 := encode 8 v.toNat

def toU64 (bs : List UInt8) : UInt64 := UInt64.ofNat (decode bs)

def u32 (v : UInt32) : List UInt8 := encode 4 v.toNat

def toU32 (bs : List UInt8) : UInt32 := UInt32.ofNat (decode bs)

@[simp] theorem length_u64 (v : UInt64) : (u64 v).length = 8 := length_encode 8 _

@[simp] theorem length_u32 (v : UInt32) : (u32 v).length = 4 := length_encode 4 _

@[simp] theorem toU64_u64 (v : UInt64) : toU64 (u64 v) = v := by
  have hv := v.toNat_lt
  rw [toU64, u64, decode_encode (by omega), UInt64.ofNat_toNat]

@[simp] theorem toU32_u32 (v : UInt32) : toU32 (u32 v) = v := by
  have hv := v.toNat_lt
  rw [toU32, u32, decode_encode (by omega), UInt32.ofNat_toNat]

end LittleEndian
