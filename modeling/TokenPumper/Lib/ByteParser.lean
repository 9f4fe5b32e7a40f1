import TokenPumper.Lib.LittleEndian

namespace ByteParser
open LittleEndian
set_option autoImplicit true

/-- A parser returns a value and the bytes it has not consumed. -/
abbrev Parser := StateT (List UInt8) Option

def byte : Parser UInt8
  | [] => none
  | b :: bs => some (b, bs)

def peek : Parser UInt8
  | [] => none
  | b :: bs => some (b, b :: bs)

def take (n : Nat) : Parser (List UInt8) := fun bs =>
  if n ≤ bs.length then some (bs.take n, bs.drop n) else none

def array (n : Nat) : Parser (Bytes n) := fun bs =>
  if h : n ≤ bs.length then
    some (ofList (bs.take n) (List.length_take_of_le h), bs.drop n)
  else none

def count (p : Parser α) : Nat → Parser (List α)
  | 0 => pure []
  | n + 1 => do
    let a ← p
    let as ← count p n
    pure (a :: as)

def given (o : Option α) : Parser α := fun bs => o.map fun a => (a, bs)

def runAll (p : Parser α) (bs : List UInt8) : Option α :=
  match p.run bs with
  | some (a, []) => some a
  | _ => none

/-- The parser takes exactly these bytes off the front of any input and returns this value. -/
def Consumes (p : Parser α) (bs : List UInt8) (a : α) : Prop :=
  ∀ rest, p.run (bs ++ rest) = some (a, rest)

theorem Consumes.pure (a : α) : Consumes (Pure.pure a) [] a := fun _ => rfl

theorem consumes_given (h : o = some a) : Consumes (given o) [] a := by
  subst h
  exact fun _ => rfl

theorem Consumes.bind {p : Parser α} {f : α → Parser β} (hp : Consumes p as a)
    (hf : Consumes (f a) bs b) : Consumes (p >>= f) (as ++ bs) b := by
  intro rest
  rw [StateT.run_bind, List.append_assoc, hp]
  exact hf rest

theorem Consumes.bind_nil {p : Parser α} {f : α → Parser β} (hp : Consumes p as a)
    (hf : Consumes (f a) [] b) : Consumes (p >>= f) as b := by
  simpa only [List.append_nil] using hp.bind hf

theorem Consumes.bind_pure {p : Parser α} {g : α → β} (hp : Consumes p as a) :
    Consumes (do let x ← p; Pure.pure (g x)) as (g a) :=
  hp.bind_nil (.pure (g a))

theorem consumes_byte (b : UInt8) : Consumes byte [b] b := fun _ => rfl

theorem Consumes.peek_bind {f : UInt8 → Parser β} (hf : Consumes (f b) (b :: bs) c) :
    Consumes (peek >>= f) (b :: bs) c := by
  intro rest
  exact hf rest

theorem consumes_take (bs : List UInt8) : Consumes (take bs.length) bs bs := by
  intro rest
  simp only [StateT.run, take, List.length_append, Nat.le_add_right, ↓reduceIte, List.take_left,
    List.drop_left]

theorem consumes_array (v : Bytes n) : Consumes (array n) v.toList v := by
  intro rest
  have hl : v.toList.length = n := v.length_toList
  have hn : n ≤ (v.toList ++ rest).length := by
    rw [List.length_append, hl]
    omega
  simp only [StateT.run, array, hn, ↓reduceDIte, List.take_left' hl, List.drop_left' hl]
  rfl

theorem consumes_count {p : Parser α} {enc : α → List UInt8} (as : List α)
    (h : ∀ a ∈ as, Consumes p (enc a) a) : Consumes (count p as.length) (as.flatMap enc) as := by
  induction as with
  | nil => exact .pure []
  | cons a as ih =>
    have ha := h a (List.mem_cons_self ..)
    have has := ih (fun b hb => h b (List.mem_cons_of_mem a hb))
    exact ha.bind has.bind_pure

theorem Consumes.runAll {p : Parser α} (h : Consumes p bs a) : runAll p bs = some a := by
  have hr := h []
  rw [List.append_nil] at hr
  rw [ByteParser.runAll, hr]

def u64 : Parser UInt64 := do
  let bs ← take 8
  pure (toU64 bs)

def u32 : Parser UInt32 := do
  let bs ← take 4
  pure (toU32 bs)

theorem consumes_u64 (v : UInt64) : Consumes u64 (LittleEndian.u64 v) v := by
  have h := (consumes_take (LittleEndian.u64 v)).bind_pure (g := toU64)
  rwa [toU64_u64, length_u64] at h

theorem consumes_u32 (v : UInt32) : Consumes u32 (LittleEndian.u32 v) v := by
  have h := (consumes_take (LittleEndian.u32 v)).bind_pure (g := toU32)
  rwa [toU32_u32, length_u32] at h

end ByteParser
