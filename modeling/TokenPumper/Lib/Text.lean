import TokenPumper.Lib.Borsh

namespace Text
open LittleEndian
set_option autoImplicit true

def isWhitespace (c : Char) : Bool :=
  let n := c.toNat
  (9 ≤ n && n ≤ 13) || n = 32 || n = 0x85 || n = 0xA0 || n = 0x1680 ||
    (0x2000 ≤ n && n ≤ 0x200A) || n = 0x2028 || n = 0x2029 || n = 0x202F || n = 0x205F || n = 0x3000

def trim (cs : List Char) : List Char :=
  ((cs.dropWhile isWhitespace).reverse.dropWhile isWhitespace).reverse

/-- What is left when `p` is cut from both ends. -/
def trimBy (p : Char → Bool) (cs : List Char) : List Char :=
  ((cs.dropWhile p).reverse.dropWhile p).reverse

def stripPrefix (c : Char) : List Char → Option (List Char)
  | [] => none
  | x :: xs => if x = c then some xs else none

def stripSuffix (c : Char) (cs : List Char) : Option (List Char) :=
  (stripPrefix c cs.reverse).map List.reverse

/-- The parts between the separators; there is always one more part than separators. -/
def split (sep : Char) : List Char → List (List Char)
  | [] => [[]]
  | c :: cs =>
    match split sep cs with
    | [] => [[]]
    | part :: parts => if c = sep then [] :: part :: parts else (c :: part) :: parts

def join (sep : Char) : List (List Char) → List Char
  | [] => []
  | [part] => part
  | part :: next :: parts => part ++ sep :: join sep (next :: parts)

def decimal (n : Nat) : List Char := Nat.toDigits 10 n

def decimals (bytes : List UInt8) : List (List Char) := bytes.map fun b => decimal b.toNat

/-- A character in a debug print; beyond ASCII every character stands for itself. -/
def debugChar (c : Char) : List Char :=
  if c = '"' then ['\\', '"']
  else if c = '\\' then ['\\', '\\']
  else if c = '\n' then ['\\', 'n']
  else if c = '\r' then ['\\', 'r']
  else if c = '\t' then ['\\', 't']
  else if c.toNat = 0 then ['\\', '0']
  else if c.toNat < 32 ∨ c.toNat = 127 then
    ['\\', 'u', '\x7b'] ++ Nat.toDigits 16 c.toNat ++ ['\x7d']
  else [c]

def debug (s : String) : String := .ofList ('"' :: s.toList.flatMap debugChar ++ ['"'])

def debugList (debug : α → String) (xs : List α) : String :=
  "[" ++ ", ".intercalate (xs.map debug) ++ "]"

def array (bytes : List UInt8) : List Char := '[' :: join ',' (decimals bytes) ++ [']']

def digit (c : Char) : Option Nat :=
  if '0' ≤ c ∧ c ≤ '9' then some (c.toNat - '0'.toNat) else none

def parseDigits : List Char → Option Nat
  | [] => none
  | cs => cs.foldlM (fun n c => (digit c).map (10 * n + ·)) 0

/-- `u8::from_str`: a plus sign may stand in front. -/
def parseU8 (cs : List Char) : Option UInt8 := do
  let n ← parseDigits (if cs.head? = some '+' then cs.tail else cs)
  if n < 256 then some (UInt8.ofNat n) else none

def ofUtf8 (bytes : List UInt8) : Option (List Char) :=
  (String.fromUTF8? ⟨bytes.toArray⟩).map String.toList

def toUtf8 (cs : List Char) : List UInt8 := Borsh.utf8 (String.ofList cs)

@[simp] theorem ofUtf8_toUtf8 (cs : List Char) : ofUtf8 (toUtf8 cs) = some cs := by
  rw [ofUtf8, toUtf8, Borsh.fromUTF8?_utf8, Option.map_some, String.toList_ofList]

theorem toUtf8_of_ofUtf8 (h : ofUtf8 bytes = some cs) : toUtf8 cs = bytes := by
  obtain ⟨s, hs, rfl⟩ := Option.map_eq_some_iff.1 h
  rw [String.fromUTF8?] at hs
  split at hs
  · obtain rfl := Option.some.inj hs
    rw [toUtf8, String.ofList_toList, Borsh.utf8]
    rfl
  · cases hs

theorem trimBy_surrounded (hbefore : ∀ c ∈ before, p c = true) (hafter : ∀ c ∈ after, p c = true)
    (hhead : ∀ c ∈ cs.head?, p c = false) (hlast : ∀ c ∈ cs.getLast?, p c = false) :
    trimBy p (before ++ cs ++ after) = cs := by
  have hkept {cs : List Char} (h : ∀ c ∈ cs.head?, p c = false) : cs.dropWhile p = cs := by
    cases cs with
    | nil => rfl
    | cons c cs => simp [h c rfl]
  cases cs with
  | nil =>
    have hdrop : after.dropWhile p = [] := by
      rw [← List.append_nil after, List.dropWhile_append_of_pos hafter, List.dropWhile_nil]
    rw [trimBy, List.append_nil, List.dropWhile_append_of_pos hbefore, hdrop]
    rfl
  | cons c cs =>
    have hrev : ∀ x ∈ (c :: cs).reverse.head?, p x = false := by
      rwa [List.head?_reverse]
    have hfirst : ∀ x ∈ (c :: cs ++ after).head?, p x = false := hhead
    have hbehind : ∀ x ∈ after.reverse, p x = true := by
      simpa using hafter
    rw [trimBy, List.append_assoc, List.dropWhile_append_of_pos hbefore, hkept hfirst,
      List.reverse_append, List.dropWhile_append_of_pos hbehind, hkept hrev, List.reverse_reverse]

theorem trim_surrounded (hbefore : ∀ c ∈ before, isWhitespace c = true)
    (hafter : ∀ c ∈ after, isWhitespace c = true) (hhead : ∀ c ∈ cs.head?, isWhitespace c = false)
    (hlast : ∀ c ∈ cs.getLast?, isWhitespace c = false) : trim (before ++ cs ++ after) = cs :=
  trimBy_surrounded hbefore hafter hhead hlast

theorem trim_of_ends (h : ∀ c ∈ cs.head?, isWhitespace c = false)
    (h' : ∀ c ∈ cs.getLast?, isWhitespace c = false) : trim cs = cs := by
  have htrim : trim ([] ++ cs ++ []) = cs := trim_surrounded (by simp) (by simp) h h'
  rwa [List.append_nil] at htrim

theorem split_ne_nil (sep : Char) (cs : List Char) : split sep cs ≠ [] := by
  cases cs with
  | nil => exact List.cons_ne_nil _ _
  | cons c cs =>
    rw [split]
    split
    · exact List.cons_ne_nil _ _
    · split <;> exact List.cons_ne_nil _ _

theorem split_append (h : sep ∉ part) (cs : List Char) :
    split sep (part ++ sep :: cs) = part :: split sep cs := by
  induction part with
  | nil =>
    rw [List.nil_append, split]
    cases hs : split sep cs with
    | nil => exact absurd hs (split_ne_nil sep cs)
    | cons p ps => exact if_pos rfl
  | cons c part ih =>
    have hc : c ≠ sep := by
      rintro rfl
      exact h List.mem_cons_self
    rw [List.cons_append, split, ih fun hm => h (List.mem_cons_of_mem c hm)]
    exact if_neg hc

theorem split_self (h : sep ∉ part) : split sep part = [part] := by
  induction part with
  | nil => rfl
  | cons c part ih =>
    have hc : c ≠ sep := by
      rintro rfl
      exact h List.mem_cons_self
    rw [split, ih fun hm => h (List.mem_cons_of_mem c hm)]
    exact if_neg hc

theorem split_join (hne : parts ≠ []) (h : ∀ part ∈ parts, sep ∉ part) :
    split sep (join sep parts) = parts := by
  induction parts with
  | nil => exact absurd rfl hne
  | cons part parts ih =>
    have hpart := h part List.mem_cons_self
    cases parts with
    | nil => exact split_self hpart
    | cons next parts =>
      rw [join, split_append hpart, ih (List.cons_ne_nil _ _) fun p hp =>
        h p (List.mem_cons_of_mem part hp)]

theorem decimal_byte (b : UInt8) : parseU8 (decimal b.toNat) = some b ∧
    ∀ c ∈ decimal b.toNat, isWhitespace c = false ∧ c ≠ ',' := by
  have hall : (List.finRange 256).all fun n => parseU8 (decimal n) == some (UInt8.ofNat n) &&
      (decimal n).all fun c => !isWhitespace c && c != ',' := by
    decide +kernel
  have h := List.all_eq_true.1 hall ⟨b.toNat, b.toNat_lt⟩ (List.mem_finRange _)
  simpa using h

theorem prefix_join (sep : Char) (part : List Char) (parts : List (List Char)) :
    part <+: join sep (part :: parts) := by
  cases parts with
  | nil => exact List.prefix_rfl
  | cons next parts => exact List.prefix_append _ _

theorem array_ends (bytes : List UInt8) :
    (array bytes).head? = some '[' ∧ (array bytes).getLast? = some ']' := by
  rw [array, List.getLast?_concat]
  exact ⟨rfl, rfl⟩

theorem strip_array (bytes : List UInt8) :
    (stripPrefix '[' (array bytes)).bind (stripSuffix ']') = some (join ',' (decimals bytes)) := by
  simp [array, stripPrefix, stripSuffix]

theorem split_decimals (h : bytes ≠ []) :
    split ',' (join ',' (decimals bytes)) = decimals bytes := by
  apply split_join (mt List.map_eq_nil_iff.1 h)
  intro part hpart hcomma
  obtain ⟨b, -, rfl⟩ := List.mem_map.1 hpart
  exact ((decimal_byte b).2 ',' hcomma).2 rfl

theorem mapM_decimals {read : List Char → Option UInt8}
    (h : ∀ b : UInt8, read (decimal b.toNat) = some b) (bytes : List UInt8) :
    (decimals bytes).mapM read = some bytes := by
  induction bytes with
  | nil => rfl
  | cons b bytes ih =>
    rw [decimals] at ih
    rw [decimals, List.map_cons, List.mapM_cons, h, ih]
    rfl

theorem decimal_ne_nil (b : UInt8) : decimal b.toNat ≠ [] := by
  intro hnil
  have hparse := (decimal_byte b).1
  rw [hnil] at hparse
  cases hparse

theorem parseU8_trim_decimal (b : UInt8) : parseU8 (trim (decimal b.toNat)) = some b := by
  have htrim : trim (decimal b.toNat) = decimal b.toNat := by
    apply trim_of_ends
    · exact fun c hc => ((decimal_byte b).2 c (List.mem_of_mem_head? hc)).1
    · exact fun c hc => ((decimal_byte b).2 c (List.mem_of_mem_getLast? hc)).1
  rw [htrim, (decimal_byte b).1]

end Text
