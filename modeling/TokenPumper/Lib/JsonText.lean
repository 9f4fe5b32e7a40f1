import TokenPumper.Lib.Text

namespace JsonText
open Text
set_option autoImplicit true

/-- The characters that have a letter to stand for them behind a backslash. -/
def letters : List (Char × Char) :=
  [('"', '"'), ('\\', '\\'), ('\x08', 'b'), ('\t', 't'), ('\n', 'n'), ('\x0c', 'f'), ('\x0d', 'r')]

def hexDigits : List Char :=
  ['0', '1', '2', '3', '4', '5', '6', '7', '8', '9', 'a', 'b', 'c', 'd', 'e', 'f']

/-- A control character without a letter is written as its code. -/
def escapeChar (c : Char) : List Char :=
  match letters.find? (·.1 = c) with
  | some (_, letter) => ['\\', letter]
  | none =>
    if c.toNat < 32 then
      ['\\', 'u', '0', '0', hexDigits.getD (c.toNat / 16) '0', hexDigits.getD (c.toNat % 16) '0']
    else [c]

def unescapeChar (letter : Char) : Option Char := (letters.find? (·.2 = letter)).map Prod.fst

def readQuoted : List Char → Option (List Char × List Char)
  | [] => none
  | '"' :: rest => some ([], rest)
  | '\\' :: 'u' :: '0' :: '0' :: high :: low :: rest => do
    let high ← hexDigits.idxOf? high
    let low ← hexDigits.idxOf? low
    let (s, rest) ← readQuoted rest
    pure (Char.ofNat (16 * high + low) :: s, rest)
  | '\\' :: letter :: rest => do
    let c ← unescapeChar letter
    let (s, rest) ← readQuoted rest
    pure (c :: s, rest)
  | '\\' :: [] => none
  | c :: rest => do
    let (s, rest) ← readQuoted rest
    pure (c :: s, rest)

def quote (s : List Char) : List Char := '"' :: (s.flatMap escapeChar ++ ['"'])

def skip (text cs : List Char) : Option (List Char) :=
  if text <+: cs then some (cs.drop text.length) else none

def readString (cs : List Char) : Option (List Char × List Char) := do
  readQuoted (← skip ['"'] cs)

def bool (b : Bool) : List Char := if b then "true".toList else "false".toList

def readBool (cs : List Char) : Option (Bool × List Char) :=
  match skip "true".toList cs with
  | some rest => some (true, rest)
  | none => (skip "false".toList cs).map fun rest => (false, rest)

def isSpace (c : Char) : Bool := c = ' ' || c = '\t' || c = '\n' || c = '\r'

/-- A number that fits a byte: neither a sign nor a zero too many stands in front. -/
def readByte (cs : List Char) : Option UInt8 := do
  let b ← parseU8 cs
  if decimal b.toNat = cs then some b else none

def readBytes (cs : List Char) : Option (List UInt8) := do
  let inner ← stripSuffix ']' (← stripPrefix '[' (trimBy isSpace cs))
  if inner.all isSpace then some []
  else (split ',' inner).mapM fun part => readByte (trimBy isSpace part)

@[simp] theorem skip_append (text cs : List Char) : skip text (text ++ cs) = some cs := by
  rw [skip, if_pos (List.prefix_append text cs), List.drop_left]

theorem idxOf?_hexDigits (h : k < 16) : hexDigits.idxOf? (hexDigits.getD k '0') = some k := by
  have hall : ∀ k < 16, hexDigits.idxOf? (hexDigits.getD k '0') = some k := by decide
  exact hall k h

theorem unescapeChar_letters : ∀ p ∈ letters, unescapeChar p.2 = some p.1 ∧ p.2 ≠ 'u' := by
  decide

theorem readQuoted_letter (h : unescapeChar letter = some c) (hu : letter ≠ 'u')
    (rest : List Char) :
    readQuoted ('\\' :: letter :: rest) = (readQuoted rest).map fun p => (c :: p.1, p.2) := by
  rw [readQuoted, h]
  · cases readQuoted rest <;> rfl
  · exact fun _ _ _ heq => absurd heq hu

theorem readQuoted_code (hcode : c.toNat < 32) (rest : List Char) :
    readQuoted ('\\' :: 'u' :: '0' :: '0' :: hexDigits.getD (c.toNat / 16) '0' ::
        hexDigits.getD (c.toNat % 16) '0' :: rest) =
      (readQuoted rest).map fun p => (c :: p.1, p.2) := by
  rw [readQuoted, idxOf?_hexDigits (by omega), idxOf?_hexDigits (by omega)]
  change ((readQuoted rest).bind fun p =>
    some (Char.ofNat (16 * (c.toNat / 16) + c.toNat % 16) :: p.1, p.2)) = _
  rw [Nat.div_add_mod, Char.ofNat_toNat]
  cases readQuoted rest <;> rfl

theorem readQuoted_cons (hquote : c ≠ '"') (hslash : c ≠ '\\') (rest : List Char) :
    readQuoted (c :: rest) = (readQuoted rest).map fun p => (c :: p.1, p.2) := by
  rw [readQuoted]
  · cases readQuoted rest <;> rfl
  · exact hquote
  · exact fun _ _ _ heq => absurd heq hslash
  · exact fun _ _ heq => absurd heq hslash
  · exact fun heq => absurd heq hslash

theorem readQuoted_escapeChar (c : Char) (rest : List Char) :
    readQuoted (escapeChar c ++ rest) = (readQuoted rest).map fun p => (c :: p.1, p.2) := by
  rw [escapeChar]
  cases hfind : letters.find? (·.1 = c) with
  | some p =>
    obtain ⟨hletter, hu⟩ := unescapeChar_letters p (List.mem_of_find?_eq_some hfind)
    obtain rfl : p.1 = c := by simpa using List.find?_some hfind
    exact readQuoted_letter hletter hu rest
  | none =>
    change readQuoted ((if c.toNat < 32 then _ else _) ++ rest) = _
    split
    · rename_i hcode
      exact readQuoted_code hcode rest
    · have hnot (p : Char × Char) (hp : p ∈ letters) : c ≠ p.1 := by
        have hne := List.find?_eq_none.1 hfind p hp
        exact fun heq => hne (by simp [heq])
      exact readQuoted_cons (hnot ('"', '"') (by decide)) (hnot ('\\', '\\') (by decide)) rest

theorem readString_quote (s rest : List Char) :
    readString (quote s ++ rest) = some (s, rest) := by
  have hquoted (s : List Char) : readQuoted (s.flatMap escapeChar ++ '"' :: rest) =
      some (s, rest) := by
    induction s with
    | nil => rw [List.flatMap_nil, List.nil_append, readQuoted]
    | cons c s ih =>
      rw [List.flatMap_cons, List.append_assoc, readQuoted_escapeChar, ih]
      rfl
  have hquote : quote s ++ rest = ['"'] ++ (s.flatMap escapeChar ++ '"' :: rest) := by
    simp [quote]
  rw [readString, hquote, skip_append]
  exact hquoted s

theorem readBool_bool (b : Bool) (rest : List Char) :
    readBool (bool b ++ rest) = some (b, rest) := by
  cases b with
  | true => rw [bool, if_pos rfl, readBool, skip_append]
  | false =>
    have hno : skip "true".toList ("false".toList ++ rest) = none := by
      rw [skip, if_neg (by simp)]
    rw [bool, if_neg Bool.false_ne_true, readBool, hno, skip_append]
    rfl

theorem isSpace_decimal (b : UInt8) : ∀ c ∈ decimal b.toNat, isSpace c = false := by
  intro c hc
  have hwhite := ((decimal_byte b).2 c hc).1
  cases hspace : isSpace c with
  | false => rfl
  | true =>
    have hcases : c = ' ' ∨ c = '\t' ∨ c = '\n' ∨ c = '\r' := by
      simpa [isSpace, or_assoc] using hspace
    rcases hcases with rfl | rfl | rfl | rfl <;> cases hwhite

theorem readByte_decimal (b : UInt8) : readByte (trimBy isSpace (decimal b.toNat)) = some b := by
  have htrim : trimBy isSpace ([] ++ decimal b.toNat ++ []) = decimal b.toNat := by
    apply trimBy_surrounded (by simp) (by simp)
    · exact fun c hc => isSpace_decimal b c (List.mem_of_mem_head? hc)
    · exact fun c hc => isSpace_decimal b c (List.mem_of_mem_getLast? hc)
  rw [List.append_nil, List.nil_append] at htrim
  rw [htrim, readByte, (decimal_byte b).1]
  exact if_pos rfl

theorem readBytes_array (bytes : List UInt8) (hbefore : ∀ c ∈ before, isSpace c = true)
    (hafter : ∀ c ∈ after, isSpace c = true) :
    readBytes (before ++ array bytes ++ after) = some bytes := by
  obtain ⟨hhead, hlast⟩ := array_ends bytes
  have htrim : trimBy isSpace (before ++ array bytes ++ after) = array bytes := by
    apply trimBy_surrounded hbefore hafter
    · rw [hhead]
      simp [isSpace]
    · rw [hlast]
      simp [isSpace]
  obtain ⟨inner, hstem, hinner⟩ := Option.bind_eq_some_iff.1 (strip_array bytes)
  have hread : readBytes (before ++ array bytes ++ after) =
      if (join ',' (decimals bytes)).all isSpace then some []
      else (split ',' (join ',' (decimals bytes))).mapM fun part =>
        readByte (trimBy isSpace part) := by
    simp only [readBytes, htrim, hstem, hinner, Option.bind_eq_bind, Option.bind_some]
  rw [hread]
  cases bytes with
  | nil => rfl
  | cons b bytes =>
    have hdigits : ¬ (join ',' (decimals (b :: bytes))).all isSpace = true := by
      intro hall
      obtain ⟨c, hc⟩ := List.exists_mem_of_ne_nil _ (decimal_ne_nil b)
      have hmem := (prefix_join ',' (decimal b.toNat) (decimals bytes)).subset hc
      have hspace := isSpace_decimal b c hc
      rw [List.all_eq_true.1 hall c hmem] at hspace
      cases hspace
    rw [if_neg hdigits, split_decimals (List.cons_ne_nil b bytes)]
    exact mapM_decimals readByte_decimal (b :: bytes)

end JsonText
