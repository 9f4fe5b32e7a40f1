import TokenPumper.Lib.JsonText

namespace JsonText
set_option autoImplicit true

inductive Value
  | string (s : String)
  | bool (b : Bool)
deriving DecidableEq, Repr

abbrev Member := String × Value

def Value.text : Value → List Char
  | .string s => quote s.toList
  | .bool b => JsonText.bool b

def memberText (m : Member) : List Char := quote m.1.toList ++ ':' :: m.2.text

def membersText (m : Member) : List Member → List Char
  | [] => memberText m
  | next :: ms => memberText m ++ ',' :: membersText next ms

def objectText : List Member → List Char
  | [] => ['\x7b', '\x7d']
  | m :: ms => '\x7b' :: (membersText m ms ++ ['\x7d'])

def skipSpace (cs : List Char) : List Char := cs.dropWhile isSpace

def readValue (cs : List Char) : Option (Value × List Char) :=
  match readString cs with
  | some (s, rest) => some (.string (.ofList s), rest)
  | none => (readBool cs).map fun (b, rest) => (.bool b, rest)

def readMember (cs : List Char) : Option (Member × List Char) := do
  let (name, cs) ← readString (skipSpace cs)
  let cs ← skip [':'] (skipSpace cs)
  let (value, cs) ← readValue (skipSpace cs)
  pure ((.ofList name, value), skipSpace cs)

/-- At most so many members, up to the brace that ends them. -/
def readMembers : Nat → List Char → Option (List Member × List Char)
  | 0, _ => none
  | n + 1, cs =>
    (readMember cs).bind fun (m, cs) =>
      match skip [','] cs with
      | some cs => (readMembers n cs).map fun (ms, cs) => (m :: ms, cs)
      | none => (skip ['\x7d'] cs).map fun cs => ([m], cs)

def readObject (cs : List Char) : Option (List Member) := do
  let cs ← skip ['\x7b'] (skipSpace cs)
  let (ms, cs) ← match skip ['\x7d'] (skipSpace cs) with
    | some cs => some ([], cs)
    | none => readMembers cs.length cs
  if (skipSpace cs).isEmpty then some ms else none

theorem skip_cons_of_ne (h : c ≠ d) (cs : List Char) : skip [c] (d :: cs) = none := by
  rw [skip, if_neg]
  intro hprefix
  exact h (List.cons_prefix_cons.1 hprefix).1

theorem readString_cons_of_ne (h : c ≠ '"') (cs : List Char) : readString (c :: cs) = none := by
  rw [readString, skip_cons_of_ne h.symm]
  rfl

theorem skip_cons (c : Char) (cs : List Char) : skip [c] (c :: cs) = some cs := skip_append [c] cs

theorem skipSpace_cons (h : isSpace c = false) (cs : List Char) :
    skipSpace (c :: cs) = c :: cs := by
  rw [skipSpace, List.dropWhile_cons_of_neg (by rw [h]; exact Bool.false_ne_true)]

theorem skipSpace_quote (s rest : List Char) : skipSpace (quote s ++ rest) = quote s ++ rest :=
  skipSpace_cons (by decide) _

theorem skipSpace_text (v : Value) (rest : List Char) :
    skipSpace (v.text ++ rest) = v.text ++ rest := by
  cases v with
  | string s => exact skipSpace_quote s.toList rest
  | bool b => cases b <;> exact skipSpace_cons (by decide) _

theorem readValue_text (v : Value) (rest : List Char) :
    readValue (v.text ++ rest) = some (v, rest) := by
  cases v with
  | string s =>
    rw [Value.text, readValue, readString_quote]
    exact congrArg (fun s => some (Value.string s, rest)) String.ofList_toList
  | bool b =>
    have hno : readString (bool b ++ rest) = none := by
      cases b with
      | true => exact readString_cons_of_ne (show 't' ≠ '"' by decide) _
      | false => exact readString_cons_of_ne (show 'f' ≠ '"' by decide) _
    rw [Value.text, readValue, hno, readBool_bool]
    rfl

theorem readMember_memberText (m : Member) (h : isSpace c = false) (rest : List Char) :
    readMember (memberText m ++ c :: rest) = some (m, c :: rest) := by
  obtain ⟨name, value⟩ := m
  have htext : memberText (name, value) ++ c :: rest =
      quote name.toList ++ (':' :: (value.text ++ c :: rest)) := by
    rw [memberText, List.append_assoc, List.cons_append]
  rw [readMember, htext, skipSpace_quote, readString_quote]
  simp only [Option.bind_eq_bind, Option.bind_some, skipSpace_cons (c := ':') (by decide),
    skip_cons, skipSpace_text, readValue_text, skipSpace_cons h, String.ofList_toList]
  rfl

theorem readMembers_membersText (m : Member) (ms : List Member) (h : ms.length < n) :
    readMembers n (membersText m ms ++ ['\x7d']) = some (m :: ms, []) := by
  induction ms generalizing m n with
  | nil =>
    obtain ⟨n, rfl⟩ := Nat.exists_eq_add_one.2 (Nat.zero_lt_of_lt h)
    rw [membersText, readMembers, readMember_memberText m (by decide), Option.bind_some]
    simp only [skip_cons_of_ne (c := ',') (d := '\x7d') (by decide), skip_cons, Option.map_some]
  | cons next ms ih =>
    obtain ⟨n, rfl⟩ := Nat.exists_eq_add_one.2 (Nat.zero_lt_of_lt h)
    rw [membersText, List.append_assoc, List.cons_append, readMembers,
      readMember_memberText m (by decide), Option.bind_some]
    simp only [skip_cons, ih next (Nat.lt_of_succ_lt_succ h), Option.map_some]

theorem length_lt_membersText (m : Member) (ms : List Member) :
    ms.length < (membersText m ms).length := by
  have hone (m : Member) : 0 < (memberText m).length := by
    rw [memberText, quote, List.cons_append, List.length_cons]
    exact Nat.succ_pos _
  induction ms generalizing m with
  | nil => exact hone m
  | cons next ms ih =>
    have hrest := ih next
    rw [membersText, List.length_append, List.length_cons, List.length_cons]
    omega

/-- An object is read as it was written, whatever characters are in its names and strings. -/
theorem readObject_objectText (ms : List Member) : readObject (objectText ms) = some ms := by
  cases ms with
  | nil => rfl
  | cons m ms =>
    have hmember : membersText m ms ++ ['\x7d'] =
        '"' :: (membersText m ms ++ ['\x7d']).tail := by
      cases ms <;> rfl
    have hlong : ms.length < (membersText m ms ++ ['\x7d']).length := by
      have hlt := length_lt_membersText m ms
      rw [List.length_append]
      omega
    have hno : skip ['\x7d'] (skipSpace (membersText m ms ++ ['\x7d'])) = none := by
      rw [hmember, skipSpace_cons (by decide), skip_cons_of_ne (by decide)]
    rw [readObject, objectText, skipSpace_cons (by decide), skip_cons]
    simp only [Option.bind_eq_bind, Option.bind_some, hno, readMembers_membersText m ms hlong]
    rfl

end JsonText
