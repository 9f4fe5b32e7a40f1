import TokenPumper.Lib.JsonText
import TokenPumper.Pumpfun.Roster

namespace TokenPumper.Tokens
open JsonText FileTree
set_option autoImplicit true

/-- The name of a field, with what stands between it and the value before it. -/
def key (before name : String) : List Char := (before ++ "    \"" ++ name ++ "\": ").toList

def entryEnd : List Char := "\n  \x7d".toList

def readField (before name : String) (read : List Char → Option (α × List Char)) (cs : List Char) :
    Option (α × List Char) :=
  (skip (key before name) cs).bind read

theorem readField_quote (before name : String) (s : String) (rest : List Char) :
    readField before name readString (key before name ++ (quote s.toList ++ rest)) =
      some (s.toList, rest) := by
  rw [readField, skip_append, Option.bind_some, readString_quote]

theorem readField_bool (before name : String) (b : Bool) (rest : List Char) :
    readField before name readBool (key before name ++ (bool b ++ rest)) = some (b, rest) := by
  rw [readField, skip_append, Option.bind_some, readBool_bool]

def entryText (t : TokenSpec) : List Char :=
  key "  \x7b\n" "Name" ++ quote t.name.toList ++ key ",\n" "Symbol" ++ quote t.symbol.toList ++
    key ",\n" "Description" ++ quote t.description.toList ++ key ",\n" "website" ++
    quote t.website.toList ++ key ",\n" "twitter" ++ quote t.twitter.toList ++
    key ",\n" "is_used" ++ bool t.isUsed ++ key ",\n" "privatekey" ++ quote t.privatekey.toList ++
    entryEnd

def readEntry (cs : List Char) : Option (TokenSpec × List Char) := do
  let (name, cs) ← readField "  \x7b\n" "Name" readString cs
  let (symbol, cs) ← readField ",\n" "Symbol" readString cs
  let (description, cs) ← readField ",\n" "Description" readString cs
  let (website, cs) ← readField ",\n" "website" readString cs
  let (twitter, cs) ← readField ",\n" "twitter" readString cs
  let (isUsed, cs) ← readField ",\n" "is_used" readBool cs
  let (privatekey, cs) ← readField ",\n" "privatekey" readString cs
  let cs ← skip entryEnd cs
  pure (⟨.ofList name, .ofList symbol, .ofList description, .ofList website, .ofList twitter, isUsed,
    .ofList privatekey⟩, cs)

theorem readEntry_entryText (t : TokenSpec) (rest : List Char) :
    readEntry (entryText t ++ rest) = some (t, rest) := by
  simp only [readEntry, entryText, List.append_assoc, readField_quote, readField_bool, skip_append,
    Option.bind_eq_bind, Option.bind_some, String.ofList_toList]
  rfl

def comma : List Char := [',', '\n']

def listEnd : List Char := ['\n', ']']

def entriesText (t : TokenSpec) : List TokenSpec → List Char
  | [] => entryText t
  | next :: ts => entryText t ++ comma ++ entriesText next ts

def rosterText : List TokenSpec → List Char
  | [] => ['[', ']']
  | t :: ts => ['[', '\n'] ++ entriesText t ts ++ listEnd

def readEntries : Nat → List Char → Option (List TokenSpec)
  | 0, _ => none
  | n + 1, cs =>
    (readEntry cs).bind fun (t, cs) =>
      if cs = listEnd ++ ['\n'] then some [t]
      else ((skip comma cs).bind (readEntries n)).map (t :: ·)

def readRoster (cs : List Char) : Except String (List TokenSpec) :=
  if cs = ['[', ']', '\n'] then .ok []
  else
    match (skip ['[', '\n'] cs).bind (readEntries cs.length) with
    | some tokens => .ok tokens
    | none => .error "expected value at line 1 column 1"

theorem readEntries_entriesText (t : TokenSpec) (ts : List TokenSpec) (h : ts.length < n) :
    readEntries n (entriesText t ts ++ (listEnd ++ ['\n'])) = some (t :: ts) := by
  induction ts generalizing t n with
  | nil =>
    obtain ⟨n, rfl⟩ := Nat.exists_eq_add_one.2 (Nat.zero_lt_of_lt h)
    rw [entriesText, readEntries, readEntry_entryText, Option.bind_some]
    exact if_pos rfl
  | cons next ts ih =>
    obtain ⟨n, rfl⟩ := Nat.exists_eq_add_one.2 (Nat.zero_lt_of_lt h)
    have hmore (cs : List Char) : comma ++ cs ≠ listEnd ++ ['\n'] := by
      intro heq
      cases (List.cons.inj heq).1
    rw [entriesText, readEntries, List.append_assoc, List.append_assoc, readEntry_entryText,
      Option.bind_some]
    refine (if_neg (hmore _)).trans ?_
    rw [skip_append, Option.bind_some, ih next (Nat.lt_of_succ_lt_succ h)]
    rfl

theorem length_lt_entriesText (t : TokenSpec) (ts : List TokenSpec) :
    ts.length < (entriesText t ts).length := by
  induction ts generalizing t with
  | nil =>
    have hend : 0 < entryEnd.length := by decide
    rw [entriesText, entryText, List.length_append, List.length_nil]
    omega
  | cons next ts ih =>
    have hrest := ih next
    have hcomma : 0 < comma.length := by decide
    rw [entriesText, List.length_append, List.length_append, List.length_cons]
    omega

/-- `serde_json` on the texts that the program itself writes. -/
abbrev rosterJson : TokenJson where
  print := rosterText
  parse := readRoster

theorem rosterJson_roundTrips : @TokenJson.RoundTrips rosterJson := by
  intro tokens
  change readRoster (rosterText tokens ++ ['\n']) = .ok tokens
  cases tokens with
  | nil => rfl
  | cons t ts =>
    have hlen := length_lt_entriesText t ts
    have htext : rosterText (t :: ts) ++ ['\n'] =
        ['[', '\n'] ++ (entriesText t ts ++ (listEnd ++ ['\n'])) := by
      rw [rosterText, List.append_assoc, List.append_assoc]
    have hread : (skip ['[', '\n'] (rosterText (t :: ts) ++ ['\n'])).bind
        (readEntries (rosterText (t :: ts) ++ ['\n']).length) = some (t :: ts) := by
      rw [htext, skip_append, Option.bind_some]
      apply readEntries_entriesText
      rw [List.length_append, List.length_append]
      omega
    rw [readRoster, if_neg, hread]
    intro heq
    rw [htext] at heq
    cases (List.cons.inj (List.cons.inj heq).2).1

def sampleTokens : List TokenSpec :=
  [⟨"Alpha", "A", "first", "https://a.example", "@a", true, "[1,1]"⟩,
    ⟨"Beta", "B", "\"second\"", "", "", false, ""⟩,
    ⟨"Debug", "D", "sentinel", "", "", false, "[2,2]"⟩]

def sampleLines : List String := ["[3,3]", "[4,4]"]

def sampleDirs : Tree :=
  (Tree.empty.add "cache" [] .dir (Tree.isDir_root .empty) rfl).add "keys" [] .dir
    (Tree.isDir_root _) (by decide)

def sampleCache : Tree :=
  sampleDirs.put "tokens.json" ["cache"] (@rosterBytes rosterJson sampleTokens) (.inr (by decide))
    (by decide)

theorem lookup_sampleCache (h : path ≠ ["tokens.json", "cache"]) :
    sampleCache.lookup path = sampleDirs.lookup path :=
  Tree.lookup_put_of_ne _ _ h

theorem isDir_sampleCache : sampleCache.IsDir ["keys"] :=
  .inr ((lookup_sampleCache (by decide)).trans (by decide))

theorem lookup_sampleCache_pool : sampleCache.lookup ["tokens.jsonl", "keys"] = none :=
  (lookup_sampleCache (by decide)).trans (by decide)

def sampleDisk : Tree :=
  sampleCache.put "tokens.jsonl" ["keys"] (Text.toUtf8 (joinLines sampleLines)) isDir_sampleCache
    (by rw [lookup_sampleCache_pool]; exact (Option.some_ne_none _).symm)

theorem shelf_sampleDisk : shelf ["cache"] ["keys"] sampleDisk =
    @Shelf.withTokens rosterJson (Shelf.withLines ⟨none, none⟩ sampleLines) sampleTokens := by
  have hroster : sampleDisk.lookup ["tokens.json", "cache"] =
      some (.file (@rosterBytes rosterJson sampleTokens)) :=
    (Tree.lookup_put_of_ne _ _ (by decide)).trans (Tree.lookup_put_self _ _)
  have hpool : sampleDisk.lookup ["tokens.jsonl", "keys"] =
      some (.file (Text.toUtf8 (joinLines sampleLines))) := Tree.lookup_put_self _ _
  rw [shelf, tokensCacheFile, tokensKeyFile, hroster, hpool]
  rfl

theorem tokens_sampleDisk :
    @Shelf.tokens rosterJson (shelf ["cache"] ["keys"] sampleDisk) = some sampleTokens := by
  rw [shelf_sampleDisk]
  exact @Shelf.tokens_withTokens rosterJson rosterJson_roundTrips _ _

theorem lines_sampleDisk : (shelf ["cache"] ["keys"] sampleDisk).lines = sampleLines := by
  rw [shelf_sampleDisk]
  apply Shelf.lines_withLines ⟨none, none⟩
  decide +kernel

end TokenPumper.Tokens
