import TokenPumper.Senders.Node1

namespace TokenPumper
open LittleEndian
set_option autoImplicit true

def stripped (s : String) : List Char := s.toList.filter (· ≠ '-')

/-- Two hexadecimal digits for each byte and nothing else but hyphens. -/
structure IsKey (s : String) (bytes : Bytes 16) : Prop where
  length : (stripped s).length = 32
  digits : ∀ i : Fin 16, ∃ high low, ((stripped s)[2 * i.val]?).bind hexDigit = some high ∧
    ((stripped s)[2 * i.val + 1]?).bind hexDigit = some low ∧ (bytes.get i).toNat = 16 * high + low

/-- The parser gives the bytes of such a text, and an error for any other. -/
def ParsesExactly (s : String) : Prop :=
  (∀ bytes, parseApiKey s = .ok bytes ↔ IsKey s bytes) ∧ parseApiKey s ≠ .error .panic

/-- Pairs of characters that are numbers of two places: the first may be a plus sign. -/
def Taken : List Char → Prop
  | [] => True
  | [_] => False
  | c :: d :: cs => (c = '+' ∨ (hexDigit c).isSome) ∧ (hexDigit d).isSome ∧ Taken cs

/-- Behind such pairs, the next two bytes end or begin within a character. -/
def Cut (cs : List Char) : Prop :=
  ∃ before c after, cs = before ++ c :: after ∧ Taken before ∧
    (2 < c.utf8Size ∨ c.utf8Size = 1 ∧ ∃ d rest, after = d :: rest ∧ 1 < d.utf8Size)

theorem hexDigit_some (h : hexDigit c = some n) : n < 16 ∧ c.utf8Size = 1 ∧ c ≠ '+' := by
  have hascii (hc : 48 ≤ c.toNat ∧ c.toNat < 128) : c.utf8Size = 1 ∧ c ≠ '+' := by
    constructor
    · apply Char.utf8Size_eq_one_iff.2
      exact UInt32.le_iff_toNat_le.2 (Nat.le_of_lt_succ hc.2)
    · rintro rfl
      exact absurd hc.1 (by decide)
  rw [hexDigit] at h
  split at h
  · rename_i hrange
    have hc : 48 ≤ c.toNat ∧ c.toNat ≤ 57 := hrange
    have hn : c.toNat - 48 = n := Option.some.inj h
    exact ⟨by omega, hascii (by omega)⟩
  · split at h
    · rename_i hrange
      have hc : 97 ≤ c.toNat ∧ c.toNat ≤ 102 := hrange
      have hn : c.toNat - 97 + 10 = n := Option.some.inj h
      exact ⟨by omega, hascii (by omega)⟩
    · split at h
      · rename_i hrange
        have hc : 65 ≤ c.toNat ∧ c.toNat ≤ 70 := hrange
        have hn : c.toNat - 65 + 10 = n := Option.some.inj h
        exact ⟨by omega, hascii (by omega)⟩
      · cases h

theorem hexByte_isSome :
    (hexByte c d).isSome ↔ (c = '+' ∨ (hexDigit c).isSome) ∧ (hexDigit d).isSome := by
  rw [hexByte]
  split
  · rename_i hplus
    simp [hplus]
  · rename_i hplus
    cases hexDigit c <;> cases hexDigit d <;> simp [hplus]

theorem utf8Size_of_hexByte (h : (hexByte c d).isSome) : c.utf8Size = 1 ∧ d.utf8Size = 1 := by
  obtain ⟨hc, hd⟩ := hexByte_isSome.1 h
  obtain ⟨low, hlow⟩ := Option.isSome_iff_exists.1 hd
  refine ⟨?_, (hexDigit_some hlow).2.1⟩
  rcases hc with rfl | hc
  · rfl
  · obtain ⟨high, hhigh⟩ := Option.isSome_iff_exists.1 hc
    exact (hexDigit_some hhigh).2.1

theorem hexBytes_cons (h : hexByte c d = some b) (i : Nat) (cs : List Char) :
    hexBytes i (c :: d :: cs) = (hexBytes (i + 1) cs).map (b :: ·) := by
  obtain ⟨hc, hd⟩ := utf8Size_of_hexByte (Option.isSome_of_eq_some h)
  have htwo : ¬c.utf8Size = 2 := by omega
  have hone : ¬(c.utf8Size ≠ 1 ∨ d.utf8Size ≠ 1) := by omega
  rw [hexBytes]
  simp only [if_neg htwo, if_neg hone, h]
  cases hexBytes (i + 1) cs <;> rfl

theorem hexBytes_taken (h : Taken cs) (i : Nat) :
    ∃ bytes, hexBytes i cs = .ok bytes ∧ cs.length = 2 * bytes.length ∧
      ∀ j b, bytes[j]? = some b →
        ∃ c d, cs[2 * j]? = some c ∧ cs[2 * j + 1]? = some d ∧ hexByte c d = some b := by
  induction cs using Taken.induct generalizing i with
  | case1 => exact ⟨[], rfl, rfl, fun j b hb => by cases hb⟩
  | case2 c => exact absurd h id
  | case3 c d cs ih =>
    obtain ⟨hc, hd, hrest⟩ := h
    obtain ⟨b, hb⟩ := Option.isSome_iff_exists.1 (hexByte_isSome.2 ⟨hc, hd⟩)
    obtain ⟨bytes, hbytes, hlen, hpairs⟩ := ih hrest (i + 1)
    refine ⟨b :: bytes, ?_, by simp only [List.length_cons, hlen]; omega, ?_⟩
    · rw [hexBytes_cons hb, hbytes]
      rfl
    · intro j b' hj
      cases j with
      | zero =>
        obtain rfl := Option.some.inj hj
        exact ⟨c, d, rfl, rfl, hb⟩
      | succ j => exact hpairs j b' hj

theorem hexBytes_cut (h : Cut cs) (i : Nat) : hexBytes i cs = .error .panic := by
  obtain ⟨before, c, after, rfl, hbefore, hcut⟩ := h
  induction before using Taken.induct generalizing i with
  | case1 =>
    have htwo : ¬c.utf8Size = 2 := by omega
    rw [List.nil_append, hexBytes.eq_def]
    simp only [if_neg htwo]
    cases after with
    | nil => rfl
    | cons d after =>
      have hone : c.utf8Size ≠ 1 ∨ d.utf8Size ≠ 1 := by
        rcases hcut with hlong | ⟨-, d', rest, hafter, hd⟩
        · omega
        · obtain ⟨rfl, -⟩ := List.cons.inj hafter
          omega
      exact if_pos hone
  | case2 c => exact absurd hbefore id
  | case3 c d before ih =>
    obtain ⟨hc, hd, hrest⟩ := hbefore
    obtain ⟨b, hb⟩ := Option.isSome_iff_exists.1 (hexByte_isSome.2 ⟨hc, hd⟩)
    rw [List.cons_append, List.cons_append, hexBytes_cons hb, ih (i + 1) hrest]
    rfl

theorem hexBytes_refused (heven : 2 ∣ (cs.map Char.utf8Size).sum) (htaken : ¬Taken cs)
    (hcut : ¬Cut cs) (i : Nat) : ∃ chain, hexBytes i cs = .error (.error chain) := by
  induction i, cs using hexBytes.induct with
  | case1 i => exact absurd trivial htaken
  | case2 i c cs htwo =>
    rw [hexBytes.eq_def]
    simp only [if_pos htwo]
    exact ⟨_, rfl⟩
  | case3 i c htwo =>
    exfalso
    have hpos := c.utf8Size_pos
    have hle := c.utf8Size_le_four
    simp only [List.map_cons, List.map_nil, List.sum_cons, List.sum_nil] at heven
    exact hcut ⟨[], c, [], rfl, trivial, .inl (by omega)⟩
  | case4 i c htwo d cs hwide =>
    exfalso
    have hc := c.utf8Size_pos
    have hd := d.utf8Size_pos
    apply hcut
    refine ⟨[], c, d :: cs, rfl, trivial, ?_⟩
    by_cases hone : c.utf8Size = 1
    · exact .inr ⟨hone, d, cs, rfl, by omega⟩
    · exact .inl (by omega)
  | case5 i c htwo d cs hone hnone =>
    rw [hexBytes.eq_def]
    simp only [if_neg htwo, if_neg hone, hnone]
    exact ⟨_, rfl⟩
  | case6 i c htwo d cs hone b hb ih =>
    obtain ⟨hc, hd⟩ := hexByte_isSome.1 (Option.isSome_of_eq_some hb)
    obtain ⟨hc1, hd1⟩ := utf8Size_of_hexByte (Option.isSome_of_eq_some hb)
    simp only [List.map_cons, List.sum_cons, hc1, hd1] at heven
    have hrest : ¬Cut cs := by
      rintro ⟨before, e, after, rfl, hbefore, hwide⟩
      exact hcut ⟨c :: d :: before, e, after, rfl, ⟨hc, hd, hbefore⟩, hwide⟩
    obtain ⟨chain, hchain⟩ := ih (by omega) (fun h => htaken ⟨hc, hd, h⟩) hrest
    rw [hexBytes_cons hb, hchain]
    exact ⟨chain, rfl⟩

theorem length_of_taken (h : Taken cs) : cs.length = (cs.map Char.utf8Size).sum := by
  induction cs using Taken.induct with
  | case1 => rfl
  | case2 c => exact absurd h id
  | case3 c d cs ih =>
    obtain ⟨hc, hd, hrest⟩ := h
    obtain ⟨hc1, hd1⟩ := utf8Size_of_hexByte (hexByte_isSome.2 ⟨hc, hd⟩)
    simp only [List.length_cons, List.map_cons, List.sum_cons, ih hrest, hc1, hd1]
    omega

theorem taken_of_digits (heven : 2 ∣ cs.length) (h : ∀ c ∈ cs, (hexDigit c).isSome) : Taken cs := by
  induction cs using Taken.induct with
  | case1 => trivial
  | case2 c =>
    rw [List.length_singleton] at heven
    exact absurd heven (by decide)
  | case3 c d cs ih =>
    obtain ⟨hc, hrest⟩ := List.forall_mem_cons.1 h
    obtain ⟨hd, hrest⟩ := List.forall_mem_cons.1 hrest
    simp only [List.length_cons] at heven
    exact ⟨.inr hc, hd, ih (by omega) hrest⟩

theorem utf8ByteSize_ofList (cs : List Char) :
    (String.ofList cs).utf8ByteSize = (cs.map Char.utf8Size).sum := by
  induction cs with
  | nil => rfl
  | cons c cs ih =>
    rw [String.ofList_cons, String.utf8ByteSize_append, ih, String.utf8ByteSize_singleton,
      List.map_cons, List.sum_cons]

namespace IsKey
variable {bytes bytes' : Bytes 16}

theorem digit (h : IsKey s bytes) : ∀ c ∈ stripped s, (hexDigit c).isSome := by
  intro c hc
  obtain ⟨j, hj, rfl⟩ := List.getElem_of_mem hc
  rw [h.length] at hj
  obtain ⟨high, low, hhigh, hlow, -⟩ := h.digits ⟨j / 2, by omega⟩
  have hplace : j = 2 * (j / 2) ∨ j = 2 * (j / 2) + 1 := by omega
  rcases hplace with heq | heq
  · obtain ⟨c, hget, hdigit⟩ := Option.bind_eq_some_iff.1 hhigh
    rw [← heq] at hget
    rw [(List.getElem?_eq_some_iff.1 hget).2, hdigit]
    rfl
  · obtain ⟨c, hget, hdigit⟩ := Option.bind_eq_some_iff.1 hlow
    rw [← heq] at hget
    rw [(List.getElem?_eq_some_iff.1 hget).2, hdigit]
    rfl

theorem taken (h : IsKey s bytes) : Taken (stripped s) :=
  taken_of_digits (h.length ▸ by decide) h.digit

theorem size (h : IsKey s bytes) : ((stripped s).map Char.utf8Size).sum = 32 := by
  rw [← length_of_taken h.taken, h.length]

theorem not_plus (h : IsKey s bytes) : '+' ∉ stripped s := by
  intro hplus
  obtain ⟨n, hn⟩ := Option.isSome_iff_exists.1 (h.digit '+' hplus)
  exact (hexDigit_some hn).2.2 rfl

theorem unique (h : IsKey s bytes) (h' : IsKey s bytes') : bytes = bytes' := by
  apply Vector.ext
  intro i hi
  obtain ⟨high, low, hhigh, hlow, hb⟩ := h.digits ⟨i, hi⟩
  obtain ⟨high', low', hhigh', hlow', hb'⟩ := h'.digits ⟨i, hi⟩
  obtain rfl := Option.some.inj (hhigh.symm.trans hhigh')
  obtain rfl := Option.some.inj (hlow.symm.trans hlow')
  exact UInt8.toNat_inj.1 (hb.trans hb'.symm)

end IsKey

section Parse
variable {s : String}

theorem parseApiKey_wrong_size (h : ((stripped s).map Char.utf8Size).sum ≠ 32) :
    ∃ chain, parseApiKey s = .error (.error chain) := by
  rw [← utf8ByteSize_ofList] at h
  exact ⟨_, if_pos h⟩

theorem parseApiKey_eq (h : ((stripped s).map Char.utf8Size).sum = 32) :
    parseApiKey s = (hexBytes 0 (stripped s)).bind fun bytes =>
      if hlen : bytes.length = 16 then .ok (ofList bytes hlen) else .error .panic := by
  rw [← utf8ByteSize_ofList] at h
  exact if_neg (not_not_intro h)

theorem parseApiKey_taken (hsize : ((stripped s).map Char.utf8Size).sum = 32)
    (h : Taken (stripped s)) :
    ∃ bytes, parseApiKey s = .ok bytes ∧ ('+' ∉ stripped s → IsKey s bytes) := by
  obtain ⟨bytes, hbytes, hlen, hpairs⟩ := hexBytes_taken h 0
  have htotal := length_of_taken h
  have h16 : bytes.length = 16 := by omega
  refine ⟨ofList bytes h16, ?_, ?_⟩
  · rw [parseApiKey_eq hsize, hbytes]
    exact dif_pos h16
  · intro hplus
    refine ⟨by omega, ?_⟩
    intro i
    have hi : i.val < bytes.length := Nat.lt_of_lt_of_eq i.isLt h16.symm
    obtain ⟨c, d, hc, hd, hb⟩ := hpairs i.val _ (List.getElem?_eq_getElem hi)
    have hne : c ≠ '+' := by
      rintro rfl
      exact hplus (List.mem_of_getElem? hc)
    rw [hexByte, if_neg hne] at hb
    obtain ⟨high, hhigh, hb⟩ := Option.bind_eq_some_iff.1 hb
    obtain ⟨low, hlow, hb⟩ := Option.bind_eq_some_iff.1 hb
    have hhigh' := (hexDigit_some hhigh).1
    have hlow' := (hexDigit_some hlow).1
    refine ⟨high, low, by rw [hc, Option.bind_some, hhigh], by rw [hd, Option.bind_some, hlow], ?_⟩
    have hget : (ofList bytes h16).get i = bytes[i.val] := rfl
    rw [hget, ← Option.some.inj hb, UInt8.toNat_ofNat_of_lt' (by change _ < 256; omega)]

theorem parseApiKey_cut (hsize : ((stripped s).map Char.utf8Size).sum = 32)
    (h : Cut (stripped s)) : parseApiKey s = .error .panic := by
  rw [parseApiKey_eq hsize, hexBytes_cut h]
  rfl

theorem parseApiKey_refused (hsize : ((stripped s).map Char.utf8Size).sum = 32)
    (htaken : ¬Taken (stripped s)) (hcut : ¬Cut (stripped s)) :
    ∃ chain, parseApiKey s = .error (.error chain) := by
  obtain ⟨chain, hchain⟩ := hexBytes_refused (hsize ▸ by decide) htaken hcut 0
  refine ⟨chain, ?_⟩
  rw [parseApiKey_eq hsize, hchain]
  rfl

theorem parsesExactly_of_error (hnot : ∀ bytes, ¬IsKey s bytes)
    (h : ∃ chain, parseApiKey s = .error (.error chain)) : ParsesExactly s := by
  obtain ⟨chain, hchain⟩ := h
  constructor
  · intro bytes
    constructor
    · intro hok
      cases hchain.symm.trans hok
    · intro hkey
      exact absurd hkey (hnot bytes)
  · intro hpanic
    cases hchain.symm.trans hpanic

/-- The parser is exact but for texts of 32 bytes in which it cuts a character, or in which a plus
sign stands for the first digit of a byte and nothing else is wrong. -/
theorem parses_exactly_iff (s : String) :
    ParsesExactly s ↔ (String.ofList (stripped s)).utf8ByteSize ≠ 32 ∨
      ¬Cut (stripped s) ∧ ¬(Taken (stripped s) ∧ '+' ∈ stripped s) := by
  rw [utf8ByteSize_ofList]
  by_cases hsize : ((stripped s).map Char.utf8Size).sum = 32
  · simp only [ne_eq, hsize, not_true_eq_false, false_or]
    by_cases htaken : Taken (stripped s)
    · obtain ⟨bytes, hbytes, hkey⟩ := parseApiKey_taken hsize htaken
      have hcut : ¬Cut (stripped s) := by
        intro hcut
        cases hbytes.symm.trans (parseApiKey_cut hsize hcut)
      constructor
      · intro hexact
        refine ⟨hcut, ?_⟩
        intro hplus
        exact ((hexact.1 bytes).1 hbytes).not_plus hplus.2
      · intro hright
        have hkey := hkey fun hplus => hright.2 ⟨htaken, hplus⟩
        constructor
        · intro other
          constructor
          · intro hother
            obtain rfl := Except.ok.inj (hbytes.symm.trans hother)
            exact hkey
          · intro hother
            rw [hbytes, hkey.unique hother]
        · intro hpanic
          cases hbytes.symm.trans hpanic
    · by_cases hcut : Cut (stripped s)
      · constructor
        · intro hexact
          exact absurd (parseApiKey_cut hsize hcut) hexact.2
        · intro hright
          exact absurd hcut hright.1
      · have hright : ¬Cut (stripped s) ∧ ¬(Taken (stripped s) ∧ '+' ∈ stripped s) :=
          ⟨hcut, fun h => htaken h.1⟩
        exact iff_of_true (parsesExactly_of_error (fun bytes hkey => htaken hkey.taken)
          (parseApiKey_refused hsize htaken hcut)) hright
  · exact iff_of_true (parsesExactly_of_error (fun bytes hkey => hsize hkey.size)
      (parseApiKey_wrong_size hsize)) (.inl hsize)

end Parse

def plusKey : String := "+1+1+1+1-+1+1-+1+1-+1+1-+1+1+1+1+1+1"

def cutKey : String := "001é2233-4455-6677-8899-aabbccddeef"

theorem parses_plus_and_panics :
    parseApiKey plusKey = .ok (Vector.replicate 16 1) ∧ ¬ParsesExactly plusKey ∧
      parseApiKey cutKey = .error .panic ∧ ¬ParsesExactly cutKey := by
  have hplus : parseApiKey plusKey = .ok (Vector.replicate 16 1) := by decide +kernel
  have hcut : parseApiKey cutKey = .error .panic := by decide +kernel
  refine ⟨hplus, ?_, hcut, fun h => h.2 hcut⟩
  intro hexact
  have hkey := (hexact.1 _).1 hplus
  exact hkey.not_plus (by decide +kernel)

end TokenPumper
