import TokenPumper.Lib.Text

namespace Text
set_option autoImplicit true

/-- A carriage return before the end of a line belongs to the end. -/
def dropReturn (part : List Char) : List Char := (stripSuffix '\r' part).getD part

/-- What stands behind the last end is a line only if something does. -/
def endedLines : List (List Char) → List (List Char)
  | [] => []
  | [rest] => if rest = [] then [] else [rest]
  | part :: next :: parts => dropReturn part :: endedLines (next :: parts)

def lines (cs : List Char) : List (List Char) := endedLines (split '\n' cs)

def unlines (ls : List (List Char)) : List Char := ls.flatMap (· ++ ['\n'])

theorem stripSuffix_eq_some (h : stripSuffix c cs = some rest) : cs = rest ++ [c] := by
  rw [stripSuffix, Option.map_eq_some_iff] at h
  obtain ⟨front, hfront, rfl⟩ := h
  cases hrev : cs.reverse with
  | nil =>
    rw [hrev] at hfront
    cases hfront
  | cons x xs =>
    rw [hrev, stripPrefix] at hfront
    split at hfront
    · rename_i hx
      obtain rfl := Option.some.inj hfront
      rw [← List.reverse_reverse cs, hrev, List.reverse_cons, hx]
    · cases hfront

theorem dropReturn_sublist (part : List Char) : (dropReturn part).Sublist part := by
  rw [dropReturn]
  cases h : stripSuffix '\r' part with
  | none => exact List.Sublist.refl part
  | some rest =>
    rw [stripSuffix_eq_some h]
    exact List.sublist_append_left rest ['\r']

theorem dropReturn_of_not_mem (h : '\r' ∉ part) : dropReturn part = part := by
  rw [dropReturn]
  cases hs : stripSuffix '\r' part with
  | none => rfl
  | some rest =>
    rw [stripSuffix_eq_some hs] at h
    exact absurd (List.mem_append_right rest List.mem_cons_self) h

theorem not_mem_of_mem_split (h : part ∈ split sep cs) : sep ∉ part := by
  induction cs generalizing part with
  | nil =>
    obtain rfl := List.mem_singleton.1 h
    exact List.not_mem_nil
  | cons c cs ih =>
    rw [split] at h
    split at h
    · obtain rfl := List.mem_singleton.1 h
      exact List.not_mem_nil
    · rename_i first parts hsplit
      rw [hsplit] at ih
      split at h
      · rcases List.mem_cons.1 h with rfl | hmem
        · exact List.not_mem_nil
        · exact ih hmem
      · rename_i hc
        rcases List.mem_cons.1 h with rfl | hmem
        · intro hsep
          rcases List.mem_cons.1 hsep with rfl | hfirst
          · exact hc rfl
          · exact ih List.mem_cons_self hfirst
        · exact ih (List.mem_cons_of_mem first hmem)

theorem exists_part_of_mem_endedLines (h : line ∈ endedLines parts) :
    ∃ part ∈ parts, line.Sublist part := by
  induction parts with
  | nil => cases h
  | cons part parts ih =>
    cases parts with
    | nil =>
      rw [endedLines] at h
      split at h
      · cases h
      · obtain rfl := List.mem_singleton.1 h
        exact ⟨line, List.mem_cons_self, List.Sublist.refl line⟩
    | cons next parts =>
      rw [endedLines] at h
      rcases List.mem_cons.1 h with rfl | hmem
      · exact ⟨part, List.mem_cons_self, dropReturn_sublist part⟩
      · obtain ⟨p, hp, hsub⟩ := ih hmem
        exact ⟨p, List.mem_cons_of_mem part hp, hsub⟩

theorem not_mem_of_mem_lines (h : line ∈ lines cs) : '\n' ∉ line := by
  obtain ⟨part, hpart, hsub⟩ := exists_part_of_mem_endedLines h
  exact fun hmem => not_mem_of_mem_split hpart (hsub.subset hmem)

theorem lines_unlines (h : ∀ line ∈ ls, '\n' ∉ line ∧ '\r' ∉ line) : lines (unlines ls) = ls := by
  induction ls with
  | nil => rfl
  | cons line ls ih =>
    obtain ⟨hline, hreturn⟩ := h line List.mem_cons_self
    have hrest := ih fun l hl => h l (List.mem_cons_of_mem line hl)
    have htext : unlines (line :: ls) = line ++ '\n' :: unlines ls := by
      rw [unlines, List.flatMap_cons, List.append_assoc]
      rfl
    rw [lines] at hrest ⊢
    rw [htext, split_append hline]
    cases hsplit : split '\n' (unlines ls) with
    | nil => exact absurd hsplit (split_ne_nil '\n' _)
    | cons part parts =>
      rw [hsplit] at hrest
      rw [endedLines, hrest, dropReturn_of_not_mem hreturn]

end Text
