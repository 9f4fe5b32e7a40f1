import TokenPumper.Lib.LittleEndian

namespace ByteCursor
open LittleEndian
set_option autoImplicit true

def splice (buf : List α) (pos : Nat) (xs : List α) : List α :=
  buf.take pos ++ xs ++ buf.drop (pos + xs.length)

theorem length_splice (h : pos + xs.length ≤ buf.length) :
    (splice buf pos xs).length = buf.length := by
  simp only [splice, List.length_append, List.length_take, List.length_drop]
  omega

theorem splice_splice (h : pos + (xs ++ ys).length ≤ buf.length) :
    splice (splice buf pos xs) (pos + xs.length) ys = splice buf pos (xs ++ ys) := by
  rw [List.length_append] at h
  have hl : (buf.take pos ++ xs).length = pos + xs.length := by
    rw [List.length_append, List.length_take]
    omega
  simp only [splice, List.length_append]
  rw [← hl, List.take_left, ← List.drop_drop, List.drop_left, hl, List.drop_drop]
  simp only [List.append_assoc, Nat.add_assoc]

def slice (buf : List α) (i j : Nat) : List α := (buf.take j).drop i

theorem slice_splice (h : pos + xs.length ≤ buf.length) :
    slice (splice buf pos xs) pos (pos + xs.length) = xs := by
  have hl : (buf.take pos ++ xs).length = pos + xs.length := by
    rw [List.length_append, List.length_take]
    omega
  have hp : (buf.take pos).length = pos := by
    rw [List.length_take]
    omega
  rw [slice, splice, ← hl, List.take_left, List.drop_left' hp]

/-- A head written in front of a body leaves exactly head and body, whatever was there before. -/
theorem take_splice_head (h : pos + xs.length ≤ buf.length) (hh : head.length = pos) :
    (splice (splice buf pos xs) 0 head).take (pos + xs.length) = head ++ xs := by
  have hp : (buf.take pos).length = pos := by
    rw [List.length_take]
    omega
  simp only [splice, List.take_zero, List.nil_append, Nat.zero_add]
  rw [List.append_assoc (buf.take pos), hh, List.drop_left' hp, ← List.append_assoc]
  apply List.take_left'
  rw [List.length_append, hh]

/-- A fixed buffer together with the offset of the next write. -/
structure Cursor (n : Nat) where
  buf : Bytes n
  pos : Nat

/-- A sequence of writes; a write past the end of the buffer is a panic. -/
abbrev CursorWriter (n : Nat) := StateT (Cursor n) Option

def overwrite (buf : Bytes n) (pos : Nat) (bs : List UInt8) (h : pos + bs.length ≤ n) : Bytes n :=
  ofList (splice buf.toList pos bs) (by
    rw [length_splice (by rwa [buf.length_toList]), buf.length_toList])

@[simp] theorem toList_overwrite (buf : Bytes n) (h : pos + bs.length ≤ n) :
    (overwrite buf pos bs h).toList = splice buf.toList pos bs := rfl

theorem overwrite_overwrite (buf : Bytes n) (hx : pos + xs.length ≤ n)
    (hy : pos + xs.length + ys.length ≤ n) (h : pos + (xs ++ ys).length ≤ n) :
    overwrite (overwrite buf pos xs hx) (pos + xs.length) ys hy =
      overwrite buf pos (xs ++ ys) h := by
  apply Vector.toList_inj.1
  rw [toList_overwrite, toList_overwrite, toList_overwrite]
  apply splice_splice
  rwa [buf.length_toList]

/-- `buf[pos..pos + n].copy_from_slice(bs); pos += n`. -/
def put (bs : List UInt8) : CursorWriter n Unit := fun c =>
  if h : c.pos + bs.length ≤ n then
    some ((), ⟨overwrite c.buf c.pos bs h, c.pos + bs.length⟩)
  else none

theorem put_run (buf : Bytes n) (h : pos + bs.length ≤ n) :
    (put bs).run ⟨buf, pos⟩ = some ((), ⟨overwrite buf pos bs h, pos + bs.length⟩) := by
  simp only [put, StateT.run, h, ↓reduceDIte]

theorem put_panics (buf : Bytes n) (h : ¬pos + bs.length ≤ n) :
    (put bs).run ⟨buf, pos⟩ = none := by
  simp only [put, StateT.run, h, ↓reduceDIte]

theorem put_seq (xs ys : List UInt8) :
    (do put xs; put ys : CursorWriter n Unit) = put (xs ++ ys) := by
  funext c
  obtain ⟨buf, pos⟩ := c
  change ((put xs).run ⟨buf, pos⟩).bind (fun r => (put ys).run r.2) =
    (put (xs ++ ys)).run ⟨buf, pos⟩
  have hl : (xs ++ ys).length = xs.length + ys.length := List.length_append
  by_cases h : pos + (xs ++ ys).length ≤ n
  · have hx : pos + xs.length ≤ n := by omega
    have hy : pos + xs.length + ys.length ≤ n := by omega
    rw [put_run buf hx, Option.bind_some, put_run _ hy, put_run buf h,
      overwrite_overwrite buf hx hy h, hl, Nat.add_assoc]
  · rw [put_panics buf h]
    by_cases hx : pos + xs.length ≤ n
    · rw [put_run buf hx, Option.bind_some, put_panics]
      omega
    · rw [put_panics buf hx, Option.bind_none]

theorem put_bind (xs ys : List UInt8) (k : CursorWriter n α) :
    (do put xs; put ys; k) = (do put (xs ++ ys); k) := by
  rw [← put_seq, bind_assoc]

theorem put_forM (xs : List UInt8) (f : α → List UInt8) (as : List α) :
    (do put xs; forM as (fun a => put (f a)) : CursorWriter n PUnit) =
      put (xs ++ as.flatMap f) := by
  induction as generalizing xs with
  | nil =>
    rw [List.flatMap_nil, List.append_nil]
    exact bind_pure (put xs)
  | cons a as ih =>
    rw [List.forM_cons, put_bind, ih, List.flatMap_cons, List.append_assoc]

theorem put_forM_bind (xs : List UInt8) (f : α → List UInt8) (as : List α) (k : CursorWriter n β) :
    (do put xs; forM as (fun a => put (f a)); k) = (do put (xs ++ as.flatMap f); k) := by
  rw [← put_forM, bind_assoc]

end ByteCursor
