import Mathlib.Tactic.Common

namespace ChunkReader
set_option autoImplicit true

/-- What is done next with a stream of `β`. -/
inductive Reader (β ε α : Type)
  | done (a : α)
  | fail (e : ε)
  /-- Reads exactly so many elements; fails if the stream ends before. -/
  | exact (n : Nat) (early : ε) (k : List β → Reader β ε α)
  /-- Reads up to the end; fails if that are more than so many elements. -/
  | toEnd (limit : Nat) (tooLong : ε) (k : List β → Reader β ε α)

namespace Reader

def poll : Reader β ε α → List β → Reader β ε α × List β
  | done a, buf => (done a, buf)
  | fail e, buf => (fail e, buf)
  | exact n early k, buf =>
    if n ≤ buf.length then (k (buf.take n)).poll (buf.drop n) else (exact n early k, buf)
  | toEnd limit tooLong k, buf =>
    if limit < buf.length then (fail tooLong, buf) else (toEnd limit tooLong k, buf)

def finish : Reader β ε α → List β → Except ε α
  | done a, _ => .ok a
  | fail e, _ => .error e
  | exact n early k, buf =>
    if n ≤ buf.length then (k (buf.take n)).finish (buf.drop n) else .error early
  | toEnd limit tooLong k, buf =>
    if limit < buf.length then .error tooLong else (k buf).finish []

def result : Reader β ε α → Option (Except ε α)
  | done a => some (.ok a)
  | fail e => some (.error e)
  | exact .. => none
  | toEnd .. => none

theorem poll_append (r : Reader β ε α) (buf more : List β) :
    (r.poll buf).1.poll ((r.poll buf).2 ++ more) = r.poll (buf ++ more) := by
  induction r generalizing buf with
  | done a => rfl
  | fail e => rfl
  | exact n early k ih =>
    rw [poll]
    split
    · rename_i h
      have hmore : n ≤ (buf ++ more).length := by
        rw [List.length_append]
        omega
      rw [ih, poll, if_pos hmore, List.take_append_of_le_length h, List.drop_append_of_le_length h]
    · rfl
  | toEnd limit tooLong k ih =>
    rw [poll]
    split
    · rename_i h
      have hmore : limit < (buf ++ more).length := by
        rw [List.length_append]
        omega
      rw [poll, poll, if_pos hmore]
    · rfl

theorem finish_poll (r : Reader β ε α) (buf : List β) :
    (r.poll buf).1.finish (r.poll buf).2 = r.finish buf := by
  induction r generalizing buf with
  | done a => rfl
  | fail e => rfl
  | exact n early k ih =>
    rw [poll, finish]
    split
    · exact ih _ _
    · rename_i h
      rw [finish, if_neg h]
  | toEnd limit tooLong k ih =>
    rw [poll, finish]
    split
    · rfl
    · rename_i h
      rw [finish, if_neg h]

theorem finish_of_result {r : Reader β ε α} (h : (r.poll buf).1.result = some x) :
    r.finish buf = x := by
  rw [← finish_poll]
  generalize r.poll buf = res at h
  obtain ⟨r', buf'⟩ := res
  cases r' with
  | done a => exact Option.some.inj h
  | fail e => exact Option.some.inj h
  | exact n early k => cases h
  | toEnd limit tooLong k => cases h

end Reader

end ChunkReader
