import Mathlib.Data.List.Basic

/-!
# Byte streams read in chunks

A reader hands out a stream in pieces of whatever size it likes.  What a consumer makes of
it must not depend on the pieces: the lemmas here bring a chunked computation back to the
concatenation.
-/

namespace FlickDrop
namespace Foundations

variable {α : Type*}

/-- What `io.LimitReader` passes on of the chunks it reads: at most `n` elements. -/
def limitChunks : Nat → List (List α) → List (List α)
  | _, [] => []
  | n, chunk :: rest =>
    if n = 0 then [] else chunk.take n :: limitChunks (n - chunk.length) rest

/-- A writer that keeps the first `limit` elements written to it. -/
def keepFirst (limit : Nat) (kept chunk : List α) : List α :=
  if kept.length < limit then kept ++ chunk.take (limit - kept.length) else kept

theorem flatten_limitChunks (n : Nat) (chunks : List (List α)) :
    (limitChunks n chunks).flatten = chunks.flatten.take n := by
  induction chunks generalizing n with
  | nil => simp [limitChunks]
  | cons chunk rest ih =>
    unfold limitChunks
    split
    · rename_i hzero
      simp [hzero]
    · rw [List.flatten_cons, List.flatten_cons, ih, List.take_append]

/-- A writer that is a function of what it was given so far, read at the end of a stream. -/
theorem foldl_chunks {State : Type*} (write : State → List α → State) (view : List α → State)
    (hwrite : ∀ past chunk, write (view past) chunk = view (past ++ chunk))
    (chunks : List (List α)) (past : List α) :
    chunks.foldl write (view past) = view (past ++ chunks.flatten) := by
  induction chunks generalizing past with
  | nil => simp
  | cons chunk rest ih =>
    rw [List.foldl_cons, hwrite, ih, List.flatten_cons, List.append_assoc]

theorem keepFirst_take (limit : Nat) (past chunk : List α) :
    keepFirst limit (past.take limit) chunk = (past ++ chunk).take limit := by
  unfold keepFirst
  rw [List.take_append]
  split
  · rename_i hroom
    rw [List.length_take] at hroom
    have hshort : past.length < limit := by omega
    rw [List.take_of_length_le (Nat.le_of_lt hshort)]
  · rename_i hfull
    rw [List.length_take] at hfull
    have hzero : limit - past.length = 0 := by omega
    rw [hzero, List.take_zero, List.append_nil]

end Foundations
end FlickDrop
