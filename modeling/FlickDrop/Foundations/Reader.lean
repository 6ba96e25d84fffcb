import Mathlib.Data.List.Basic

/-!
# Readers

Go's `io.Reader`: a read fills at most a buffer and may report the end of the stream or an error,
by itself or together with the last elements.  A `Source` is a reader that delivers given chunks;
`drain` is a caller that reads until something is reported.
-/

namespace FlickDrop
namespace Foundations

/-- What a read reports when a stream is over. -/
inductive Ending where
  | eof
  | error (text : String)
deriving DecidableEq, Repr

/-- A stream with the chunks that are still to come.  The ending is reported by a read of its own
or, with `together`, by the read that takes the last element. -/
structure Source (α : Type*) where
  chunks : List (List α)
  ending : Ending
  together : Bool
  nonempty : ∀ chunk ∈ chunks, chunk ≠ []

variable {α State : Type*}

def Source.content (src : Source α) : List α := src.chunks.flatten

/-- One read into a buffer of `size` elements. -/
def Source.read (src : Source α) (size : Nat) : List α × Option Ending × Source α :=
  match hchunks : src.chunks with
  | [] => ([], some src.ending, src)
  | chunk :: rest =>
    have hrest : ∀ later ∈ rest, later ≠ [] := fun later hmem =>
      src.nonempty later (hchunks ▸ List.mem_cons_of_mem chunk hmem)
    if hsize : size < chunk.length then
      (chunk.take size, none,
        { src with
          chunks := chunk.drop size :: rest
          nonempty := by
            intro later hmem
            rcases List.mem_cons.mp hmem with rfl | hmem
            · exact List.ne_nil_of_length_pos (by rw [List.length_drop]; omega)
            · exact hrest later hmem })
    else
      (chunk, if rest = [] ∧ src.together = true then some src.ending else none,
        { src with chunks := rest, nonempty := hrest })

/-- The caller that reads with the given buffer sizes until a read reports something: what it
read, and what was reported if the buffers lasted. -/
def drain (read : State → Nat → List α × Option Ending × State) :
    State → List Nat → List α × Option Ending
  | _, [] => ([], none)
  | s, size :: sizes =>
    match read s size with
    | (elements, some ending, _) => (elements, some ending)
    | (elements, none, s') =>
      let later := drain read s' sizes
      (elements ++ later.1, later.2)

/-- The stream will report an error together with its last element. -/
def Source.FailsWithLast (src : Source α) : Prop :=
  src.content.isEmpty = false ∧ src.together = true ∧ src.ending ≠ .eof

instance (src : Source α) : Decidable src.FailsWithLast :=
  inferInstanceAs (Decidable (_ ∧ _))

theorem Source.content_eq_nil {src : Source α} : src.content = [] ↔ src.chunks = [] := by
  rw [Source.content, List.flatten_eq_nil_iff]
  constructor
  · intro hall
    cases hchunks : src.chunks with
    | nil => rfl
    | cons chunk rest =>
      have hmem : chunk ∈ src.chunks := by rw [hchunks]; exact List.mem_cons_self
      exact absurd (hall chunk hmem) (src.nonempty chunk hmem)
  · intro hnone
    simp [hnone]

/-- What one read does.  It reports nothing while elements remain, and an ending that is reported
with elements came together with the last of them. -/
structure Source.Reads (src : Source α) (size : Nat) (elements : List α) (ending : Option Ending)
    (after : Source α) : Prop where
  content : src.content = elements ++ after.content
  length_le : elements.length ≤ size
  ending_eq : after.ending = src.ending
  together_eq : after.together = src.together
  reported : ∀ e, ending = some e → e = src.ending ∧ after.content = [] ∧
    (elements = [] ∨ src.together = true)
  quiet : ending = none → 0 < size → elements ≠ []
  quiet_last : ending = none → after.content = [] → src.together = false

theorem Source.read_reads (src : Source α) (size : Nat) :
    src.Reads size (src.read size).1 (src.read size).2.1 (src.read size).2.2 := by
  rw [Source.read]
  split
  · rename_i hnone
    have hcontent : src.content = [] := Source.content_eq_nil.mpr hnone
    exact
      { content := rfl
        length_le := Nat.zero_le size
        ending_eq := rfl
        together_eq := rfl
        reported := fun e he => ⟨(Option.some.inj he).symm, hcontent, .inl rfl⟩
        quiet := fun hno => by cases hno
        quiet_last := fun hno => by cases hno }
  · rename_i chunk rest hchunks
    have hcontent : src.content = chunk ++ rest.flatten := by simp [Source.content, hchunks]
    have hchunk : chunk ≠ [] :=
      src.nonempty chunk (by rw [hchunks]; exact List.mem_cons_self)
    dsimp only
    split
    · rename_i hsize
      exact
        { content := by
            rw [hcontent, Source.content, List.flatten_cons, ← List.append_assoc,
              List.take_append_drop]
          length_le := List.length_take_le size chunk
          ending_eq := rfl
          together_eq := rfl
          reported := fun e he => by cases he
          quiet := by
            intro _ hpositive
            exact List.ne_nil_of_length_pos (by rw [List.length_take]; omega)
          quiet_last := by
            intro _ hempty
            have hdrop := (List.append_eq_nil_iff.mp
              (show chunk.drop size ++ rest.flatten = [] from hempty)).1
            have hlength := congrArg List.length hdrop
            rw [List.length_drop, List.length_nil] at hlength
            omega }
    · rename_i hsize
      exact
        { content := hcontent
          length_le := Nat.not_lt.mp hsize
          ending_eq := rfl
          together_eq := rfl
          reported := by
            intro e he
            obtain ⟨⟨hlast, htogether⟩, hending⟩ := Option.ite_none_right_eq_some.mp he
            exact ⟨(Option.some.inj hending).symm, by simp [Source.content, hlast], .inr htogether⟩
          quiet := fun _ _ => hchunk
          quiet_last := by
            intro hquiet hempty
            have hlast : rest = [] := Source.content_eq_nil.mp hempty
            by_contra htogether
            rw [if_pos ⟨hlast, by simpa using htogether⟩] at hquiet
            cases hquiet }

section

variable {src after : Source α} {size : Nat} {elements : List α}

/-- Whether the stream will fail with its last element does not change before it does. -/
theorem Source.Reads.failsWithLast_iff (h : src.Reads size elements none after) :
    after.FailsWithLast ↔ src.FailsWithLast := by
  rw [Source.FailsWithLast, Source.FailsWithLast, h.ending_eq, h.together_eq]
  cases hafter : after.content with
  | nil => simp [h.quiet_last rfl hafter]
  | cons x rest =>
    have hsrc : src.content.isEmpty = false := by
      rw [h.content, hafter]
      simp
    simp [hsrc]

/-- After the end is reported everything has been read. -/
theorem Source.Reads.content_of_some {e : Ending} (h : src.Reads size elements (some e) after) :
    src.content = elements := by
  rw [h.content, (h.reported e rfl).2.1, List.append_nil]

theorem Source.Reads.failsWithLast_of_error {text : String}
    (h : src.Reads size elements (some (.error text)) after) (hsome : elements ≠ []) :
    src.FailsWithLast := by
  obtain ⟨hending, -, hempty | htogether⟩ := h.reported _ rfl
  · exact absurd hempty hsome
  · refine ⟨?_, htogether, ?_⟩
    · rw [h.content_of_some]
      simpa using hsome
    · rw [← hending]
      intro heof
      cases heof

theorem Source.Reads.not_failsWithLast_of_eof (h : src.Reads size elements (some .eof) after) :
    ¬ src.FailsWithLast := by
  intro hfails
  exact hfails.2.2 (h.reported _ rfl).1.symm

end

end Foundations
end FlickDrop
