import FlickDrop.Foundations.Base64
import FlickDrop.Foundations.Reader

/-!
# The body of an open

Model of `exactBody` in `internal/flickcli/client.go`: the reader that holds an opened body to the
size the metadata recorded.
-/

namespace FlickDrop
namespace Flickcli

open Foundations

/-- `exactBody`. -/
structure ExactBody where
  body : Source UInt8
  remaining : Nat

/-- `exactBody.Read` into a buffer of `size` bytes. -/
def ExactBody.read (b : ExactBody) (size : Nat) : Bytes × Option Ending × ExactBody :=
  if b.remaining = 0 then
    match b.body.read 1 with
    | (extra, _, body) =>
      if 0 < extra.length then
        ([], some (.error "opened secret is longer than its recorded size"), { b with body })
      else
        ([], some .eof, { b with body })
  else
    match b.body.read (min size b.remaining) with
    | (bytes, err, body) =>
      let remaining := b.remaining - bytes.length
      match err with
      | some .eof =>
        if 0 < remaining then
          (bytes, some (.error ("opened secret ended " ++ toString remaining ++
            " bytes short: unexpected EOF")), ⟨body, remaining⟩)
        else
          (bytes, none, ⟨body, remaining⟩)
      | some (.error text) =>
        (bytes, some (.error ("read opened secret: " ++ text)), ⟨body, remaining⟩)
      | none => (bytes, none, ⟨body, remaining⟩)

/-- The body delivers exactly the bytes that remain, and no error with the last of them. -/
def ExactBody.Exact (b : ExactBody) : Prop :=
  b.body.content.length = b.remaining ∧ ¬ b.body.FailsWithLast

instance (b : ExactBody) : Decidable b.Exact := inferInstanceAs (Decidable (_ ∧ _))

/-- What one read of the body does. -/
inductive ExactBody.Reads (b : ExactBody) (size : Nat) : Bytes × Option Ending × ExactBody → Prop
  /-- all bytes were read and the body has no more -/
  | clean {after : ExactBody} (hremaining : b.remaining = 0) (hbody : b.body.content = []) :
      Reads b size ([], some .eof, after)
  /-- an error, with the bytes that came before it -/
  | fail {bytes : Bytes} {text : String} {after : ExactBody}
      (hbytes : bytes = b.body.content.take b.remaining) (hinexact : ¬ b.Exact) :
      Reads b size (bytes, some (.error text), after)
  | more {bytes : Bytes} {after : ExactBody}
      (hcontent : b.body.content = bytes ++ after.body.content)
      (hremaining : b.remaining = bytes.length + after.remaining)
      (hexact : after.Exact ↔ b.Exact) (hprogress : 0 < size → bytes ≠ []) :
      Reads b size (bytes, none, after)

theorem ExactBody.read_reads (b : ExactBody) (size : Nat) : b.Reads size (b.read size) := by
  rw [ExactBody.read]
  split
  · rename_i hremaining
    have hprobe := b.body.read_reads 1
    generalize b.body.read 1 = probe at hprobe ⊢
    obtain ⟨extra, reported, body⟩ := probe
    dsimp only at hprobe ⊢
    split
    · rename_i hextra
      refine .fail (by rw [hremaining, List.take_zero]) ?_
      rintro ⟨hlength, -⟩
      rw [hprobe.content, List.length_append] at hlength
      omega
    · rename_i hnone
      have hempty : extra = [] := List.eq_nil_of_length_eq_zero (by omega)
      refine .clean hremaining ?_
      cases reported with
      | none => exact absurd hempty (hprobe.quiet rfl (by decide))
      | some e => rw [hprobe.content_of_some, hempty]
  · rename_i hremaining
    have hread := b.body.read_reads (min size b.remaining)
    generalize b.body.read (min size b.remaining) = step at hread ⊢
    obtain ⟨bytes, reported, body⟩ := step
    dsimp only at hread ⊢
    have hlength : bytes.length ≤ b.remaining := hread.length_le.trans (Nat.min_le_right _ _)
    -- one case for each thing the body reports with the bytes
    cases reported with
    | none =>
      refine .more hread.content (by dsimp only; omega) ?_ fun hsize => hread.quiet rfl (by omega)
      rw [ExactBody.Exact, ExactBody.Exact, hread.failsWithLast_iff, hread.content,
        List.length_append]
      refine and_congr_left' ?_
      dsimp only
      omega
    | some e =>
      have hcontent := hread.content_of_some
      have hall : bytes = b.body.content.take b.remaining := by
        rw [hcontent, List.take_of_length_le hlength]
      cases e with
      | eof =>
        dsimp only
        split
        · refine .fail hall ?_
          rintro ⟨hexact, -⟩
          rw [hcontent] at hexact
          omega
        · have hafter := (hread.reported _ rfl).2.1
          have hcount : bytes.length = b.remaining := by omega
          refine .more hread.content (by dsimp only; omega) ?_ fun _ =>
            List.ne_nil_of_length_pos (by omega)
          constructor
          · intro _
            exact ⟨by rw [hcontent, hcount], hread.not_failsWithLast_of_eof⟩
          · intro _
            refine ⟨by simp [hafter, hcount], ?_⟩
            rintro ⟨hsome, -⟩
            simp [hafter] at hsome
      | error text =>
        refine .fail hall ?_
        rintro ⟨hexact, hlast⟩
        rw [hcontent] at hexact
        exact hlast (hread.failsWithLast_of_error (List.ne_nil_of_length_pos (by omega)))

/-- What a caller gets that reads until something is reported. -/
structure ExactBody.Drains (b : ExactBody) (sizes : List Nat) (bytes : Bytes)
    (reported : Option Ending) : Prop where
  clean : reported = some .eof → b.Exact ∧ bytes = b.body.content
  fail : ∀ text, reported = some (.error text) → ¬ b.Exact
  front : bytes <+: b.body.content.take b.remaining
  whole : reported ≠ none → bytes = b.body.content.take b.remaining
  ends : (∀ size ∈ sizes, 0 < size) → b.body.content.length < sizes.length → reported ≠ none

/-- One quiet read in front of the others. -/
theorem ExactBody.Drains.cons {b after : ExactBody} {size : Nat} {sizes : List Nat}
    {bytes later : Bytes} {reported : Option Ending} (h : after.Drains sizes later reported)
    (hcontent : b.body.content = bytes ++ after.body.content)
    (hremaining : b.remaining = bytes.length + after.remaining) (hexact : after.Exact ↔ b.Exact)
    (hprogress : 0 < size → bytes ≠ []) :
    b.Drains (size :: sizes) (bytes ++ later) reported where
  clean := by
    intro heof
    obtain ⟨hafter, hlater⟩ := h.clean heof
    exact ⟨hexact.mp hafter, by rw [hcontent, hlater]⟩
  fail := by
    intro text herror hb
    exact h.fail text herror (hexact.mpr hb)
  front := by
    rw [hcontent, hremaining, List.take_length_add_append]
    exact (List.prefix_append_right_inj bytes).mpr h.front
  whole := by
    intro hreported
    rw [hcontent, hremaining, List.take_length_add_append, ← h.whole hreported]
  ends := by
    intro hpositive hlong
    have hsome := List.length_pos_iff.mpr (hprogress (hpositive size List.mem_cons_self))
    refine h.ends (fun size hmem => hpositive size (List.mem_cons_of_mem _ hmem)) ?_
    rw [hcontent, List.length_append, List.length_cons] at hlong
    omega

theorem ExactBody.drain_drains (b : ExactBody) (sizes : List Nat) :
    b.Drains sizes (drain ExactBody.read b sizes).1 (drain ExactBody.read b sizes).2 := by
  induction sizes generalizing b with
  | nil =>
    exact
      { clean := fun hno => by cases hno
        fail := fun text hno => by cases hno
        front := List.nil_prefix
        whole := fun hno => absurd rfl hno
        ends := fun _ hlong => absurd hlong (Nat.not_lt_zero _) }
  | cons size sizes ih =>
    have hread := b.read_reads size
    rw [drain]
    generalize b.read size = step at hread ⊢
    cases hread with
    | clean hremaining hbody =>
      refine ⟨fun _ => ⟨⟨by rw [hbody, hremaining]; rfl, ?_⟩, hbody.symm⟩, ?_, List.nil_prefix,
        fun _ => by rw [hbody, List.take_nil], ?_⟩
      · rintro ⟨hsome, -⟩
        simp [hbody] at hsome
      · intro text hno
        cases hno
      · intro _ _ hno
        cases hno
    | fail hbytes hinexact =>
      refine ⟨(fun hno => by cases hno), fun _ _ => hinexact, hbytes ▸ List.prefix_rfl,
        fun _ => hbytes, ?_⟩
      intro _ _ hno
      cases hno
    | more hcontent hremaining hexact hprogress =>
      exact (ih _).cons hcontent hremaining hexact hprogress

/-- **A body is held to its recorded size**, whatever chunks it comes in and whatever buffers it
is read with.  It ends cleanly only when exactly that many bytes came, and then it does, unless an
error came with the last of them. -/
theorem exactBody_held (src : Source UInt8) (s : Nat) (sizes : List Nat) :
    ((drain ExactBody.read ⟨src, s⟩ sizes).2 = some .eof →
      src.content.length = s ∧ ¬ src.FailsWithLast ∧
        (drain ExactBody.read ⟨src, s⟩ sizes).1 = src.content) ∧
    (∀ text, (drain ExactBody.read ⟨src, s⟩ sizes).2 = some (.error text) →
      ¬ (src.content.length = s ∧ ¬ src.FailsWithLast) ∧
        (drain ExactBody.read ⟨src, s⟩ sizes).1 <+: src.content.take s) ∧
    ((∀ size ∈ sizes, 0 < size) → src.content.length < sizes.length →
      ((src.content.length = s ∧ ¬ src.FailsWithLast) ↔
        drain ExactBody.read ⟨src, s⟩ sizes = (src.content, some .eof)) ∧
      (¬ (src.content.length = s ∧ ¬ src.FailsWithLast) →
        ∃ text, (drain ExactBody.read ⟨src, s⟩ sizes).2 = some (.error text))) := by
  have hdrains := ExactBody.drain_drains ⟨src, s⟩ sizes
  generalize drain ExactBody.read ⟨src, s⟩ sizes = out at hdrains ⊢
  obtain ⟨bytes, reported⟩ := out
  refine ⟨?_, fun text herror => ⟨hdrains.fail text herror, hdrains.front⟩, ?_⟩
  · intro heof
    obtain ⟨⟨hlength, hlast⟩, hbytes⟩ := hdrains.clean heof
    exact ⟨hlength, hlast, hbytes⟩
  · intro hpositive hlong
    cases reported with
    | none => exact absurd rfl (hdrains.ends hpositive hlong)
    | some e =>
      cases e with
      | eof =>
        obtain ⟨hexact, hbytes⟩ := hdrains.clean rfl
        have hall : bytes = src.content := hbytes
        exact ⟨⟨fun _ => by rw [hall], fun _ => hexact⟩, fun hinexact => absurd hexact hinexact⟩
      | error text =>
        have hinexact := hdrains.fail text rfl
        exact ⟨⟨fun hexact => absurd hexact hinexact, fun hno => by cases hno⟩,
          fun _ => ⟨text, rfl⟩⟩

/-- Three bytes in two chunks, the end of the stream with the second. -/
def wholeBody : Source UInt8 where
  chunks := [[1, 2], [3]]
  ending := .eof
  together := true
  nonempty := by decide

theorem exactBody_held_whole :
    drain ExactBody.read ⟨wholeBody, 3⟩ [1, 512, 512, 512] = ([1, 2, 3], some .eof) ∧
    ∃ text, (drain ExactBody.read ⟨wholeBody, 2⟩ [1, 512, 512, 512]).2 = some (.error text) := by
  constructor
  · exact (((exactBody_held wholeBody 3 [1, 512, 512, 512]).2.2 (by decide) (by decide)).1).mp
      ⟨by decide, by decide⟩
  · exact (((exactBody_held wholeBody 2 [1, 512, 512, 512]).2.2 (by decide) (by decide)).2)
      (by decide)

/-- A body whose only byte comes together with a read error. -/
def resetBody : Source UInt8 where
  chunks := [[7]]
  ending := .error "connection reset by peer"
  together := true
  nonempty := by decide

/-- All the bytes came, and the body still fails. -/
theorem exactBody_reset :
    resetBody.content.length = 1 ∧
    drain ExactBody.read ⟨resetBody, 1⟩ [512, 512] =
      ([7], some (.error "read opened secret: connection reset by peer")) := by
  decide

end Flickcli
end FlickDrop
