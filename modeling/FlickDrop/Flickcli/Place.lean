import Mathlib.Data.List.TakeWhile
import FlickDrop.Foundations.Disk
import FlickDrop.Foundations.Filepath

/-!
# Placing a file under a name the sender chose

Model of `placeFile` in `internal/flickcli/open.go` and of what it calls.  The staged file is
linked, or copied where there are no hard links, to the first free one of a hundred candidates.
-/

namespace FlickDrop
namespace Flickcli

open Foundations

def safeFilename (name : List Char) : List Char :=
  let cleaned := Filepath.base (name.map fun c => if c = '\\' then '/' else c)
  if cleaned = ['.'] ∨ cleaned = ['.', '.'] ∨ cleaned = ['/'] ∨ cleaned = [] then
    "flick-file".toList
  else
    cleaned

def numberedPath (path : List Char) (n : Nat) : List Char :=
  trimSuffix path (Filepath.ext path) ++ '-' :: n.repr.toList ++ Filepath.ext path

/-- The path of an attempt of `placeFile`. -/
def candidatePath (target : List Char) (attempt : Nat) : List Char :=
  if 0 < attempt then numberedPath target attempt else target

/-- The faults of `copyExclusive`. -/
structure CopyFaults where
  openSrc : Option String
  create : Option String
  write : WriteFault
  sync : Option String
  close : Option String

structure AttemptFaults where
  link : Option String
  copy : CopyFaults

/-- What `placeFile` leaves and returns. -/
structure Placed (Entry : Type) where
  disk : Disk Entry
  path : List Char
  error : Option String

section Definitions

variable {Entry : Type} [DecidableEq Entry]

/-- `copyExclusive`; removing the file it has just created is taken to succeed. -/
def copyExclusive (d : Disk Entry) (src dst : List Char) (faults : CopyFaults) :
    Disk Entry × Option OSError :=
  match faults.openSrc with
  | some text => (d, some (.other text))
  | none =>
    match d.file src with
    | none => (d, some (.other "no such file or directory"))
    | some content =>
      match d.create dst faults.create with
      | .error err => (d, some err)
      | .ok created =>
        match created.append dst content faults.write with
        | (partly, some text) => (partly.remove dst, some (.other text))
        | (copied, none) =>
          match faults.sync with
          | some text => (copied.remove dst, some (.other text))
          | none => (copied, faults.close.map .other)

/-- One attempt of `placeFile`. -/
def tryPlace (d : Disk Entry) (staged candidate : List Char) (faults : AttemptFaults) :
    Disk Entry × Option OSError :=
  match d.link staged candidate faults.link with
  | (_, some (.other _)) => copyExclusive d staged candidate faults.copy
  | linked => linked

/-- The loop of `placeFile`, with the attempts that are left. -/
def placeFrom (target staged : List Char) (faults : Nat → AttemptFaults)
    (removeFault : Option String) : Nat → Nat → Disk Entry → Placed Entry
  | 0, _, d => ⟨d, [], some ("could not find an unused filename near " ++ String.ofList target)⟩
  | left + 1, attempt, d =>
    let candidate := candidatePath target attempt
    match tryPlace d staged candidate (faults attempt) with
    | (d', some .exist) => placeFrom target staged faults removeFault left (attempt + 1) d'
    | (d', some (.other text)) => ⟨d', [], some text⟩
    | (d', none) =>
      match removeFault with
      | some text =>
        ⟨d', candidate, some ("saved " ++ String.ofList candidate ++
          ", but could not remove the staging link " ++ String.ofList staged ++ ": " ++ text)⟩
      | none => ⟨d'.remove staged, candidate, none⟩

def placeFile (d : Disk Entry) (outputDir filename staged : List Char)
    (faults : Nat → AttemptFaults) (removeFault : Option String) : Placed Entry :=
  placeFrom (Filepath.join outputDir (safeFilename filename)) staged faults removeFault 100 0 d

end Definitions

/-! ### Names -/

theorem base_slash_notMem {path : List Char} (h : Filepath.base path ≠ ['/']) :
    '/' ∉ Filepath.base path := by
  rw [Filepath.base] at h ⊢
  split
  · decide
  · rename_i hne
    rw [if_neg hne] at h
    dsimp only at h ⊢
    split
    · rename_i hnone
      rw [if_pos hnone] at h
      exact absurd rfl h
    · intro hmem
      have hkept := List.mem_takeWhile_imp (List.mem_reverse.mp hmem)
      simp at hkept

theorem base_subset {path : List Char} {c : Char} (h : c ∈ Filepath.base path) :
    c ∈ path ∨ c = '.' ∨ c = '/' := by
  rw [Filepath.base] at h
  split at h
  · exact .inr (.inl (List.mem_singleton.mp h))
  · dsimp only at h
    split at h
    · exact .inr (.inr (List.mem_singleton.mp h))
    · have hlast := (List.takeWhile_sublist _).subset (List.mem_reverse.mp h)
      have hstripped := (List.dropWhile_sublist _).subset
        (List.mem_reverse.mp (List.mem_reverse.mp hlast))
      exact .inl (List.mem_reverse.mp hstripped)

/-- The reduced name is one component, and no separator of another system is in it. -/
theorem safeFilename_component (name : List Char) :
    Filepath.IsComponent (safeFilename name) ∧ '\\' ∉ safeFilename name := by
  rw [safeFilename]
  split
  · decide
  · rename_i hname
    simp only [not_or] at hname
    obtain ⟨hdot, hparent, hroot, hempty⟩ := hname
    refine ⟨⟨hempty, base_slash_notMem hroot, hdot, hparent⟩, ?_⟩
    intro hmem
    rcases base_subset hmem with hmem | hmem | hmem
    · obtain ⟨c, -, hc⟩ := List.mem_map.mp hmem
      split at hc
      · cases hc
      rename_i hne
      exact hne hc
    · cases hmem
    · cases hmem

/-- The name of an attempt. -/
def candidateName (name : List Char) (attempt : Nat) : List Char :=
  if 0 < attempt then
    trimSuffix name (Filepath.ext name) ++ '-' :: attempt.repr.toList ++ Filepath.ext name
  else
    name

theorem candidatePath_named (outputDir : List Char) {name : List Char} (h : '/' ∉ name)
    (attempt : Nat) :
    candidatePath (Filepath.front outputDir ++ name) attempt =
      Filepath.front outputDir ++ candidateName name attempt := by
  rw [candidatePath, candidateName]
  split
  · obtain ⟨stem, hstem⟩ := Filepath.exists_stem h
    have hpath : trimSuffix (Filepath.front outputDir ++ name) (Filepath.ext name) =
        Filepath.front outputDir ++ trimSuffix name (Filepath.ext name) := by
      generalize Filepath.ext name = suffix at hstem ⊢
      rw [hstem, ← List.append_assoc, trimSuffix_append, trimSuffix_append]
    rw [numberedPath, Filepath.ext_named outputDir h, hpath]
    simp only [List.append_assoc]
  · rfl

theorem candidateName_component {name : List Char} (h : Filepath.IsComponent name) (attempt : Nat) :
    Filepath.IsComponent (candidateName name attempt) := by
  rw [candidateName]
  split
  · obtain ⟨stem, hstem⟩ := Filepath.exists_stem h.2.1
    generalize Filepath.ext name = suffix at hstem ⊢
    rw [hstem, trimSuffix_append]
    have hdash : '-' ∈ stem ++ '-' :: attempt.repr.toList ++ suffix := by simp
    have hslash : '/' ∉ stem ∧ '/' ∉ suffix := by
      have hname := h.2.1
      rw [hstem, List.mem_append, not_or] at hname
      exact hname
    refine ⟨List.ne_nil_of_mem hdash, ?_, ?_, ?_⟩
    · intro hmem
      simp only [List.mem_append, List.mem_cons, hslash.1, hslash.2, false_or, or_false] at hmem
      rcases hmem with hno | hdigit
      · cases hno
      · exact absurd (isDigit_of_mem_repr hdigit) (by decide)
    · intro hno
      rw [hno] at hdash
      simp at hdash
    · intro hno
      rw [hno] at hdash
      simp at hdash
  · exact h

theorem candidateName_injective {name : List Char} (h : '/' ∉ name) {i j : Nat}
    (hij : candidateName name i = candidateName name j) : i = j := by
  obtain ⟨stem, hstem⟩ := Filepath.exists_stem h
  have hlonger : ∀ n : Nat, trimSuffix name (Filepath.ext name) ++ '-' :: n.repr.toList ++
      Filepath.ext name ≠ name := by
    intro n heq
    have hlength := congrArg List.length heq
    generalize Filepath.ext name = suffix at hstem hlength
    rw [hstem, trimSuffix_append] at hlength
    simp only [List.length_append, List.length_cons] at hlength
    omega
  rw [candidateName, candidateName] at hij
  split at hij
  · split at hij
    · have hdigits := List.append_cancel_left (List.append_cancel_right hij)
      exact repr_toList_inj (List.cons.inj hdigits).2
    · exact absurd hij (hlonger i)
  · split at hij
    · exact absurd hij.symm (hlonger j)
    omega

/-! ### Files -/

section Files

variable {Entry : Type} [DecidableEq Entry] {d : Disk Entry} {staged target : List Char}
  {p : Placed Entry} {limit : Nat}

/-- What an attempt does: the candidate is taken and nothing changes, or a fault stops it and at
most the free candidate changes, or the candidate was free and holds the staged bytes. -/
inductive Attempted (d : Disk Entry) (staged candidate : List Char) :
    Disk Entry × Option OSError → Prop
  | taken : Attempted d staged candidate (d, some .exist)
  | unchanged {text : String} : Attempted d staged candidate (d, some (.other text))
  | unclosed {text : String} {content : Bytes} (hstaged : d.file staged = some content)
      (hfree : d.file candidate = none) :
      Attempted d staged candidate (d.set candidate (some content), some (.other text))
  | placed {content : Bytes} (hstaged : d.file staged = some content)
      (hfree : d.file candidate = none) :
      Attempted d staged candidate (d.set candidate (some content), none)

theorem copyExclusive_attempted (d : Disk Entry) (staged candidate : List Char)
    (faults : CopyFaults) :
    Attempted d staged candidate (copyExclusive d staged candidate faults) := by
  unfold copyExclusive
  split
  · exact .unchanged
  · split
    · exact .unchanged
    · rename_i content hstaged
      cases hcreate : d.create candidate faults.create with
      | error err =>
        cases err with
        | exist => exact .taken
        | other text => exact .unchanged
      | ok created =>
        obtain ⟨hfree, -, rfl⟩ := Disk.create_ok hcreate
        have hback : ∀ content, (d.set candidate content).remove candidate = d := by
          intro content
          rw [Disk.remove, Disk.set_set, ← hfree, Disk.set_self]
        dsimp only
        rw [Disk.append_set, List.nil_append]
        cases faults.write with
        | some fault =>
          dsimp only [Option.map_some]
          rw [hback]
          exact .unchanged
        | none =>
          cases faults.sync with
          | some text =>
            dsimp only [Option.map_none]
            rw [hback]
            exact .unchanged
          | none =>
            cases faults.close with
            | some text => exact .unclosed hstaged hfree
            | none => exact .placed hstaged hfree

theorem tryPlace_attempted (d : Disk Entry) (staged candidate : List Char)
    (faults : AttemptFaults) :
    Attempted d staged candidate (tryPlace d staged candidate faults) := by
  unfold tryPlace Disk.link
  cases faults.link with
  | some text => exact copyExclusive_attempted d staged candidate faults.copy
  | none =>
    cases hstaged : d.file staged with
    | none => exact copyExclusive_attempted d staged candidate faults.copy
    | some content =>
      dsimp only
      split
      · rename_i hlinked
        split at hlinked
        · cases hlinked
        cases hlinked
      · split
        · exact .taken
        · rename_i htaken
          exact .placed hstaged (by simpa using htaken)

/-- What the loop does: it ends at one attempt that finds a free candidate or a fault. -/
inductive PlacedBy (d : Disk Entry) (target staged : List Char) (limit : Nat) : Placed Entry → Prop
  | nothing {text : String} : PlacedBy d target staged limit ⟨d, [], some text⟩
  /-- copied, and the copy could not be closed -/
  | unclosed {text : String} {content : Bytes} {attempt : Nat} (hattempt : attempt < limit)
      (hstaged : d.file staged = some content)
      (hfree : d.file (candidatePath target attempt) = none) :
      PlacedBy d target staged limit
        ⟨d.set (candidatePath target attempt) (some content), [], some text⟩
  /-- placed, with the staging link left behind -/
  | saved {text : String} {content : Bytes} {attempt : Nat} (hattempt : attempt < limit)
      (hstaged : d.file staged = some content)
      (hfree : d.file (candidatePath target attempt) = none) :
      PlacedBy d target staged limit ⟨d.set (candidatePath target attempt) (some content),
        candidatePath target attempt, some text⟩
  | moved {content : Bytes} {attempt : Nat} (hattempt : attempt < limit)
      (hstaged : d.file staged = some content)
      (hfree : d.file (candidatePath target attempt) = none) :
      PlacedBy d target staged limit
        ⟨(d.set (candidatePath target attempt) (some content)).remove staged,
          candidatePath target attempt, none⟩

theorem placeFrom_placedBy (target : List Char) (faults : Nat → AttemptFaults)
    (removeFault : Option String) (left attempt limit : Nat) (hlimit : attempt + left ≤ limit) :
    PlacedBy d target staged limit (placeFrom target staged faults removeFault left attempt d) := by
  induction left generalizing attempt with
  | zero => exact .nothing
  | succ left ih =>
    have htried := tryPlace_attempted d staged (candidatePath target attempt) (faults attempt)
    unfold placeFrom
    dsimp only
    generalize tryPlace d staged (candidatePath target attempt) (faults attempt) = tried at htried ⊢
    cases htried with
    | taken => exact ih (attempt + 1) (by omega)
    | unchanged => exact .nothing
    | unclosed hstaged hfree => exact .unclosed (by omega) hstaged hfree
    | placed hstaged hfree =>
      cases removeFault with
      | some text => exact .saved (by omega) hstaged hfree
      | none => exact .moved (by omega) hstaged hfree

/-- No file but the staged one changes, and only candidates appear. -/
theorem PlacedBy.files (h : PlacedBy d target staged limit p) {entry : Entry}
    (hentry : entry ≠ d.locate staged) :
    (∀ bytes, d.files entry = some bytes → p.disk.files entry = some bytes) ∧
    (p.disk.files entry ≠ d.files entry →
      ∃ attempt, attempt < limit ∧ entry = d.locate (candidatePath target attempt)) := by
  -- the one entry that changes is that of a free candidate
  have hset : ∀ {attempt : Nat} (content : Option Bytes), attempt < limit →
      d.file (candidatePath target attempt) = none →
      (∀ bytes, d.files entry = some bytes →
        (d.set (candidatePath target attempt) content).files entry = some bytes) ∧
      ((d.set (candidatePath target attempt) content).files entry ≠ d.files entry →
        ∃ attempt, attempt < limit ∧ entry = d.locate (candidatePath target attempt)) := by
    intro attempt content hattempt hfree
    refine ⟨fun bytes hbytes => ((Disk.Keeps.refl d).set hfree).files entry bytes hbytes, ?_⟩
    intro hchanged
    refine ⟨attempt, hattempt, ?_⟩
    by_contra hne
    exact hchanged (Disk.set_files_of_ne hne)
  cases h with
  | nothing => exact ⟨fun _ hbytes => hbytes, fun hno => absurd rfl hno⟩
  | unclosed hattempt hstaged hfree => exact hset _ hattempt hfree
  | saved hattempt hstaged hfree => exact hset _ hattempt hfree
  | moved hattempt hstaged hfree =>
    dsimp only [Disk.remove]
    rw [Disk.set_files_of_ne (by simpa using hentry)]
    exact hset _ hattempt hfree

/-- Every file is kept that was there before the staged one was. -/
theorem PlacedBy.keeps {before : Disk Entry} (h : PlacedBy d target staged limit p)
    (hkept : before.Keeps d) (hstaged : before.file staged = none) : before.Keeps p.disk := by
  have hlocate : p.disk.locate = d.locate := by
    cases h with
    | nothing => rfl
    | unclosed hattempt hstaged hfree => rfl
    | saved hattempt hstaged hfree => rfl
    | moved hattempt hstaged hfree => rfl
  refine ⟨hlocate.trans hkept.locate, ?_⟩
  intro entry bytes hfile
  refine (h.files ?_).1 bytes (hkept.files entry bytes hfile)
  intro heq
  rw [heq, hkept.locate, ← Disk.file, hstaged] at hfile
  cases hfile

/-- A returned path was free and holds the staged bytes. -/
theorem PlacedBy.path {target : List Char} {limit : Nat} {p : Placed Entry}
    (h : PlacedBy d target staged limit p) (hpath : p.path ≠ [] ∨ p.error = none) :
    (∃ attempt, attempt < limit ∧ p.path = candidatePath target attempt) ∧
      d.file p.path = none ∧ d.file staged ≠ none ∧ p.disk.file p.path = d.file staged := by
  cases h with
  | nothing => simp at hpath
  | unclosed hattempt hstaged hfree => simp at hpath
  | saved hattempt hstaged hfree =>
    exact ⟨⟨_, hattempt, rfl⟩, hfree, by simp [hstaged], by rw [Disk.set_file, hstaged]⟩
  | moved hattempt hstaged hfree =>
    refine ⟨⟨_, hattempt, rfl⟩, hfree, by simp [hstaged], ?_⟩
    have hne := (Disk.locate_ne hstaged hfree).symm
    dsimp only [Disk.remove]
    rw [Disk.set_file_of_ne (by simpa using hne), Disk.set_file, hstaged]

/-- The staged file stays until it is placed, and is gone afterwards. -/
theorem PlacedBy.staged_file (h : PlacedBy d target staged limit p) :
    p.disk.file staged = if p.error = none then none else d.file staged := by
  cases h with
  | nothing => rfl
  | unclosed hattempt hstaged hfree => exact Disk.set_file_of_ne (Disk.locate_ne hstaged hfree)
  | saved hattempt hstaged hfree => exact Disk.set_file_of_ne (Disk.locate_ne hstaged hfree)
  | moved hattempt hstaged hfree => exact Disk.set_file

end Files

/-- **A sender's file name cannot escape or overwrite.**  Every candidate is a direct child of the
output directory and no two are the same; no file but the staged one changes and nothing appears
but at a candidate; a path that is returned was free before and holds the staged bytes. -/
theorem placeFile_confined {Entry : Type} [DecidableEq Entry] (d : Disk Entry)
    (outputDir filename staged : List Char) (faults : Nat → AttemptFaults)
    (removeFault : Option String) :
    let target := Filepath.join outputDir (safeFilename filename)
    let placed := placeFile d outputDir filename staged faults removeFault
    (Filepath.IsComponent (safeFilename filename) ∧ '\\' ∉ safeFilename filename) ∧
    (∀ attempt, Filepath.dir (candidatePath target attempt) = Filepath.clean outputDir ∧
      Filepath.IsComponent (Filepath.base (candidatePath target attempt))) ∧
    (∀ i j, candidatePath target i = candidatePath target j → i = j) ∧
    (∀ entry, entry ≠ d.locate staged →
      (∀ bytes, d.files entry = some bytes → placed.disk.files entry = some bytes) ∧
      (placed.disk.files entry ≠ d.files entry →
        ∃ attempt, attempt < 100 ∧ entry = d.locate (candidatePath target attempt))) ∧
    placed.disk.file staged = (if placed.error = none then none else d.file staged) ∧
    (placed.path ≠ [] ∨ placed.error = none →
      (∃ attempt, attempt < 100 ∧ placed.path = candidatePath target attempt) ∧
      d.file placed.path = none ∧ d.file staged ≠ none ∧
      placed.disk.file placed.path = d.file staged) := by
  intro target placed
  obtain ⟨hname, hbackslash⟩ := safeFilename_component filename
  have hcandidate : ∀ attempt, candidatePath target attempt =
      Filepath.front outputDir ++ candidateName (safeFilename filename) attempt := by
    intro attempt
    rw [show target = _ from Filepath.join_component outputDir hname,
      candidatePath_named outputDir hname.2.1]
  have hplaced : PlacedBy d target staged 100 placed :=
    placeFrom_placedBy target faults removeFault 100 0 100 (by omega)
  refine ⟨⟨hname, hbackslash⟩, ?_, ?_, fun entry hentry => hplaced.files hentry,
    hplaced.staged_file, hplaced.path⟩
  · intro attempt
    have hcomponent := candidateName_component hname attempt
    rw [hcandidate, Filepath.dir_named outputDir hcomponent.2.1,
      Filepath.base_named outputDir hcomponent.2.1 hcomponent.1]
    exact ⟨rfl, hcomponent⟩
  · intro i j hij
    rw [hcandidate, hcandidate] at hij
    exact candidateName_injective hname.2.1 (List.append_cancel_left hij)

/-- A directory where the sender's name is taken and a staged file waits. -/
def takenDisk : Disk (List Char) where
  locate := id
  files := fun entry =>
    if entry = "out/notes.txt".toList then some [1]
    else if entry = "out/.flick-partial-7".toList then some [2, 3]
    else none

def noFaults : AttemptFaults := ⟨none, ⟨none, none, none, none, none⟩⟩

theorem placeFile_confined_taken :
    (placeFile takenDisk "out".toList "..\\notes.txt".toList "out/.flick-partial-7".toList
      (fun _ => noFaults) none).path = "out/notes-1.txt".toList ∧
    (placeFile takenDisk "out".toList "..\\notes.txt".toList "out/.flick-partial-7".toList
      (fun _ => noFaults) none).disk.file "out/notes-1.txt".toList = some [2, 3] := by
  have hpath : (placeFile takenDisk "out".toList "..\\notes.txt".toList
      "out/.flick-partial-7".toList (fun _ => noFaults) none).path = "out/notes-1.txt".toList := by
    decide +kernel
  have hplaced := (placeFile_confined takenDisk "out".toList "..\\notes.txt".toList
    "out/.flick-partial-7".toList (fun _ => noFaults) none).2.2.2.2.2
    (.inl (by rw [hpath]; decide))
  refine ⟨hpath, ?_⟩
  rw [← hpath, hplaced.2.2.2]
  decide +kernel

end Flickcli
end FlickDrop
