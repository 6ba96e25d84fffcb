import Mathlib.Logic.Function.Basic
import FlickDrop.Foundations.Base64

/-!
# Files and their failures

The directory entries of a file system and the calls of Go's `os` package on them.  A path names
an entry; several paths may name the same one.  Every call takes the fault that befalls it, if
any, and a call that fails otherwise does so because the entry exists or is missing.
-/

namespace FlickDrop
namespace Foundations

/-- An error of the `os` package: `os.ErrExist` or any other. -/
inductive OSError where
  | exist
  | other (text : String)
deriving DecidableEq, Repr

/-- The files of a disk, by directory entry, and the entry that each path names. -/
structure Disk (Entry : Type) where
  locate : List Char → Entry
  files : Entry → Option Bytes

/-- A write that fails: how many bytes were written, and the error. -/
abbrev WriteFault := Option (Nat × String)

/-- The bytes that reach the file. -/
def WriteFault.written (fault : WriteFault) (bytes : Bytes) : Bytes :=
  match fault with
  | some (count, _) => bytes.take count
  | none => bytes

namespace Disk

/-- Every file of `d` is in `d'`, unchanged. -/
structure Keeps {Entry : Type} (d d' : Disk Entry) : Prop where
  locate : d'.locate = d.locate
  files : ∀ entry bytes, d.files entry = some bytes → d'.files entry = some bytes

theorem Keeps.refl {Entry : Type} (d : Disk Entry) : d.Keeps d := ⟨rfl, fun _ _ h => h⟩

theorem Keeps.trans {Entry : Type} {d d' d'' : Disk Entry} (h : d.Keeps d') (h' : d'.Keeps d'') :
    d.Keeps d'' :=
  ⟨h'.locate.trans h.locate,
    fun entry bytes hfile => h'.files entry bytes (h.files entry bytes hfile)⟩

/-- The contents of the file that a path names. -/
def file {Entry : Type} (d : Disk Entry) (path : List Char) : Option Bytes :=
  d.files (d.locate path)

theorem locate_ne {Entry : Type} {d : Disk Entry} {path free : List Char} {bytes : Bytes}
    (hpath : d.file path = some bytes) (hfree : d.file free = none) :
    d.locate path ≠ d.locate free := by
  intro heq
  rw [file, heq, ← file, hfree] at hpath
  cases hpath

variable {Entry : Type} [DecidableEq Entry]

def set (d : Disk Entry) (path : List Char) (content : Option Bytes) : Disk Entry :=
  { d with files := Function.update d.files (d.locate path) content }

/-- `os.OpenFile` with `O_CREATE|O_EXCL`. -/
def create (d : Disk Entry) (path : List Char) (fault : Option String) :
    Except OSError (Disk Entry) :=
  match fault with
  | some text => .error (.other text)
  | none => if (d.file path).isSome then .error .exist else .ok (d.set path (some []))

/-- `os.CreateTemp` in a directory, with the random part of the name. -/
def createTemp (d : Disk Entry) (dir pattern : List Char) (random : Except String (List Char)) :
    Except String (Disk Entry × List Char) :=
  match random with
  | .error text => .error text
  | .ok random =>
    let path := (if dir.getLast? = some '/' then dir else dir ++ ['/']) ++ pattern ++ random
    match d.create path none with
    | .error _ => .error "file exists"
    | .ok created => .ok (created, path)

/-- `File.Write` at the end of the file. -/
def append (d : Disk Entry) (path : List Char) (bytes : Bytes) (fault : WriteFault) :
    Disk Entry × Option String :=
  (d.set path (some ((d.file path).getD [] ++ fault.written bytes)), fault.map Prod.snd)

/-- `os.Remove` of a file. -/
def remove (d : Disk Entry) (path : List Char) : Disk Entry := d.set path none

/-- `os.Rename`, which replaces an existing file. -/
def rename (d : Disk Entry) (src dst : List Char) (fault : Option String) :
    Disk Entry × Option OSError :=
  match fault with
  | some text => (d, some (.other text))
  | none =>
    match d.file src with
    | none => (d, some (.other "no such file or directory"))
    | some content => ((d.remove src).set dst (some content), none)

/-- `os.Link`. -/
def link (d : Disk Entry) (src dst : List Char) (fault : Option String) :
    Disk Entry × Option OSError :=
  match fault with
  | some text => (d, some (.other text))
  | none =>
    match d.file src with
    | none => (d, some (.other "no such file or directory"))
    | some content =>
      if (d.file dst).isSome then (d, some .exist) else (d.set dst (some content), none)

/-! ### What a call leaves alone -/

section Frame

variable {d d' : Disk Entry} {path : List Char} {content : Option Bytes}

@[simp] theorem set_locate : (d.set path content).locate = d.locate := rfl

@[simp] theorem set_file : (d.set path content).file path = content := by
  simp [file, set]

theorem set_files_of_ne {entry : Entry} (h : entry ≠ d.locate path) :
    (d.set path content).files entry = d.files entry := by
  simp [set, h]

theorem set_file_of_ne {other : List Char} (h : d.locate other ≠ d.locate path) :
    (d.set path content).file other = d.file other :=
  set_files_of_ne h

/-- A change to an entry that was free keeps every file. -/
theorem Keeps.set (h : d.Keeps d') (hfree : d.file path = none) :
    d.Keeps (d'.set path content) := by
  refine ⟨h.locate, ?_⟩
  intro entry bytes hfile
  have hne : entry ≠ d'.locate path := by
    intro heq
    rw [heq, h.locate, ← file, hfree] at hfile
    cases hfile
  rw [set_files_of_ne hne]
  exact h.files entry bytes hfile

theorem create_ok {fault : Option String} (h : d.create path fault = .ok d') :
    d.file path = none ∧ fault = none ∧ d' = d.set path (some []) := by
  unfold create at h
  split at h
  · cases h
  split at h
  · cases h
  rename_i hfree
  exact ⟨by simpa using hfree, rfl, (Except.ok.inj h).symm⟩

theorem createTemp_ok {dir pattern : List Char} {random : Except String (List Char)}
    (h : d.createTemp dir pattern random = .ok (d', path)) :
    d.file path = none ∧ d' = d.set path (some []) := by
  unfold createTemp at h
  split at h
  · cases h
  dsimp only at h
  split at h
  · cases h
  rename_i created hcreate
  simp only [Except.ok.injEq, Prod.mk.injEq] at h
  obtain ⟨rfl, rfl⟩ := h
  obtain ⟨hfree, -, hset⟩ := create_ok hcreate
  exact ⟨hfree, hset⟩

theorem set_set {other : Option Bytes} :
    (d.set path other).set path content = d.set path content := by
  simp [set]

theorem append_set {old bytes : Bytes} {fault : WriteFault} :
    (d.set path (some old)).append path bytes fault =
      (d.set path (some (old ++ fault.written bytes)), fault.map Prod.snd) := by
  simp only [append, set_file, Option.getD_some, set_set]

/-- An entry that is put back as it was. -/
theorem set_self : d.set path (d.file path) = d := by
  simp [set, file]

end Frame

end Disk
end Foundations
end FlickDrop
