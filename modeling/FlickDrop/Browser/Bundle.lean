import FlickDrop.Foundations.Base64
import FlickDrop.Foundations.FirstFree
import FlickDrop.Foundations.Text

/-!
# Bundling several files into one

Model of `web/src/lib/files/bundle.ts`.  The zip library is a parameter: it sees the
sequence of calls made on the archive, and what its callback got so far is a function of
that sequence.  Names are texts of whole characters, as `File` has them.

The search loop of `uniqueName` counts with a number, which is exact below 2 ^ 53; the
rounds it needs are bounded by the number of names in the set.
-/

namespace FlickDrop
namespace Browser

open Foundations

/-- A dropped file: what its stream delivers, and the error that ends it, if one does. -/
structure File where
  name : String
  chunks : List Bytes
  readError : Option String
  deriving DecidableEq, Repr

/-- A call on the archive. -/
inductive ZipCall where
  | add (name : String)
  | push (chunk : Bytes) (final : Bool)
  | finish
  deriving DecidableEq, Repr

/-- What the callback of the archive got after these calls: its error, its output, and
whether that is complete. -/
structure Zip where
  failure : List ZipCall → Option String
  parts : List ZipCall → List Bytes
  finished : List ZipCall → Bool

def bundleFilename : String := "bundle.zip"

/-! ### Names -/

/-- The name up to its last dot and the rest; a leading dot starts no extension. -/
def splitName (name : String) : String × String :=
  match cutLast '.' name.toList with
  | some (first :: front, back) => (String.ofList (first :: front), String.ofList ('.' :: back))
  | some ([], _) | none => (name, "")

/-- The numbered name. -/
def candidate (stem ext : String) (index : Nat) : String :=
  stem ++ " (" ++ index.repr ++ ")" ++ ext

/-- `uniqueName`, with the set it leaves; `none` if the loop is not done after `fuel` rounds. -/
def uniqueName (fuel : Nat) (name : String) (used : Finset String) :
    Option (String × Finset String) :=
  if name ∉ used then
    some (name, insert name used)
  else
    match firstFree (candidate (splitName name).1 (splitName name).2) used fuel 1 with
    | none => none
    | some index =>
      let found := candidate (splitName name).1 (splitName name).2 index
      some (found, insert found used)

/-- The name `bundleFiles` asks for. -/
def File.wanted (file : File) : String := if file.name = "" then "file" else file.name

/-- The names of the entries, in order. -/
def entryNames (fuel : Nat) : List String → Finset String → Option (List String)
  | [], _ => some []
  | name :: rest, used =>
    match uniqueName fuel name used with
    | none => none
    | some (entry, used) => (entryNames fuel rest used).map (entry :: ·)

/-! ### The archive -/

/-- The calls for one entry. -/
def File.entryCalls (file : File) (name : String) : List ZipCall :=
  .add name :: (file.chunks.map fun chunk => .push chunk false) ++ [.push [] true]

/-- The loop of `bundleFiles`: the calls made, or the error it throws. -/
def bundleLoop (zip : Zip) (fuel : Nat) :
    List File → Finset String → List ZipCall → Option (Except String (List ZipCall))
  | [], _, calls => some (.ok calls)
  | file :: rest, used, calls =>
    match uniqueName fuel file.wanted used with
    | none => none
    | some (name, used) =>
      match file.readError with
      | some err => some (.error err)
      | none =>
        match zip.failure (calls ++ file.entryCalls name) with
        | some err => some (.error err)
        | none => bundleLoop zip fuel rest used (calls ++ file.entryCalls name)

/-- `bundleFiles`; `none` if a search loop is not done after `fuel` rounds. -/
def bundleFiles (zip : Zip) (fuel : Nat) (files : List File) : Option (Except String File) :=
  match files with
  | [] => some (.error "at least one file is required")
  | [file] => some (.ok file)
  | files =>
    match bundleLoop zip fuel files ∅ [] with
    | none => none
    | some (.error err) => some (.error err)
    | some (.ok calls) =>
      match zip.failure (calls ++ [.finish]) with
      | some err => some (.error err)
      | none =>
        if zip.finished (calls ++ [.finish]) then
          some (.ok ⟨bundleFilename, zip.parts (calls ++ [.finish]), none⟩)
        else
          some (.error "zip did not finish")

/-! ### `uniqueName` -/

variable {files : List File} {fuel : Nat} {zip : Zip} {entries : List String} {used : Finset String}

theorem candidate_injective (stem ext : String) : Function.Injective (candidate stem ext) := by
  intro i j hij
  have hchars := congrArg String.toList hij
  simp only [candidate, String.toList_append] at hchars
  -- the index stands between two texts that do not depend on it
  have hindex := List.append_cancel_left
    (List.append_cancel_right (List.append_cancel_right hchars))
  exact repr_toList_inj hindex

section

variable {fuel fuel' : Nat} {name entry : String} {used used' : Finset String}

/-- The entry is new, and it is the wanted name if that one is free. -/
theorem uniqueName_some (h : uniqueName fuel name used = some (entry, used')) :
    entry ∉ used ∧ used' = insert entry used ∧ (name ∉ used → entry = name) := by
  unfold uniqueName at h
  split at h
  · rename_i hfree
    cases h
    exact ⟨hfree, rfl, fun _ => rfl⟩
  · rename_i htaken
    split at h
    · cases h
    rename_i index hindex
    cases h
    exact ⟨firstFree_some hindex, rfl, fun hfree => absurd hfree htaken⟩

/-- **The search ends**, for every set of used names. -/
theorem uniqueName_isSome (name : String) (hfuel : used.card < fuel) :
    ∃ entry used', uniqueName fuel name used = some (entry, used') := by
  unfold uniqueName
  split
  · exact ⟨_, _, rfl⟩
  · obtain ⟨index, hindex⟩ := firstFree_isSome 1
      (candidate_injective (splitName name).1 (splitName name).2) hfuel
    rw [hindex]
    exact ⟨_, _, rfl⟩

theorem uniqueName_mono (h : uniqueName fuel name used = some (entry, used'))
    (hfuel : fuel ≤ fuel') : uniqueName fuel' name used = some (entry, used') := by
  unfold uniqueName at h ⊢
  split at h
  · rename_i hfree
    rw [if_pos hfree]
    exact h
  · rename_i htaken
    rw [if_neg htaken]
    split at h
    · cases h
    rename_i index hindex
    rw [firstFree_mono hindex hfuel]
    exact h

/-! ### The names of a bundle -/

/-- Entry names that go with the wanted names: one for each, all different and outside
`used`; a wanted name that is not assigned yet is kept. -/
structure Assigned (used : Finset String) (wanted entries : List String) : Prop where
  length : entries.length = wanted.length
  distinct : entries.Nodup
  fresh : ∀ entry ∈ entries, entry ∉ used
  kept : ∀ i name, wanted[i]? = some name → name ∉ used → name ∉ entries.take i →
    entries[i]? = some name

theorem Assigned.cons {wanted : List String} (h : Assigned (insert entry used) wanted entries)
    (hnew : entry ∉ used) (hkept : name ∉ used → entry = name) :
    Assigned used (name :: wanted) (entry :: entries) where
  length := by rw [List.length_cons, List.length_cons, h.length]
  distinct := by
    refine List.nodup_cons.mpr ⟨?_, h.distinct⟩
    exact fun hmem => h.fresh entry hmem (Finset.mem_insert_self _ _)
  fresh := by
    intro other hother
    rcases List.mem_cons.mp hother with rfl | hlater
    · exact hnew
    · exact fun hused => h.fresh other hlater (Finset.mem_insert_of_mem hused)
  kept := by
    intro i other hother hunused hunassigned
    cases i with
    | zero =>
      obtain rfl := Option.some.inj hother
      rw [hkept hunused]
      rfl
    | succ i =>
      rw [List.take_succ_cons, List.mem_cons, not_or] at hunassigned
      refine h.kept i other hother ?_ hunassigned.2
      rw [Finset.mem_insert, not_or]
      exact ⟨hunassigned.1, hunused⟩

/-- **Run lemma** for the loop over the files. -/
theorem entryNames_assigned (wanted : List String) (used : Finset String) :
    ∃ entries, Assigned used wanted entries ∧
      ∀ fuel, used.card + wanted.length ≤ fuel → entryNames fuel wanted used = some entries := by
  induction wanted generalizing used with
  | nil => exact ⟨[], ⟨rfl, List.nodup_nil, by simp, by simp⟩, fun _ _ => rfl⟩
  | cons name rest ih =>
    obtain ⟨entry, used', hentry⟩ := uniqueName_isSome name (Nat.lt_succ_self used.card)
    obtain ⟨hnew, rfl, hkept⟩ := uniqueName_some hentry
    obtain ⟨entries, hassigned, hrest⟩ := ih (insert entry used)
    refine ⟨entry :: entries, hassigned.cons hnew hkept, ?_⟩
    intro fuel hfuel
    rw [List.length_cons] at hfuel
    -- one more name is used and one file fewer is left, so the fuel lasts
    have hcard : (insert entry used).card + rest.length ≤ fuel := by
      rw [Finset.card_insert_of_notMem hnew]
      omega
    unfold entryNames
    rw [uniqueName_mono hentry (by omega)]
    dsimp only
    rw [hrest fuel hcard]
    rfl

end

/-! ### Bundles -/

/-- The calls for a list of files under the entry names. -/
def callsOf (files : List File) (entries : List String) : List ZipCall :=
  (List.zipWith File.entryCalls files entries).flatten

/-- A loop that ends without an error has added every file under its entry name. -/
theorem bundleLoop_ok {calls calls' : List ZipCall}
    (h : bundleLoop zip fuel files used calls = some (.ok calls')) :
    ∃ entries, entryNames fuel (files.map File.wanted) used = some entries ∧
      calls' = calls ++ callsOf files entries := by
  induction files generalizing used calls with
  | nil =>
    cases h
    exact ⟨[], rfl, by simp [callsOf]⟩
  | cons file rest ih =>
    unfold bundleLoop at h
    split at h
    · cases h
    rename_i name used' hname
    split at h
    · cases h
    split at h
    · cases h
    obtain ⟨entries, hentries, rfl⟩ := ih h
    refine ⟨name :: entries, ?_, ?_⟩
    · rw [List.map_cons]
      unfold entryNames
      rw [hname]
      simp [hentries]
    · simp [callsOf]

/-- A loop whose names are found ends. -/
theorem bundleLoop_isSome (zip : Zip) (calls : List ZipCall)
    (h : entryNames fuel (files.map File.wanted) used = some entries) :
    (bundleLoop zip fuel files used calls).isSome := by
  induction files generalizing used calls entries with
  | nil => rfl
  | cons file rest ih =>
    rw [List.map_cons] at h
    unfold entryNames at h
    unfold bundleLoop
    split at h
    · cases h
    obtain ⟨later, hlater, -⟩ := Option.map_eq_some_iff.mp h
    split
    · rfl
    · split
      · rfl
      · exact ih _ hlater

/-- A bundle of two files or more has an entry for each of them, with all its chunks. -/
theorem bundleFiles_ok {bundle : File} (hmany : 2 ≤ files.length)
    (h : bundleFiles zip fuel files = some (.ok bundle)) :
    ∃ entries, entryNames fuel (files.map File.wanted) ∅ = some entries ∧
      bundle = ⟨bundleFilename, zip.parts (callsOf files entries ++ [.finish]), none⟩ := by
  unfold bundleFiles at h
  split at h
  · cases hmany
  · exact absurd hmany (by simp)
  · split at h
    · cases h
    · cases h
    · rename_i calls hloop
      obtain ⟨entries, hentries, hcalls⟩ := bundleLoop_ok hloop
      rw [List.nil_append] at hcalls
      subst hcalls
      refine ⟨entries, hentries, ?_⟩
      split at h
      · cases h
      split at h
      · cases h
        rfl
      · cases h

theorem bundleFiles_isSome (h : entryNames fuel (files.map File.wanted) ∅ = some entries) :
    (bundleFiles zip fuel files).isSome := by
  unfold bundleFiles
  split
  · rfl
  · rfl
  · obtain ⟨looped, hlooped⟩ := Option.isSome_iff_exists.mp (bundleLoop_isSome zip [] h)
    rw [hlooped]
    cases looped with
    | error err => rfl
    | ok calls =>
      dsimp only
      split
      · rfl
      · split <;> rfl

/-- **Bundling drops no file.**  Whatever the names of the files are, the entry names are
one for each file and all different, a name that is not assigned to an earlier entry is
kept, and `bundleFiles` returns; the archive it makes of two files or more has every file
under its entry name, with all its chunks.  The search ends for every set of used names,
after at most one round more than there are names in it. -/
theorem bundling_drops_no_file :
    (∀ files : List File, ∃ entries, Assigned ∅ (files.map File.wanted) entries ∧
      ∀ fuel, files.length ≤ fuel →
        entryNames fuel (files.map File.wanted) ∅ = some entries ∧
        ∀ zip, (bundleFiles zip fuel files).isSome ∧
          ∀ bundle, 2 ≤ files.length → bundleFiles zip fuel files = some (.ok bundle) →
            bundle = ⟨bundleFilename, zip.parts (callsOf files entries ++ [.finish]), none⟩) ∧
    ∀ (name : String) (used : Finset String), ∃ entry used',
      ∀ fuel, used.card < fuel → uniqueName fuel name used = some (entry, used') := by
  refine ⟨?_, ?_⟩
  · intro files
    obtain ⟨entries, hassigned, hentries⟩ := entryNames_assigned (files.map File.wanted) ∅
    rw [Finset.card_empty, Nat.zero_add, List.length_map] at hentries
    refine ⟨entries, hassigned, fun fuel hfuel => ⟨hentries fuel hfuel, fun zip => ?_⟩⟩
    refine ⟨bundleFiles_isSome (hentries fuel hfuel), fun bundle hmany hbundle => ?_⟩
    obtain ⟨entries', hentries', hparts⟩ := bundleFiles_ok hmany hbundle
    obtain rfl : entries = entries' := Option.some.inj ((hentries fuel hfuel).symm.trans hentries')
    exact hparts
  · intro name used
    obtain ⟨entry, used', hentry⟩ := uniqueName_isSome name (Nat.lt_succ_self used.card)
    exact ⟨entry, used', fun fuel hfuel => uniqueName_mono hentry hfuel⟩

/-- Two files of one name, one that looks numbered already, and one without a name. -/
def sampleFiles : List File :=
  ["a.txt", "a.txt", "a (1).txt", ""].map fun name => ⟨name, [[1]], none⟩

theorem bundling_drops_no_file_numbered :
    entryNames 4 (sampleFiles.map File.wanted) ∅ =
      some ["a.txt", "a (1).txt", "a (1) (1).txt", "file"] ∧
    Assigned ∅ (sampleFiles.map File.wanted) ["a.txt", "a (1).txt", "a (1) (1).txt", "file"] := by
  have hnames : entryNames 4 (sampleFiles.map File.wanted) ∅ =
      some ["a.txt", "a (1).txt", "a (1) (1).txt", "file"] := by
    decide +kernel
  obtain ⟨entries, hassigned, hentries⟩ := bundling_drops_no_file.1 sampleFiles
  obtain rfl := Option.some.inj ((hentries 4 (by decide)).1.symm.trans hnames)
  exact ⟨hnames, hassigned⟩

end Browser
end FlickDrop
