import FlickDrop.Flickcli.Open

/-!
# What an open leaves on the disk

`Open` makes up to three files: the reserved output path, a staged file, and the file the staged
one becomes.  It leaves nothing, a file under the name the sender chose, or something at the
requested path; in the last case what is there need not be the whole secret.  `Spoils` says of the
options, the faults and the answers of the server when it is not.
-/

namespace FlickDrop
namespace Flickcli

open Foundations

variable {Identity KDF Entry : Type}

/-- A requested path that was free holds nothing or the complete plaintext, all of which age
authenticated. -/
def CleanDestination (crypto : Crypto Identity KDF) (server : Server KDF)
    (opts : OpenOptions Identity) (d : Disk Entry) (out : Opened Entry) : Prop :=
  opts.outputPath ≠ [] → d.file opts.outputPath = none →
    out.disk.file opts.outputPath = none ∨
      ∃ kind plain, answered crypto server opts = some (kind, plain) ∧ plain.failure = none ∧
        out.disk.file opts.outputPath = some plain.released

variable [DecidableEq Entry]

section Disk

variable {crypto : Crypto Identity KDF} {server : Server KDF} {opts : OpenOptions Identity}
  {faults : OpenFaults} {d : Disk Entry} {reserved : Disk Entry × Option (List Char)}
  {out : Opened Entry} {result : OpenResult} {staged : List Char} {kind : String}
  {plain : Decryption}

/-- All of a body is written to its staged file and synced. -/
def Staged (faults : OpenFaults) (plain : Decryption) : Prop :=
  plain.failure = none ∧ (plain.released ≠ [] → faults.stageWrite = none) ∧ faults.stageSync = none

/-- The requested path is reserved, the body decrypts, and then the write of the text stops before
its end, or the file, which is not empty, is staged but cannot be closed or renamed. -/
def Spoils (crypto : Crypto Identity KDF) (server : Server KDF) (opts : OpenOptions Identity)
    (faults : OpenFaults) (d : Disk Entry) : Prop :=
  opts.outputPath ≠ [] ∧ d.file opts.outputPath = none ∧ faults.reserve = none ∧
    ∃ kind plain, answered crypto server opts = some (kind, plain) ∧ plain.failure = none ∧
      if kind = "file" then
        plain.released ≠ [] ∧ Staged faults plain ∧
          (∃ created, stage opts faults (d.set opts.outputPath (some [])) (some opts.outputPath) =
            .ok created) ∧
          (faults.stageClose ≠ none ∨ faults.rename ≠ none)
      else
        ∃ count text, faults.textWrite = some (count, text) ∧ count < plain.released.length

/-- What is asked of an open. -/
structure Leaves (crypto : Crypto Identity KDF) (server : Server KDF) (opts : OpenOptions Identity)
    (faults : OpenFaults) (d : Disk Entry) (out : Opened Entry) : Prop where
  /-- no file that was there before is changed or removed -/
  keeps : d.Keeps out.disk
  /-- an open that fails before it opened the secret leaves no trace -/
  unopened : out.consumed = false → out.disk = d
  clean : CleanDestination crypto server opts d out ↔ ¬ Spoils crypto server opts faults d

/-- The disk is as it was. -/
theorem Leaves.nothing (hdisk : out.disk = d) (hno : ¬ Spoils crypto server opts faults d) :
    Leaves crypto server opts faults d out where
  keeps := hdisk ▸ Disk.Keeps.refl d
  unopened := fun _ => hdisk
  clean := iff_of_true (fun _ hfree => .inl (by rw [hdisk, hfree])) hno

/-- A file under the name the sender chose, or its staged copy. -/
theorem Leaves.named (houtput : opts.outputPath = []) (hconsumed : out.consumed = true)
    (hkept : d.Keeps out.disk) : Leaves crypto server opts faults d out where
  keeps := hkept
  unopened := fun hno => by rw [hno] at hconsumed; cases hconsumed
  clean := iff_of_true (fun hno => absurd houtput hno) fun hspoils => hspoils.1 houtput

/-- The requested path holds something: that should be the plaintext. -/
theorem Leaves.held {bytes : Bytes} (houtput : opts.outputPath ≠ [])
    (hfree : d.file opts.outputPath = none) (hconsumed : out.consumed = true)
    (hkept : d.Keeps out.disk) (hanswered : answered crypto server opts = some (kind, plain))
    (hfailure : plain.failure = none) (hheld : out.disk.file opts.outputPath = some bytes)
    (hspoils : Spoils crypto server opts faults d ↔ bytes ≠ plain.released) :
    Leaves crypto server opts faults d out where
  keeps := hkept
  unopened := fun hno => by rw [hno] at hconsumed; cases hconsumed
  clean := by
    rw [hspoils, not_not]
    constructor
    · intro hclean
      rcases hclean houtput hfree with hnone | ⟨kind', plain', hanswered', -, hfile⟩
      · rw [hheld] at hnone
        cases hnone
      · rw [hanswered] at hanswered'
        cases hanswered'
        rw [hheld] at hfile
        exact Option.some.inj hfile
    · intro heq _ _
      exact .inr ⟨kind, plain, hanswered, hfailure, by rw [hheld, heq]⟩

/-- Once the answers are known, the rest of `Spoils` decides. -/
theorem spoils_iff (houtput : opts.outputPath ≠ []) (hfree : d.file opts.outputPath = none)
    (hfault : faults.reserve = none) (hanswered : answered crypto server opts = some (kind, plain))
    (hfailure : plain.failure = none) :
    Spoils crypto server opts faults d ↔
      if kind = "file" then
        plain.released ≠ [] ∧ Staged faults plain ∧
          (∃ created, stage opts faults (d.set opts.outputPath (some [])) (some opts.outputPath) =
            .ok created) ∧
          (faults.stageClose ≠ none ∨ faults.rename ≠ none)
      else
        ∃ count text, faults.textWrite = some (count, text) ∧ count < plain.released.length := by
  constructor
  · rintro ⟨-, -, -, kind', plain', hanswered', -, hrest⟩
    rw [hanswered] at hanswered'
    cases hanswered'
    exact hrest
  · intro hrest
    exact ⟨houtput, hfree, hfault, kind, plain, hanswered, hfailure, hrest⟩

/-- A body that does not decrypt spoils nothing. -/
theorem not_spoils_of_failure (hanswered : answered crypto server opts = some (kind, plain))
    (hfailure : plain.failure ≠ none) : ¬ Spoils crypto server opts faults d := by
  rintro ⟨-, -, -, kind', plain', hanswered', hnone, -⟩
  rw [hanswered] at hanswered'
  cases hanswered'
  exact hfailure hnone

/-- A write is cut off exactly when it stops before the end. -/
theorem written_ne_iff {fault : WriteFault} {bytes : Bytes} :
    fault.written bytes ≠ bytes ↔ ∃ count text, fault = some (count, text) ∧
    count < bytes.length := by
  cases fault with
  | none => simp [WriteFault.written]
  | some fault =>
    obtain ⟨count, text⟩ := fault
    simp [WriteFault.written, List.take_eq_self_iff]

/-- Staging a file: it can be removed without a trace, or it holds the whole plaintext. -/
theorem decryptInto_cases (faults : OpenFaults) (hfree : d.file staged = none)
    (plain : Decryption) :
    (∃ partly err, decryptInto faults (d.set staged (some [])) staged plain = (partly, .error err) ∧
      partly.remove staged = d ∧ ¬ Staged faults plain) ∨
    Staged faults plain ∧ decryptInto faults (d.set staged (some [])) staged plain =
      (d.set staged (some plain.released), .ok ()) := by
  unfold decryptInto Staged
  rw [Disk.append_set, List.nil_append]
  cases hwrite : (if plain.released = [] then none else faults.stageWrite) with
  | some fault =>
    refine .inl ⟨_, _, rfl, set_remove hfree, ?_⟩
    rintro ⟨-, hno, -⟩
    split at hwrite
    · cases hwrite
    rename_i hne
    rw [hno hne] at hwrite
    cases hwrite
  | none =>
    cases hfailure : plain.failure with
    | some text => exact .inl ⟨_, _, rfl, set_remove hfree, fun hno => by cases hno.1⟩
    | none =>
      cases hsync : faults.stageSync with
      | some text => exact .inl ⟨_, _, rfl, set_remove hfree, fun hno => by cases hno.2.2⟩
      | none =>
        refine .inr ⟨⟨rfl, fun hne => ?_, rfl⟩, rfl⟩
        rwa [if_neg hne] at hwrite

theorem openText_leaves (h : Reserved d opts.outputPath faults.reserve reserved)
    {identity : Identity} {body : ExactBody}
    (hanswered : answered crypto server opts = some (result.kind, crypto.decrypt identity body))
    (hkind : result.kind ≠ "file") :
    Leaves crypto server opts faults d
      (openText crypto opts faults reserved.1 reserved.2 identity body result) := by
  unfold openText
  dsimp only
  cases hfailure : (crypto.decrypt identity body).failure with
  | some text =>
    exact .nothing h.discard (not_spoils_of_failure hanswered (by rw [hfailure]; simp))
  | none =>
    cases h with
    | none houtput =>
      rw [if_pos houtput]
      exact .named houtput rfl (Disk.Keeps.refl d)
    | held houtput hfree hfault =>
      have hleaves : ∀ out : Opened Entry, out.consumed = true → out.disk =
          d.set opts.outputPath
            (some (faults.textWrite.written (crypto.decrypt identity body).released)) →
          Leaves crypto server opts faults d out := by
        intro out hconsumed hdisk
        refine .held houtput hfree hconsumed (hdisk ▸ (Disk.Keeps.refl d).set hfree) hanswered
          hfailure (by rw [hdisk, Disk.set_file]) ?_
        rw [spoils_iff houtput hfree hfault hanswered hfailure, if_neg hkind, written_ne_iff]
      rw [if_neg houtput, Option.getD_some, Disk.append_set, List.nil_append]
      cases faults.textWrite.map Prod.snd with
      | some text => exact hleaves _ rfl rfl
      | none =>
        cases faults.textSync with
        | some text => exact hleaves _ rfl rfl
        | none => exact hleaves _ rfl rfl

/-- Placing a staged file. -/
theorem place_leaves (h : Reserved d opts.outputPath faults.reserve reserved)
    (hstage : stage opts faults reserved.1 reserved.2 =
      .ok (reserved.1.set staged (some []), staged))
    (hfree : reserved.1.file staged = none)
    (hanswered : answered crypto server opts = some ("file", plain))
    (hstaged : Staged faults plain) {filename : List Char} (hdisk : out.disk =
      (place opts faults
        (reserved.1.set staged (some plain.released)) reserved.2 filename staged).disk)
    (hconsumed : out.consumed = true) : Leaves crypto server opts faults d out := by
  unfold place at hdisk
  cases h with
  | none houtput =>
    refine .named houtput hconsumed ?_
    have hkept : d.Keeps (d.set staged (some plain.released)) := (Disk.Keeps.refl d).set hfree
    dsimp only at hdisk
    split at hdisk
    · rw [hdisk]
      exact hkept
    · rw [hdisk]
      exact (placeFrom_placedBy _ _ _ 100 0 100 (by omega)).keeps hkept hfree
  | held houtput hout hfault =>
    dsimp only at hdisk hfree hstage
    have hspoils := spoils_iff houtput hout hfault hanswered hstaged.1
    rw [if_pos rfl] at hspoils
    have hreserved : d.Keeps (d.set opts.outputPath (some [])) := (Disk.Keeps.refl d).set hout
    -- the empty file of the path stays if the staged one cannot be moved
    have hstuck : out.disk = (d.set opts.outputPath (some [])).set staged (some plain.released) →
        (faults.stageClose ≠ none ∨ faults.rename ≠ none) →
        Leaves crypto server opts faults d out := by
      intro hdisk hstuck
      have hempty : (d.set opts.outputPath (some [])).file opts.outputPath = some [] :=
        Disk.set_file
      refine .held houtput hout hconsumed
        (hdisk ▸ hreserved.trans ((Disk.Keeps.refl _).set hfree)) hanswered hstaged.1
        (by rw [hdisk, Disk.set_file_of_ne (Disk.locate_ne hempty hfree), hempty]) ?_
      rw [hspoils]
      exact ⟨fun hrest => hrest.1.symm, fun hne => ⟨hne.symm, hstaged, ⟨_, hstage⟩, hstuck⟩⟩
    split at hdisk
    · rename_i text hclose
      exact hstuck hdisk (.inl (by rw [hclose]; simp))
    · rename_i hclose
      cases hrename : faults.rename with
      | some text =>
        rw [hrename] at hdisk
        exact hstuck hdisk (.inr (by rw [hrename]; simp))
      | none =>
        rw [hrename, Disk.rename, Disk.set_file] at hdisk
        dsimp only at hdisk
        rw [set_remove hfree, Disk.set_set] at hdisk
        refine .held houtput hout hconsumed (hdisk ▸ (Disk.Keeps.refl d).set hout) hanswered
          hstaged.1 (by rw [hdisk, Disk.set_file]) ?_
        rw [hspoils]
        simp [hclose, hrename]

theorem storeFile_leaves (h : Reserved d opts.outputPath faults.reserve reserved)
    {identity : Identity} {body : ExactBody}
    (hanswered : answered crypto server opts = some ("file", crypto.decrypt identity body)) :
    Leaves crypto server opts faults d
      (storeFile crypto opts faults reserved.1 reserved.2 identity body result) := by
  have hdiscard := h.discard
  -- a file that is not staged leaves nothing behind
  have hunstaged : (∀ created, stage opts faults reserved.1 reserved.2 = .ok created →
      ¬ Staged faults (crypto.decrypt identity body)) → ¬ Spoils crypto server opts faults d := by
    intro hno
    cases h with
    | none houtput => exact fun hspoils => hspoils.1 houtput
    | held houtput hfree hfault =>
      rintro ⟨-, -, -, kind, plain, hplain, -, hrest⟩
      rw [hanswered] at hplain
      cases hplain
      rw [if_pos rfl] at hrest
      obtain ⟨-, hstaged, ⟨created, hstage⟩, -⟩ := hrest
      exact hno created hstage hstaged
  unfold storeFile
  split
  · rename_i text hstage
    exact .nothing hdiscard (hunstaged fun created hok => by rw [hstage] at hok; cases hok)
  · rename_i created staged hstage
    obtain ⟨hfree, rfl⟩ := Disk.createTemp_ok hstage
    rcases decryptInto_cases faults hfree (crypto.decrypt identity body) with
      ⟨partly, err, hfailed, hback, hno⟩ | ⟨hstaged, hwritten⟩
    · rw [hfailed]
      refine .nothing ?_ (hunstaged fun _ _ => hno)
      dsimp only
      rw [hback]
      exact hdiscard
    · rw [hwritten]
      dsimp only
      split
      · exact place_leaves h hstage hfree hanswered hstaged rfl rfl
      · split
        · exact place_leaves h hstage hfree hanswered hstaged rfl rfl
        · exact place_leaves h hstage hfree hanswered hstaged rfl rfl

theorem openLink_leaves (crypto : Crypto Identity KDF) (server : Server KDF)
    (opts : OpenOptions Identity) (faults : OpenFaults) (d : Disk Entry) :
    Leaves crypto server opts faults d (openLink crypto server opts faults d) := by
  have hruns := openLink_runs crypto server opts faults d
  generalize openLink crypto server opts faults d = out at hruns ⊢
  cases hruns with
  | failed hfailed =>
    refine .nothing rfl ?_
    rintro ⟨houtput, hfree, hfault, kind, plain, hanswered, -⟩
    rw [hfailed houtput hfree hfault] at hanswered
    cases hanswered
  | text hmetadata hsize hreserved hanswered hopen hkind =>
    exact openText_leaves hreserved hanswered hkind
  | file hreserved hanswered hkind =>
    rw [hkind] at hanswered
    exact storeFile_leaves hreserved hanswered

end Disk

/-- **An open keeps the file system clean** exactly when no fault keeps an authenticated plaintext
from the requested path.  No open changes or removes a file that was there, and one that fails
before the secret is opened leaves nothing. -/
theorem openLink_clean_iff (crypto : Crypto Identity KDF) (server : Server KDF)
    (opts : OpenOptions Identity) (faults : OpenFaults) (d : Disk Entry) :
    (d.Keeps (openLink crypto server opts faults d).disk ∧
      ((openLink crypto server opts faults d).consumed = false →
        (openLink crypto server opts faults d).disk = d) ∧
      CleanDestination crypto server opts d (openLink crypto server opts faults d)) ↔
    ¬ Spoils crypto server opts faults d := by
  have hleaves := openLink_leaves crypto server opts faults d
  rw [← hleaves.clean]
  constructor
  · rintro ⟨-, -, hclean⟩
    exact hclean
  · intro hclean
    exact ⟨hleaves.keeps, hleaves.unopened, hclean⟩

/-! ### Two opens that leave something -/

/-- The disk fills up after the first byte of a text. -/
def fullDiskFaults : OpenFaults :=
  { sampleFaults with textWrite := some (1, "no space left on device") }

/-- The rename of a file fails. -/
def renameFaults : OpenFaults := { sampleFaults with rename := some "input/output error" }

/-- A text is left cut off, and a file is left empty, where the user asked for the secret. -/
theorem openLink_leaves_partial :
    (openLink sampleCrypto (sampleServer "text" "text" 3 100 wholeBody) sampleOptions fullDiskFaults
      emptyDisk).disk.file "out".toList = some [1] ∧
    (openLink sampleCrypto (sampleServer "file" "file" 3 100 wholeBody) sampleOptions renameFaults
      emptyDisk).disk.file "out".toList = some [] ∧
    ¬ CleanDestination sampleCrypto
      (sampleServer "text" "text" 3 100 wholeBody) sampleOptions emptyDisk
      (openLink sampleCrypto
        (sampleServer "text" "text" 3 100 wholeBody) sampleOptions fullDiskFaults emptyDisk) ∧
    ¬ CleanDestination sampleCrypto
      (sampleServer "file" "file" 3 100 wholeBody) sampleOptions emptyDisk
      (openLink sampleCrypto (sampleServer "file" "file" 3 100 wholeBody) sampleOptions renameFaults
        emptyDisk) := by
  have htext := openLink_leaves sampleCrypto (sampleServer "text" "text" 3 100 wholeBody)
    sampleOptions fullDiskFaults emptyDisk
  have hfile := openLink_leaves sampleCrypto (sampleServer "file" "file" 3 100 wholeBody)
    sampleOptions renameFaults emptyDisk
  refine ⟨by decide +kernel, by decide +kernel, fun hclean => htext.clean.mp hclean ?_,
    fun hclean => hfile.clean.mp hclean ?_⟩
  · exact ⟨by decide, rfl, rfl, "text", ⟨[1, 2], none⟩, rfl, rfl, 1, _, rfl, by decide⟩
  · exact ⟨by decide, rfl, rfl, "file", ⟨[1, 2], none⟩, rfl, rfl, by decide,
      ⟨rfl, fun _ => rfl, rfl⟩, ⟨_, rfl⟩, .inr (by decide)⟩

end Flickcli
end FlickDrop
