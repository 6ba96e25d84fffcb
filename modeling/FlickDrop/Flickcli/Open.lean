import FlickDrop.Foundations.Int64
import FlickDrop.Flickcli.Body
import FlickDrop.Flickcli.Place
import FlickDrop.Secrets.Headers

/-!
# Opening a link

Model of `Open` in `internal/flickcli/open.go`, from the metadata probe to the file on disk.  What
the server answers, what age makes of a body and which local call fails are arguments.
-/

namespace FlickDrop
namespace Flickcli

open Foundations
open Secrets (OpenHeaders OpenedSecret openedSecret filenameFile)

/-! ### What the server answers -/

/-- `SecretMetadata`; `access` holds the KDF block of a passphrase secret. -/
structure SecretMetadata (KDF : Type) where
  kind : String
  access : Option KDF
  sizeBytes : Int

structure Limits where
  payloadInlineMaxBytes : Int
  maxFileBytes : Int
deriving DecidableEq

def defaultLimits : Limits := ⟨1044208, 268435456⟩

structure Server (KDF : Type) where
  metadata : String → Except String (SecretMetadata KDF)
  config : Except String Limits
  /-- the answer to the consuming open of an id with an access proof -/
  answer : String → String → Except String (OpenHeaders × Source UInt8)

/-- `Client.Config`. -/
def Server.limits {KDF : Type} (server : Server KDF) : Limits :=
  match server.config with
  | .error _ => defaultLimits
  | .ok fetched =>
    { payloadInlineMaxBytes :=
        if 0 < fetched.payloadInlineMaxBytes then fetched.payloadInlineMaxBytes
        else defaultLimits.payloadInlineMaxBytes
      maxFileBytes :=
        if 0 < fetched.maxFileBytes then fetched.maxFileBytes else defaultLimits.maxFileBytes }

/-- `Client.OpenSecret`. -/
def Server.openSecret {KDF : Type} (server : Server KDF) (id accessProof : String)
    (sizeBytes : Int) : Except String (OpenedSecret × ExactBody) :=
  if sizeBytes ≤ 0 then
    .error ("secret metadata reports an impossible size " ++ toString sizeBytes)
  else
    match server.answer id accessProof with
    | .error text => .error text
    | .ok (headers, body) =>
      match openedSecret headers with
      | .error text => .error text
      | .ok opened => .ok (opened, ⟨body, sizeBytes.toNat⟩)

/-! ### What age makes of it -/

/-- The plaintext that decrypting a body releases, and why it stopped before the last chunk was
authenticated, if it did. -/
structure Decryption where
  released : Bytes
  failure : Option String

structure Crypto (Identity KDF : Type) where
  deriveAccessProof : String → KDF → Except String String
  unwrapIdentity : Bytes → String → Except String Identity
  decrypt : Identity → ExactBody → Decryption
  /-- `unseal`, of a file that is held in memory -/
  unsealFile : Identity → Bytes → Except String Bytes

/-- `OpenOptions`; `passphrase` is what calling `Passphrase` gives. -/
structure OpenOptions (Identity : Type) where
  linkID : String
  linkIdentity : Option Identity
  passphrase : Option (Except String String)
  outputPath : List Char
  outputDir : List Char

structure OpenResult where
  kind : String
  plaintext : Bytes
  filename : List Char
  contentType : String
  writtenPath : List Char
  rescuedPath : List Char
  filenameUnreadable : Bool
deriving DecidableEq

def OpenResult.empty : OpenResult := ⟨"", [], [], "", [], [], false⟩

/-- The errors of `Open`: `consumed` is that of `consumedError`, `writeAfterConsume` wraps
`ErrWriteAfterConsume`. -/
inductive OpenError where
  | failed (text : String)
  | consumed (text : String)
  | writeAfterConsume (text : String)
deriving DecidableEq

/-- The faults of the calls that `Open` makes on files.  `probe` and `stage` give the random part
of a temporary name or an error. -/
structure OpenFaults where
  reserve : Option String
  stat : Option String
  notDir : Bool
  probe : Except String (List Char)
  textWrite : WriteFault
  textSync : Option String
  stage : Except String (List Char)
  stageWrite : WriteFault
  stageSync : Option String
  stageClose : Option String
  rename : Option String
  attempts : Nat → AttemptFaults
  removeStaged : Option String

/-- What `Open` returns and leaves, and two facts about how it came to it: whether `OpenSecret`
succeeded, and the body that was decrypted in memory. -/
structure Opened (Entry : Type) where
  result : OpenResult
  error : Option OpenError
  disk : Disk Entry
  consumed : Bool
  inMemory : Option ExactBody

/-- What opens a body: the identity of the link, or a passphrase and its access proof. -/
inductive Credentials (Identity : Type) where
  | link (identity : Identity)
  | passphrase (text accessProof : String)

def Credentials.accessProof {Identity : Type} : Credentials Identity → String
  | .link _ => ""
  | .passphrase _ accessProof => accessProof

section Definitions

variable {Identity KDF Entry : Type} [DecidableEq Entry]
variable (crypto : Crypto Identity KDF) (server : Server KDF) (opts : OpenOptions Identity)
variable (faults : OpenFaults)

/-- The credentials `Open` collects before the consuming open. -/
def credentials (metadata : SecretMetadata KDF) : Except String (Credentials Identity) :=
  match metadata.access with
  | some kdf =>
    match opts.passphrase with
    | none => .error "this secret needs a passphrase and none can be read"
    | some (.error text) => .error text
    | some (.ok passphrase) =>
      match crypto.deriveAccessProof passphrase kdf with
      | .error text => .error text
      | .ok accessProof => .ok (.passphrase passphrase accessProof)
  | none =>
    match opts.linkIdentity with
    | none => .error ("this secret is opened with the key in the link fragment (#key=...), " ++
        "but the link given carries no fragment")
    | some identity => .ok (.link identity)

/-- The identity that decrypts, once the secret is opened. -/
def identityOf (opened : OpenedSecret) : Credentials Identity → Except String Identity
  | .link identity => .ok identity
  | .passphrase passphrase _ =>
    match opened.wrappedIdentity with
    | none => .error "open response carries no wrapped identity for a passphrase secret"
    | some wrapped => crypto.unwrapIdentity wrapped passphrase

def ageFileBytes (n : Int) : Int :=
  wrapInt64 (wrapInt64 (4096 + 16 + n) + 16 * max 1 ((wrapInt64 (n + 65535)).tdiv 65536))

def checkWritableDir (d : Disk Entry) (dir : List Char) : Except String (Disk Entry) :=
  let dir := if dir = [] then ['.'] else dir
  match faults.stat with
  | some text => .error ("output directory is not usable: " ++ text)
  | none =>
    if faults.notDir then
      .error (String.ofList dir ++ " is not a directory")
    else
      match d.createTemp dir ".flick-write-check-".toList faults.probe with
      | .error text => .error ("output directory is not writable: " ++ text)
      | .ok (created, probe) => .ok (created.remove probe)

/-- `reserveDestination`: the disk, and the path that is held. -/
def reserveDestination (d : Disk Entry) (kind : String) :
    Except String (Disk Entry × Option (List Char)) :=
  if opts.outputPath ≠ [] then
    match d.create opts.outputPath faults.reserve with
    | .error .exist => .error (String.ofList opts.outputPath ++ " already exists")
    | .error (.other text) => .error text
    | .ok created => .ok (created, some opts.outputPath)
  else if kind ≠ "file" then
    .ok (d, none)
  else
    match checkWritableDir faults d opts.outputDir with
    | .error text => .error text
    | .ok checked => .ok (checked, none)

/-- `destination.discard`. -/
def discard (d : Disk Entry) : Option (List Char) → Disk Entry
  | some path => d.remove path
  | none => d

/-- `destination.stage`. -/
def stage (d : Disk Entry) (reserved : Option (List Char)) :
    Except String (Disk Entry × List Char) :=
  let dir :=
    match reserved with
    | some path => Filepath.dir path
    | none => opts.outputDir
  d.createTemp (if dir = [] then ['.'] else dir) ".flick-partial-".toList faults.stage

/-- `openFilename`. -/
def openFilename (identity : Identity) (encoded : String) : Except String (List Char) :=
  match filenameFile encoded with
  | none => .error "illegal base64 data"
  | some file =>
    match crypto.unsealFile identity file with
    | .error text => .error text
    | .ok name =>
      match String.fromUTF8? ⟨name.toArray⟩ with
      | none => .error "filename is not UTF-8"
      | some text => .ok text.toList

/-- `decryptInto` the staged file.  Nothing is written of an empty plaintext. -/
def decryptInto (d : Disk Entry) (staged : List Char) (plain : Decryption) :
    Disk Entry × Except OpenError Unit :=
  match d.append staged plain.released
      (if plain.released = [] then none else faults.stageWrite) with
  | (d', some text) => (d', .error (.writeAfterConsume text))
  | (d', none) =>
    match plain.failure with
    | some text => (d', .error (.consumed text))
    | none =>
      match faults.stageSync with
      | some text => (d', .error (.writeAfterConsume text))
      | none => (d', .ok ())

/-- `destination.place`. -/
def place (d : Disk Entry) (reserved : Option (List Char)) (filename staged : List Char) :
    Placed Entry :=
  match faults.stageClose with
  | some text => ⟨d, [], some text⟩
  | none =>
    match reserved with
    | some path =>
      match d.rename staged path faults.rename with
      | (d', some .exist) => ⟨d', [], some "file exists"⟩
      | (d', some (.other text)) => ⟨d', [], some text⟩
      | (d', none) => ⟨d', path, none⟩
    | none => placeFile d opts.outputDir filename staged faults.attempts faults.removeStaged

/-- `openText`. -/
def openText (d : Disk Entry) (reserved : Option (List Char)) (identity : Identity)
    (body : ExactBody) (result : OpenResult) : Opened Entry :=
  let plain := crypto.decrypt identity body
  match plain.failure with
  | some text => ⟨.empty, some (.consumed text), discard d reserved, true, some body⟩
  | none =>
    let result := { result with plaintext := plain.released }
    if opts.outputPath = [] then
      ⟨result, none, d, true, some body⟩
    else
      match d.append (reserved.getD []) plain.released faults.textWrite with
      | (d', some text) =>
        ⟨result, some (.writeAfterConsume text), d', true, some body⟩
      | (d', none) =>
        match faults.textSync with
        | some text => ⟨result, some (.writeAfterConsume text), d', true, some body⟩
        | none => ⟨{ result with writtenPath := opts.outputPath }, none, d', true, some body⟩

/-- `Open` of a file secret once its name is known. -/
def storeFile (d : Disk Entry) (reserved : Option (List Char)) (identity : Identity)
    (body : ExactBody) (result : OpenResult) : Opened Entry :=
  match stage opts faults d reserved with
  | .error text => ⟨result, some (.writeAfterConsume text), discard d reserved, true, none⟩
  | .ok (created, staged) =>
    match decryptInto faults created staged (crypto.decrypt identity body) with
    | (partly, .error err) =>
      ⟨result, some err, discard (partly.remove staged) reserved, true, none⟩
    | (written, .ok ()) =>
      let placed := place opts faults written reserved result.filename staged
      match placed.error with
      | none =>
        ⟨{ result with writtenPath := placed.path }, none, placed.disk, true, none⟩
      | some text =>
        if placed.path ≠ [] then
          ⟨{ result with writtenPath := placed.path }, some (.failed text), placed.disk, true,
            none⟩
        else
          ⟨{ result with rescuedPath := staged }, some (.writeAfterConsume text), placed.disk,
            true, none⟩

/-- The result of a file secret with its name, which is read only when it decides the path. -/
def nameResult (identity : Identity) (opened : OpenedSecret) (result : OpenResult) : OpenResult :=
  if opts.outputPath = [] ∧ opened.encryptedFilename ≠ "" then
    match openFilename crypto identity opened.encryptedFilename with
    | .ok name => { result with filename := name }
    | .error _ => { result with filenameUnreadable := true }
  else
    result

/-- `Open` after the destination is reserved. -/
def openReserved (d : Disk Entry) (metadata : SecretMetadata KDF) (secret : Credentials Identity)
    (reserved : Option (List Char)) : Opened Entry :=
  match server.openSecret opts.linkID secret.accessProof metadata.sizeBytes with
  | .error text => ⟨.empty, some (.failed text), discard d reserved, false, none⟩
  | .ok (opened, body) =>
    match identityOf crypto opened secret with
    | .error text => ⟨.empty, some (.failed text), discard d reserved, true, none⟩
    | .ok identity =>
      let result := { OpenResult.empty with kind := opened.kind, contentType := opened.contentType }
      if opened.kind ≠ "file" then
        openText crypto opts faults d reserved identity body result
      else
        storeFile crypto opts faults d reserved identity body
          (nameResult crypto opts identity opened result)

/-- `Open`. -/
def openLink (d : Disk Entry) : Opened Entry :=
  let refuse (text : String) : Opened Entry := ⟨.empty, some (.failed text), d, false, none⟩
  if opts.linkID = "" then
    refuse "no secret ID to open"
  else
    match server.metadata opts.linkID with
    | .error text => refuse text
    | .ok metadata =>
      match credentials crypto opts metadata with
      | .error text => refuse text
      | .ok secret =>
        let limit := ageFileBytes server.limits.payloadInlineMaxBytes
        if metadata.kind ≠ "file" ∧ limit < metadata.sizeBytes then
          refuse ("text secret reports " ++ toString metadata.sizeBytes ++
            " bytes, more than the " ++ toString limit ++ " this deployment stores inline")
        else
          match reserveDestination opts faults d metadata.kind with
          | .error text => refuse text
          | .ok (reservedDisk, reserved) =>
            openReserved crypto server opts faults reservedDisk metadata secret reserved

/-- What the answers of the server come to: the kind of the secret, and what decrypting its body
releases. -/
def answered : Option (String × Decryption) :=
  if opts.linkID = "" then
    none
  else
    match server.metadata opts.linkID with
    | .error _ => none
    | .ok metadata =>
      match credentials crypto opts metadata with
      | .error _ => none
      | .ok secret =>
        if metadata.kind ≠ "file" ∧
            ageFileBytes server.limits.payloadInlineMaxBytes < metadata.sizeBytes then
          none
        else
          match server.openSecret opts.linkID secret.accessProof metadata.sizeBytes with
          | .error _ => none
          | .ok (opened, body) =>
            match identityOf crypto opened secret with
            | .error _ => none
            | .ok identity => some (opened.kind, crypto.decrypt identity body)

end Definitions

/-! ### The runs of an open -/

section Runs

variable {Identity KDF Entry : Type} [DecidableEq Entry]
variable {opts : OpenOptions Identity} {faults : OpenFaults} {d : Disk Entry}
  {reserved : Disk Entry × Option (List Char)}

/-- A temporary file that is removed again. -/
theorem set_remove {path : List Char} {content : Option Bytes} (hfree : d.file path = none) :
    (d.set path content).remove path = d := by
  rw [Disk.remove, Disk.set_set, ← hfree, Disk.set_self]

/-- What a reservation leaves: nothing, or the empty file of the output path. -/
inductive Reserved (d : Disk Entry) (outputPath : List Char) (fault : Option String) :
    Disk Entry × Option (List Char) → Prop
  | none (houtput : outputPath = []) : Reserved d outputPath fault (d, none)
  | held (houtput : outputPath ≠ []) (hfree : d.file outputPath = none) (hfault : fault = none) :
      Reserved d outputPath fault (d.set outputPath (some []), some outputPath)

theorem checkWritableDir_ok {dir : List Char} {d' : Disk Entry}
    (h : checkWritableDir faults d dir = .ok d') : d' = d := by
  unfold checkWritableDir at h
  dsimp only at h
  split at h
  · cases h
  split at h
  · cases h
  split at h
  · cases h
  rename_i created probe hprobe
  obtain ⟨hfree, rfl⟩ := Disk.createTemp_ok hprobe
  rw [← Except.ok.inj h, set_remove hfree]

theorem reserveDestination_ok {kind : String}
    (h : reserveDestination opts faults d kind = .ok reserved) :
    Reserved d opts.outputPath faults.reserve reserved := by
  unfold reserveDestination at h
  split at h
  · rename_i houtput
    split at h
    · cases h
    · cases h
    · rename_i created hcreate
      obtain ⟨hfree, hfault, rfl⟩ := Disk.create_ok hcreate
      cases h
      exact .held houtput hfree hfault
  · rename_i houtput
    have hnone : opts.outputPath = [] := not_not.mp houtput
    split at h
    · cases h
      exact .none hnone
    · split at h
      · cases h
      rename_i checked hchecked
      cases h
      rw [checkWritableDir_ok hchecked]
      exact .none hnone

/-- An output path that is free and not at fault is reserved. -/
theorem reserveDestination_error {kind text : String}
    (h : reserveDestination opts faults d kind = .error text) (houtput : opts.outputPath ≠ [])
    (hfree : d.file opts.outputPath = none) : faults.reserve ≠ none := by
  intro hfault
  simp [reserveDestination, houtput, Disk.create, hfault, hfree] at h

theorem Reserved.discard {outputPath : List Char} {fault : Option String}
    (h : Reserved d outputPath fault reserved) : discard reserved.1 reserved.2 = d := by
  cases h with
  | none houtput => rfl
  | held houtput hfree hfault => exact set_remove hfree

theorem nameResult_kind (crypto : Crypto Identity KDF) (identity : Identity) (opened : OpenedSecret)
    (result : OpenResult) : (nameResult crypto opts identity opened result).kind = result.kind := by
  unfold nameResult
  split
  · split
    · rfl
    · rfl
  · rfl

/-- The runs of `Open`: it fails and leaves the disk as it was, since the answers of the server
come to nothing or the output path cannot be reserved, or it opens a text or a file. -/
inductive Runs (crypto : Crypto Identity KDF) (server : Server KDF) (opts : OpenOptions Identity)
    (faults : OpenFaults) (d : Disk Entry) : Opened Entry → Prop
  | failed {text : String} {consumed : Bool}
      (hfailed : opts.outputPath ≠ [] → d.file opts.outputPath = none → faults.reserve = none →
        answered crypto server opts = none) :
      Runs crypto server opts faults d ⟨.empty, some (.failed text), d, consumed, none⟩
  | text {metadata : SecretMetadata KDF} {accessProof : String} {opened : OpenedSecret}
      {body : ExactBody} {identity : Identity} {result : OpenResult}
      {reserved : Disk Entry × Option (List Char)}
      (hmetadata : server.metadata opts.linkID = .ok metadata)
      (hsize : metadata.kind ≠ "file" →
        metadata.sizeBytes ≤ ageFileBytes server.limits.payloadInlineMaxBytes)
      (hreserved : Reserved d opts.outputPath faults.reserve reserved)
      (hanswered : answered crypto server opts = some (result.kind, crypto.decrypt identity body))
      (hopen : server.openSecret opts.linkID accessProof metadata.sizeBytes = .ok (opened, body))
      (hkind : result.kind ≠ "file") :
      Runs crypto server opts faults d
        (openText crypto opts faults reserved.1 reserved.2 identity body result)
  | file {body : ExactBody} {identity : Identity} {result : OpenResult}
      {reserved : Disk Entry × Option (List Char)}
      (hreserved : Reserved d opts.outputPath faults.reserve reserved)
      (hanswered : answered crypto server opts = some (result.kind, crypto.decrypt identity body))
      (hkind : result.kind = "file") :
      Runs crypto server opts faults d
        (storeFile crypto opts faults reserved.1 reserved.2 identity body result)

theorem openLink_runs (crypto : Crypto Identity KDF) (server : Server KDF)
    (opts : OpenOptions Identity) (faults : OpenFaults) (d : Disk Entry) :
    Runs crypto server opts faults d (openLink crypto server opts faults d) := by
  unfold openLink
  dsimp only
  split
  · rename_i hempty
    exact .failed fun _ _ _ => by rw [answered, if_pos hempty]
  rename_i hlink
  split
  · rename_i text hmetadata
    exact .failed fun _ _ _ => by rw [answered, if_neg hlink, hmetadata]
  rename_i metadata hmetadata
  split
  · rename_i text hsecret
    exact .failed fun _ _ _ => by simp only [answered, if_neg hlink, hmetadata, hsecret]
  rename_i secret hsecret
  split
  · rename_i hlarge
    exact .failed fun _ _ _ => by simp only [answered, if_neg hlink, hmetadata, hsecret,
      if_pos hlarge]
  rename_i hsize
  split
  · rename_i text hreserve
    exact .failed fun houtput hfree hfault =>
      absurd hfault (reserveDestination_error hreserve houtput hfree)
  rename_i reservedDisk reserved hreserve
  have hreserved := reserveDestination_ok hreserve
  have hanswered : answered crypto server opts =
      match server.openSecret opts.linkID secret.accessProof metadata.sizeBytes with
      | .error _ => none
      | .ok (opened, body) =>
        match identityOf crypto opened secret with
        | .error _ => none
        | .ok identity => some (opened.kind, crypto.decrypt identity body) := by
    simp only [answered, if_neg hlink, hmetadata, hsecret, if_neg hsize]
  unfold openReserved
  split
  · rename_i text hopen
    rw [show discard reservedDisk reserved = d from hreserved.discard]
    exact .failed fun _ _ _ => by rw [hanswered, hopen]
  rename_i opened body hopen
  rw [hopen] at hanswered
  dsimp only at hanswered
  split
  · rename_i text hidentity
    rw [show discard reservedDisk reserved = d from hreserved.discard]
    exact .failed fun _ _ _ => by rw [hanswered, hidentity]
  rename_i identity hidentity
  rw [hidentity] at hanswered
  dsimp only
  split
  · rename_i hkind
    refine .text hmetadata ?_ hreserved hanswered hopen hkind
    intro hmetadataKind
    by_contra hlarge
    exact hsize ⟨hmetadataKind, Int.not_le.mp hlarge⟩
  · rename_i hkind
    refine .file hreserved ?_ ?_
    · rw [nameResult_kind]
      exact hanswered
    · rw [nameResult_kind]
      exact not_not.mp hkind

end Runs

/-! ### A small deployment -/

/-- A body of one byte that decrypts to two. -/
def sampleCrypto : Crypto Unit Unit where
  deriveAccessProof := fun _ _ => .ok "proof"
  unwrapIdentity := fun _ _ => .ok ()
  decrypt := fun _ _ => ⟨[1, 2], none⟩
  unsealFile := fun _ _ => .ok []

/-- A server that holds one secret and answers its open with the given kind and body. -/
def sampleServer (metadataKind openKind : String) (size : Int) (inlineMax : Int)
    (body : Source UInt8) : Server Unit where
  metadata := fun _ => .ok ⟨metadataKind, none, size⟩
  config := .ok ⟨inlineMax, 268435456⟩
  answer := fun _ _ => .ok (⟨openKind, "", "", ""⟩, body)

def sampleOptions : OpenOptions Unit := ⟨"id", some (), none, "out".toList, ".".toList⟩

def sampleFaults : OpenFaults where
  reserve := none
  stat := none
  notDir := false
  probe := .ok "1".toList
  textWrite := none
  textSync := none
  stage := .ok "2".toList
  stageWrite := none
  stageSync := none
  stageClose := none
  rename := none
  attempts := fun _ => noFaults
  removeStaged := none

def emptyDisk : Disk (List Char) := ⟨id, fun _ => none⟩

end Flickcli
end FlickDrop
