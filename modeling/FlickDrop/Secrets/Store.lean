import FlickDrop.Events.Reconciliation
import FlickDrop.Secrets.Age

/-!
# The secrets store

Model of `internal/secrets/store.go` and of `openAndEnqueueCleanup` in
`internal/httpapi/secrets.go`, over the tables `secrets`, `secret_payloads`,
`secret_management` and the outbox.

The three columns of a passphrase-protected secret (Model A) are one optional value:
the table's check makes them all null or all set.  Identifiers, tokens and job ids are
random in the source and arguments here, as are the answers of the object store.
-/

namespace FlickDrop
namespace Secrets

open Foundations Events

inductive Kind where
  | text
  | file
  | unsupported (name : String)
  deriving DecidableEq, Repr

inductive Backend where
  | sqliteBlob
  | s3Object
  deriving DecidableEq, Repr

inductive State where
  | active
  | pendingUpload
  deriving DecidableEq, Repr

structure KDFParams where
  algorithm : String
  salt : String
  iterations : Int
  keyLengthBits : Int
  deriving DecidableEq, Repr

/-- The columns of Model A. -/
structure Access where
  kdf : KDFParams
  proofHash : String
  wrappedIdentity : String
  deriving DecidableEq, Repr

structure SecretRow where
  id : String
  kind : Kind
  storageBackend : Backend
  storageKey : String
  access : Option Access
  encryptedFilename : Option String
  contentType : Option String
  sizeBytes : Int
  maxViews : Int
  viewCount : Nat
  failedAccessCount : Nat
  state : State
  expiresAt : Nat
  consumedAt : Option Nat
  createdAt : Nat
  updatedAt : Nat
  reclaimEnqueuedAt : Option Nat
  deriving DecidableEq, Repr

structure Payload where
  secretID : String
  ciphertext : Bytes
  createdAt : Nat
  deriving DecidableEq, Repr

inductive ManagementOutcome where
  | opened
  | locked
  | cancelled
  | unavailable
  deriving DecidableEq, Repr

structure ManagementRow where
  secretID : String
  tokenHash : Bytes
  expiresAt : Nat
  outcome : Option ManagementOutcome
  deriving DecidableEq, Repr

/-- The tables this package writes. -/
structure DB where
  secrets : List SecretRow
  payloads : List Payload
  management : List ManagementRow
  outbox : List OutboxRow
  book : Book

def DB.empty : DB := ⟨[], [], [], [], Book.fresh⟩

/-- `other` is a wrapped error, under the text it is wrapped with. -/
inductive Err where
  | invalidInput
  | notFound
  | consumed
  | expired
  | invalidAccess
  | payloadTooLarge
  | unsupportedKind
  | unsupportedViews
  | notPending
  | objectMissing
  | managementUnavailable
  | notCancellable
  | other (text : String)
  deriving DecidableEq, Repr

/-- `StoreOptions` with the codec and the subject of the outbox.  `objects` and `outbox`
say whether they are configured. -/
structure Config where
  codec : Codec
  subject : String
  sha256 : Bytes → Bytes
  payloadInlineMaxBytes : Int
  maxObjectBytes : Int
  pendingTTL : Nat
  minTTL : Int
  maxTTL : Int
  objects : Bool
  outbox : Bool

def kdfPBKDF2SHA256 : String := "PBKDF2-SHA-256"

def maxFailedAccessAttempts : Nat := 5

/-! ### Creation -/

structure CreateInput where
  kind : Kind
  ciphertext : Bytes
  accessKDF : KDFParams
  accessProofHash : String
  wrappedIdentity : Option String
  encryptedFilename : Option String
  contentType : Option String
  sizeBytes : Int
  ttlSeconds : Int
  maxViews : Int

structure CreateLargeInput where
  kind : Kind
  accessKDF : KDFParams
  accessProofHash : String
  wrappedIdentity : Option String
  encryptedFilename : Option String
  contentType : Option String
  sizeBytes : Int
  ttlSeconds : Int
  maxViews : Int

/-- `validContentType`: printable ASCII. -/
def validContentType (value : String) : Bool :=
  decide (value.length ≤ maxContentTypeBytes) &&
    value.toList.all fun c => decide (0x20 ≤ c.toNat) && decide (c.toNat ≤ 0x7e)

/-- The Model A fields are usable. -/
def validAccess (kdf : KDFParams) (wrappedIdentity : Option String) : Bool :=
  decide (kdf.algorithm = kdfPBKDF2SHA256) && decide (kdf.salt ≠ "") &&
    decide (600000 ≤ kdf.iterations) && decide (kdf.iterations ≤ 6000000) &&
    decide (kdf.keyLengthBits = 256) &&
    match wrappedIdentity with
    | none => false
    | some wrapped => (decodeAgeField wrapped maxWrappedIdentityBytes).isSome

/-- The filename is there exactly for files, and is an age file. -/
def validFilename (kind : Kind) : Option String → Bool
  | none => decide (kind ≠ .file)
  | some name =>
    decide (kind ≠ .text) && (decodeAgeField name maxEncryptedFilenameBytes).isSome

/-- `validateCommon`. -/
def validateCommon (cfg : Config) (kind : Kind) (ttlSeconds maxViews : Int) (accessKDF : KDFParams)
    (accessProofHash : String) (wrappedIdentity encryptedFilename contentType : Option String) :
    Except Err Unit :=
  if kind ≠ .text ∧ kind ≠ .file then
    .error .unsupportedKind
  else if ttlSeconds < cfg.minTTL ∨ cfg.maxTTL < ttlSeconds then
    .error .invalidInput
  else if maxViews ≠ 1 then
    .error .unsupportedViews
  else
    let hasProof := decide (accessProofHash ≠ "")
    if hasProof ≠ decide (accessKDF.algorithm ≠ "") ∨ hasProof ≠ wrappedIdentity.isSome then
      .error .invalidInput
    else if hasProof ∧ validAccess accessKDF wrappedIdentity = false then
      .error .invalidInput
    else if validFilename kind encryptedFilename = false then
      .error .invalidInput
    else if contentType.all validContentType = false then
      .error .invalidInput
    else
      .ok ()

/-- `validateCreate`. -/
def validateCreate (cfg : Config) (input : CreateInput) : Except Err Unit :=
  if cfg.payloadInlineMaxBytes < input.ciphertext.length then
    .error .payloadTooLarge
  else if ageMagic.isPrefixOf input.ciphertext = false ∨
      (input.ciphertext.length : Int) ≠ input.sizeBytes then
    .error .invalidInput
  else
    validateCommon cfg input.kind input.ttlSeconds input.maxViews input.accessKDF
      input.accessProofHash input.wrappedIdentity input.encryptedFilename input.contentType

/-- `validateCreateLarge`. -/
def validateCreateLarge (cfg : Config) (input : CreateLargeInput) : Except Err Unit :=
  if input.kind = .text then
    .error .invalidInput
  else if cfg.maxObjectBytes < input.sizeBytes then
    .error .payloadTooLarge
  else if input.sizeBytes < maxCiphertextBytes 0 - ageHeaderAllowanceBytes then
    .error .invalidInput
  else
    validateCommon cfg input.kind input.ttlSeconds input.maxViews input.accessKDF
      input.accessProofHash input.wrappedIdentity input.encryptedFilename input.contentType

/-- `modelAColumns` with the wrapped identity. -/
def modelAColumns (accessKDF : KDFParams) (accessProofHash : String) :
    Option String → Option Access
  | some wrapped =>
    if accessProofHash = "" then none else some ⟨accessKDF, accessProofHash, wrapped⟩
  | none => none

/-- `createManagementTx`; `raw` are the token's random bytes. -/
def createManagementTx (cfg : Config) (id : String) (expires : Nat) (raw : Bytes) (db : DB) :
    Except Err (DB × String) :=
  if (Table.lookup ManagementRow.secretID id db.management).isSome then
    .error (.other "insert management capability")
  else
    .ok ({ db with management := db.management ++ [⟨id, cfg.sha256 raw, expires, none⟩] },
      rawURLEncoding.encodeToString raw)

/-- The insert of the metadata row; the primary key refuses an id that is there. -/
def insertSecret (row : SecretRow) (db : DB) : Except Err DB :=
  if (Table.lookup SecretRow.id row.id db.secrets).isSome then
    .error (.other "insert secret metadata")
  else
    .ok { db with secrets := db.secrets ++ [row] }

/-- `max_views` defaults to one. -/
def defaultViews (maxViews : Int) : Int := if maxViews = 0 then 1 else maxViews

/-- The row `Create` inserts. -/
def CreateInput.row (input : CreateInput) (id : String) (now : Nat) : SecretRow where
  id := id
  kind := input.kind
  storageBackend := .sqliteBlob
  storageKey := id
  access := modelAColumns input.accessKDF input.accessProofHash input.wrappedIdentity
  encryptedFilename := input.encryptedFilename
  contentType := input.contentType
  sizeBytes := input.sizeBytes
  maxViews := input.maxViews
  viewCount := 0
  failedAccessCount := 0
  state := .active
  expiresAt := now + input.ttlSeconds.toNat * second
  consumedAt := none
  createdAt := now
  updatedAt := now
  reclaimEnqueuedAt := none

/-- The row `CreateLarge` inserts. -/
def CreateLargeInput.row (input : CreateLargeInput) (id : String) (now : Nat) : SecretRow where
  id := id
  kind := input.kind
  storageBackend := .s3Object
  storageKey := Area.secrets.root ++ id
  access := modelAColumns input.accessKDF input.accessProofHash input.wrappedIdentity
  encryptedFilename := input.encryptedFilename
  contentType := input.contentType
  sizeBytes := input.sizeBytes
  maxViews := input.maxViews
  viewCount := 0
  failedAccessCount := 0
  state := .pendingUpload
  expiresAt := now + input.ttlSeconds.toNat * second
  consumedAt := none
  createdAt := now
  updatedAt := now
  reclaimEnqueuedAt := none

/-- `Store.Create`: the management token. -/
def create (cfg : Config) (now : Nat) (id : String) (raw : Bytes) (input : CreateInput) (db : DB) :
    Except Err (DB × String) :=
  let input := { input with maxViews := defaultViews input.maxViews }
  match validateCreate cfg input with
  | .error err => .error err
  | .ok () =>
    let row := input.row id now
    match insertSecret row db with
    | .error err => .error err
    | .ok db =>
      if db.payloads.any fun p => decide (p.secretID = id) then
        .error (.other "insert secret payload")
      else
        createManagementTx cfg id row.expiresAt raw
          { db with payloads := db.payloads ++ [⟨id, input.ciphertext, now⟩] }

/-- `Store.CreateLarge`; `presign` is the answer of the object store. -/
def createLarge (cfg : Config) (now : Nat) (id : String) (raw : Bytes) (presign : Option String)
    (input : CreateLargeInput) (db : DB) : Except Err (DB × String × String) :=
  if cfg.objects = false then
    .error .payloadTooLarge
  else
    let input := { input with maxViews := defaultViews input.maxViews }
    match validateCreateLarge cfg input with
    | .error err => .error err
    | .ok () =>
      match presign with
      | none => .error (.other "presign upload")
      | some upload =>
        let row := input.row id now
        match insertSecret row db with
        | .error err => .error err
        | .ok db =>
          match createManagementTx cfg id row.expiresAt raw db with
          | .error err => .error err
          | .ok (db, token) => .ok (db, token, upload)

/-! ### Finalize -/

/-- What `Finalize` holds while its HEAD is in flight. -/
structure Pending where
  storageKey : String
  deadline : Nat
  sizeBytes : Int
  deriving DecidableEq, Repr

/-- `storage.ObjectInfo`. -/
structure ObjectInfo where
  present : Bool
  size : Int
  deriving DecidableEq, Repr

/-- The instant a pending upload stops being finalizable. -/
def SecretRow.pendingDeadline (pendingTTL : Nat) (row : SecretRow) : Nat :=
  min row.expiresAt (row.createdAt + pendingTTL)

/-- `Finalize` up to its HEAD; `none` is an upload that is already active. -/
def finalizeLoad (cfg : Config) (now : Nat) (id : String) (db : DB) :
    Except Err (Option Pending) :=
  if cfg.objects = false then
    .error .payloadTooLarge
  else
    match Table.lookup SecretRow.id id db.secrets with
    | none => .error .notFound
    | some row =>
      if row.state = .active then
        .ok none
      else
        let deadline := row.pendingDeadline cfg.pendingTTL
        if deadline ≤ now then
          .error .expired
        else
          .ok (some ⟨row.storageKey, deadline, row.sizeBytes⟩)

/-- The guard and the columns of `activateSecretTx`. -/
def SecretRow.pendingUnder (id : String) (row : SecretRow) : Bool :=
  decide (row.id = id) && decide (row.state = .pendingUpload)

def SecretRow.activate (now : Nat) (row : SecretRow) : SecretRow :=
  { row with state := .active, updatedAt := now }

/-- `activateSecretTx`. -/
def activateSecretTx (now : Nat) (id : String) (db : DB) : Except Err DB :=
  if Table.affected (SecretRow.pendingUnder id) db.secrets ≠ 1 then
    .error .notFound
  else
    .ok { db with
      secrets := Table.update (SecretRow.pendingUnder id) (SecretRow.activate now) db.secrets }

/-- `Finalize` after its HEAD. -/
def finalizeActivate (now : Nat) (id : String) (pending : Pending) (head : Option ObjectInfo)
    (db : DB) : Except Err DB :=
  match head with
  | none => .error (.other "head uploaded object")
  | some info =>
    if info.present = false ∨ info.size ≠ pending.sizeBytes then
      .error .objectMissing
    else if pending.deadline ≤ now then
      .error .expired
    else
      activateSecretTx now id db

/-! ### Open -/

/-- What an open returns. -/
structure Secret where
  id : String
  kind : Kind
  storageBackend : Backend
  storageKey : String
  ciphertext : Bytes
  body : Option Bytes
  access : Option Access
  encryptedFilename : Option String
  contentType : Option String
  sizeBytes : Int
  expiresAt : Nat
  deriving DecidableEq, Repr

/-- `recordManagementOutcomeTx`. -/
def recordManagementOutcomeTx (id : String) (outcome : ManagementOutcome)
    (rows : List ManagementRow) : List ManagementRow :=
  Table.update (fun row => decide (row.secretID = id) && row.outcome.isNone)
    (fun row => { row with outcome := some outcome }) rows

/-- `load`: the secret and its `consumed_at`. -/
def load (id : String) (db : DB) : Except Err (Secret × Option Nat) :=
  if id = "" then
    .error .notFound
  else
    match db.secrets.find? fun row => decide (row.id = id) && decide (row.state = .active) with
    | none => .error .notFound
    | some row =>
      let ciphertext :=
        ((Table.lookup Payload.secretID id db.payloads).map Payload.ciphertext).getD []
      if row.storageBackend ≠ .s3Object ∧ ciphertext = [] ∧ row.consumedAt = none then
        .error .notFound
      else
        .ok ({
          id := row.id, kind := row.kind, storageBackend := row.storageBackend,
          storageKey := row.storageKey, ciphertext := ciphertext, body := none,
          access := row.access, encryptedFilename := row.encryptedFilename,
          contentType := row.contentType, sizeBytes := row.sizeBytes,
          expiresAt := row.expiresAt }, row.consumedAt)

/-- What a recipient is shown before the open. -/
structure Metadata where
  id : String
  kind : Kind
  accessKDF : KDFParams
  sizeBytes : Int
  expiresAt : Nat
  deriving DecidableEq, Repr

/-- `Store.Metadata`. -/
def metadata (now : Nat) (id : String) (db : DB) : Except Err Metadata :=
  if id = "" then
    .error .notFound
  else
    match db.secrets.find? fun row => decide (row.id = id) &&
        (decide (row.storageBackend = .s3Object) ||
          db.payloads.any fun p => decide (p.secretID = row.id)) with
    | none => .error .notFound
    | some row =>
      if row.consumedAt.isSome then
        .error .consumed
      else if row.expiresAt ≤ now then
        .error .expired
      else
        .ok {
          id := row.id, kind := row.kind
          accessKDF := (row.access.map Access.kdf).getD ⟨"", "", 0, 0⟩
          sizeBytes := row.sizeBytes, expiresAt := row.expiresAt }

/-- `secret.accessProofHash`, empty for Model B. -/
def Secret.accessProofHash (secret : Secret) : String :=
  match secret.access with
  | some access => access.proofHash
  | none => ""

/-- `openBody`; `object` is the answer of the object store. -/
def openBody (cfg : Config) (object : Option (Bytes × Int)) (secret : Secret) :
    Except Err Secret :=
  if secret.storageBackend ≠ .s3Object then
    .ok secret
  else if cfg.objects = false then
    .error .notFound
  else
    match object with
    | none => .error (.other "open object payload")
    | some (body, size) =>
      if size ≠ secret.sizeBytes then .error (.other "open object payload")
      else .ok { secret with body := some body }

/-- `where id = ? and consumed_at is null`. -/
def SecretRow.unconsumed (id : String) (row : SecretRow) : Bool :=
  decide (row.id = id) && row.consumedAt.isNone

/-- The columns `recordFailedAccessTx` sets. -/
def SecretRow.countFailure (now : Nat) (row : SecretRow) : SecretRow :=
  { row with
    failedAccessCount := row.failedAccessCount + 1
    consumedAt :=
      if maxFailedAccessAttempts ≤ row.failedAccessCount + 1 then some now else row.consumedAt
    updatedAt := now }

/-- The columns a successful open sets. -/
def SecretRow.consume (now : Nat) (row : SecretRow) : SecretRow :=
  { row with viewCount := row.viewCount + 1, consumedAt := some now, updatedAt := now }

/-- The cleanup job of an opened secret. -/
def secretEvent (jobID id : String) (now : Nat) : JobEvent where
  jobID := jobID
  kind := .deleteSecret
  secretID := id
  objectKey := ""
  reason := .consumed
  requestedAt := now
  traceContext := []

/-- The `i`-th job id of a transaction, and the enqueue of its object job; the two texts
are what its callers wrap the errors of the two with. -/
def enqueueObject (cfg : Config) (draws : Draws) (i enqueueNow : Nat) (key : String)
    (reason : Reason) (now : Nat) (drawText enqueueText : String) (db : DB) : Except Err DB :=
  match draws.newJobID i with
  | none => .error (.other drawText)
  | some jobID =>
    match enqueueTx cfg.codec cfg.subject draws.carrier enqueueNow
        (objectEvent jobID key reason now) db.outbox with
    | .error _ => .error (.other enqueueText)
    | .ok outbox => .ok { db with outbox := outbox }

/-- The payload of a locked secret goes: inline, or by a job.  Without an outbox the
object is deleted in place, which no table shows. -/
def purgeLocked (cfg : Config) (draws : Draws) (enqueueNow : Nat) (id : String)
    (storageBackend : Backend) (storageKey : String) (now : Nat) (db : DB) : Except Err DB :=
  if storageBackend ≠ .s3Object then
    .ok { db with payloads := Table.delete (fun p => decide (p.secretID = id)) db.payloads }
  else if cfg.outbox then
    enqueueObject cfg draws 1 enqueueNow storageKey .consumed now
      "generate locked object delete job id" "enqueue locked object delete" db
  else
    .ok db

/-- `recordFailedAccessTx`. -/
def recordFailedAccessTx (cfg : Config) (draws : Draws) (enqueueNow : Nat) (id : String)
    (storageBackend : Backend) (storageKey : String) (now : Nat) (db : DB) : Except Err DB :=
  if Table.affected (SecretRow.unconsumed id) db.secrets ≠ 1 then
    .error .consumed
  else
    let db := { db with
      secrets := Table.update (SecretRow.unconsumed id) (SecretRow.countFailure now) db.secrets }
    match Table.lookup SecretRow.id id db.secrets with
    | none => .error (.other "load failed secret access count")
    | some row =>
      if maxFailedAccessAttempts ≤ row.failedAccessCount ∧ row.consumedAt.isSome then
        purgeLocked cfg draws enqueueNow id storageBackend storageKey now
          { db with management := recordManagementOutcomeTx id .locked db.management }
      else
        .ok db

/-- The end of `OpenTx`, once the body can be read. -/
def consumeTx (now : Nat) (id : String) (db : DB) : Except Err DB :=
  if Table.affected (SecretRow.unconsumed id) db.secrets ≠ 1 then
    .error .consumed
  else
    .ok { db with
      secrets := Table.update (SecretRow.unconsumed id) (SecretRow.consume now) db.secrets
      management := recordManagementOutcomeTx id .opened db.management }

/-- `OpenTx`: the transaction's state so far and the result.  Readings 0 and 1 are its
own, reading 3 is the outbox's. -/
def openTx (cfg : Config) (now : Nat → Nat) (draws : Draws) (object : Option (Bytes × Int))
    (id accessProofHash : String) (db : DB) : DB × Except Err Secret :=
  match load id db with
  | .error err => (db, .error err)
  | .ok (secret, consumedAt) =>
    if consumedAt.isSome then
      (db, .error .consumed)
    else if secret.expiresAt ≤ now 0 then
      (db, .error .expired)
    else if secret.accessProofHash ≠ "" ∧ secret.accessProofHash ≠ accessProofHash then
      match recordFailedAccessTx cfg draws (now 3) id secret.storageBackend secret.storageKey
          (now 0) db with
      | .error err => (db, .error err)
      | .ok db => (db, .error .invalidAccess)
    else
      match openBody cfg object secret with
      | .error err => (db, .error err)
      | .ok secret =>
        if secret.expiresAt ≤ now 1 then
          (db, .error .expired)
        else
          match consumeTx (now 1) id db with
          | .error err => (db, .error err)
          | .ok db => (db, .ok secret)

/-- `openAndEnqueueCleanup`: a refused proof is committed too. -/
def openAndEnqueueCleanup (cfg : Config) (now : Nat → Nat) (draws : Draws)
    (object : Option (Bytes × Int)) (id accessProofHash : String) (db : DB) :
    Outcome DB Err Secret :=
  if cfg.outbox = false then
    .rollback (.other "outbox store is required")
  else
    match draws.newJobID 0 with
    | none => .rollback (.other "generate job id")
    | some jobID =>
      match openTx cfg now draws object id accessProofHash db with
      | (db, .error .invalidAccess) => .commit db (.error .invalidAccess)
      | (_, .error err) => .rollback err
      | (db, .ok secret) =>
        match enqueueTx cfg.codec cfg.subject draws.carrier (now 3)
            (secretEvent jobID id (now 2)) db.outbox with
        | .error _ => .rollback (.other "enqueue consumed cleanup job")
        | .ok outbox => .commit { db with outbox := outbox } (.ok secret)

/-- `enqueueOpenedObjectCleanup`; its errors are dropped. -/
def enqueueOpenedObjectCleanup (cfg : Config) (now : Nat → Nat) (draws : Draws) (key : String)
    (db : DB) : Except Err DB :=
  enqueueObject cfg draws 0 (now 1) key .consumed (now 0) "" "" db

/-! ### Cleanup -/

def SecretRow.touch (now : Nat) (row : SecretRow) : SecretRow :=
  { row with updatedAt := now }

/-- `Store.Cleanup`: whether a payload was deleted. -/
def cleanup (now : Nat) (id : String) (db : DB) : Except Err (DB × Bool) :=
  if id = "" then
    .error .notFound
  else if db.payloads.any fun p => decide (p.secretID = id) then
    .ok ({ db with
      payloads := Table.delete (fun p => decide (p.secretID = id)) db.payloads
      secrets := Table.update (fun row => decide (row.id = id)) (SecretRow.touch now)
        db.secrets }, true)
  else
    .ok (db, false)

/-- `delete from secrets`; the payloads go with their secrets. -/
def deleteSecrets (cond : SecretRow → Bool) (db : DB) : DB :=
  { db with
    secrets := Table.delete cond db.secrets
    payloads := Table.delete
      (fun p => db.secrets.any fun row => cond row && decide (row.id = p.secretID)) db.payloads }

/-- `Store.ReclaimTx`. -/
def reclaimTx (id : String) (db : DB) : Except Err DB :=
  if id = "" then
    .error .notFound
  else
    .ok (deleteSecrets (fun row => decide (row.id = id) && row.reclaimEnqueuedAt.isSome)
      { db with payloads := Table.delete (fun p => decide (p.secretID = id)) db.payloads })

end Secrets
end FlickDrop
