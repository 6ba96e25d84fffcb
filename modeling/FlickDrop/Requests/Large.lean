import FlickDrop.Requests.Store

/-!
# Large uploads

Model of `internal/requests/large.go`: a reservation, the finalization that copies the
uploaded object and accepts it, and giving a reservation up.

`Finalize` is two transactions with the copy between them.  `finalizeTx` is the first,
`copyVerified` decides what may be written under the final key, `acceptTx` is the second.
-/

namespace FlickDrop
namespace Requests

open Foundations Events

/-- `ReservationTTL`. -/
def reservationTTL : Nat := 15 * minute

structure UploadInput where
  generation : Int
  attemptToken : String
  kind : Kind
  sizeBytes : Int
  envelope : Bytes
  ciphertextSHA256 : String

structure AttemptInput where
  generation : Int
  attemptToken : String
  deriving DecidableEq, Repr

/-- `UploadResult`; the instruction is the presigned URL with its deadline. -/
structure UploadResult where
  generation : Int
  state : ReceiptState
  upload : Option (String × Nat)
  deriving DecidableEq, Repr

/-- `validateAttempt`. -/
def validateAttempt (cfg : Config) (input : AttemptInput) : Except Err Bytes :=
  if validGeneration input.generation = false then .error .invalid
  else tokenHash cfg.sha256 input.attemptToken

/-! ### Reserve -/

/-- The immutable fields of a reservation, as `json.Marshal` writes them. -/
def marshalUpload (kind : Kind) (sizeBytes : Int) (envelope checksum : String) : String :=
  "\x7b\"kind\":" ++ jsonText kind.name ++ ",\"size_bytes\":" ++ toString sizeBytes ++
    ",\"envelope\":" ++ envelope ++ ",\"ciphertext_sha256\":" ++ jsonText checksum ++ "\x7d"

/-- The checks of `Reserve`: the attempt hash, the envelope and the checksum. -/
def validateUpload (cfg : Config) (input : UploadInput) : Except Err (Bytes × String × Bytes) :=
  match validateAttempt cfg ⟨input.generation, input.attemptToken⟩ with
  | .error err => .error err
  | .ok attempt =>
    if input.kind ≠ .file ∨ input.sizeBytes < ageMagic.length then
      .error .invalid
    else if cfg.maxObjectBytes < input.sizeBytes then
      .error .tooLarge
    else
      match validateEnvelope cfg.decodeEnvelope input.envelope input.kind with
      | .error err => .error err
      | .ok envelope =>
        match canonicalBase64 input.ciphertextSHA256 32 32 with
        | .error err => .error err
        | .ok checksum => .ok (attempt, envelope, checksum)

/-- The keys `Reserve` draws. -/
def uploadKeyOf (raw : Bytes) : String :=
  Area.requests.root ++ rawURLEncoding.encodeToString raw ++ "/upload"

def finalKeyOf (raw : Bytes) : String :=
  Area.requests.root ++ rawURLEncoding.encodeToString raw ++ "/final"

/-- The columns a reservation sets. -/
structure Reservation where
  attempt : Bytes
  bodyHash : Bytes
  sizeBytes : Int
  envelope : String
  checksum : Bytes
  uploadKey : String
  finalKey : String
  deadline : Nat

def RequestRow.reserve (r : Reservation) (row : RequestRow) : RequestRow :=
  { row with
    state := .uploading
    storageBackend := .s3Object
    attemptTokenHash := some r.attempt
    attemptBodyHash := some r.bodyHash
    kind := some .file
    sizeBytes := some r.sizeBytes
    envelopeJSON := some r.envelope
    ciphertextSHA256 := some r.checksum
    uploadKey := some r.uploadKey
    finalKey := some r.finalKey
    reservationExpiresAt := some r.deadline }

/-- The end of `Reserve`: the commit, and the instruction signed after it. -/
def instruct (cfg : Config) (env : Env) (presign : Option String) (row : RequestRow)
    (uploadKey : Option String) (deadline : Nat) (db : DB) : Outcome DB Err (Option UploadResult) :=
  if cfg.objects = false ∨ uploadKey = none then
    .rollback .storage
  else if row.expiresAt ≤ env.now 3 then
    .rollback .unavailable
  else if deadline ≤ env.now 4 then
    .commit db (.error .unavailable)
  else
    match presign with
    | none => .commit db (.error .storage)
    | some url => .commit db (.ok (some ⟨row.generation, .uploading, some (url, deadline)⟩))

/-- `Reserve`; `rawUpload` and `rawFinal` are the random bytes of its keys. -/
def reserve (cfg : Config) (env : Env) (rawUpload rawFinal : Bytes) (presign : Option String)
    (id token : String) (input : UploadInput) (db : DB) : Outcome DB Err (Option UploadResult) :=
  match validateUpload cfg input with
  | .error err => .rollback err
  | .ok (attempt, envelope, checksum) =>
    let digest := cfg.sha256
      (utf8 (marshalUpload input.kind input.sizeBytes envelope input.ciphertextSHA256))
    transact cfg env id token false db fun row =>
      if row.generation ≠ input.generation then
        .rollback .unavailable
      else if row.state ≠ .waiting then
        if row.attemptTokenHash ≠ some attempt ∨ row.attemptBodyHash ≠ some digest then
          .rollback .conflict
        else if row.state ≠ .uploading then
          commit (env.now 2) row.expiresAt db ⟨row.generation, .submitted, none⟩
        else
          instruct cfg env presign row row.uploadKey row.reservationExpires db
      else if cfg.objects = false then
        .rollback .storage
      else if Table.affected (RequestRow.waitingAt id input.generation) db.requests ≠ 1 then
        .rollback .conflict
      else
        let deadline := min (env.now 2 + reservationTTL) row.expiresAt
        let r : Reservation := ⟨attempt, digest, input.sizeBytes, envelope, checksum,
          uploadKeyOf rawUpload, finalKeyOf rawFinal, deadline⟩
        instruct cfg env presign row (some r.uploadKey) deadline
          { db with
            requests := Table.update (RequestRow.waitingAt id input.generation)
              (RequestRow.reserve r) db.requests }

/-! ### Finalize -/

/-- The upload a finalization copies, as its first transaction read it. -/
structure ObjectAttempt where
  uploadKey : String
  finalKey : String
  sizeBytes : Int
  checksum : Option Bytes
  deriving DecidableEq, Repr

/-- How the first transaction of `Finalize` ends. -/
inductive FinalizeStart where
  | receipt (receipt : Receipt)
  | copy (a : ObjectAttempt)
  deriving DecidableEq, Repr

/-- An accepted attempt keeps its receipt after the open and after a cancellation. -/
def State.keepsReceipt : State → Bool
  | .submitted | .consumed | .cancelled => true
  | .waiting | .uploading | .unavailable => false

/-- What a finalization may copy from the row. -/
def RequestRow.objectAttempt (cfg : Config) (row : RequestRow) : Except Err ObjectAttempt :=
  match row.uploadKey, row.finalKey, row.sizeBytes with
  | some uploadKey, some finalKey, some sizeBytes =>
    if cfg.objects = false ∨ sizeBytes < 0 ∨ cfg.maxObjectBytes < sizeBytes then .error .storage
    else .ok ⟨uploadKey, finalKey, sizeBytes, row.ciphertextSHA256⟩
  | _, _, _ => .error .storage

/-- The first transaction of `Finalize`; `attempt` is the hash of the attempt token. -/
def finalizeTx (cfg : Config) (env : Env) (id token : String) (generation : Int) (attempt : Bytes)
    (db : DB) : Outcome DB Err (Option FinalizeStart) :=
  transact cfg env id token false db fun row =>
    if generation ≠ row.generation then
      .rollback .unavailable
    else if row.attemptTokenHash ≠ some attempt then
      .rollback .conflict
    else if row.state ≠ .uploading then
      if row.state.keepsReceipt = false then
        .rollback .conflict
      else
        commit (env.now 2) row.expiresAt db (.receipt ⟨row.generation, .submitted⟩)
    else
      match row.objectAttempt cfg with
      | .error err => .rollback err
      | .ok a => commit (env.now 2) row.expiresAt db (.copy a)

/-- `copyVerified` up to the write: the bytes it puts under the final key.  `opened` is the
uploaded object with the length the bucket declares. -/
def copyVerified (cfg : Config) (a : ObjectAttempt) (opened : Option (Bytes × Int)) :
    Except Err Bytes :=
  match opened with
  | none => .error .storage
  | some (body, length) =>
    if length ≠ a.sizeBytes then
      .error .invalid
    else
      let copied := body.take length.toNat
      if length < 1 ∨ (copied.length : Int) ≠ length then
        .error .storage
      else if isAgeFile (copied.take ageMagic.length) = false ∨
          a.checksum ≠ some (cfg.sha256 copied) then
        .error .invalid
      else
        .ok copied

/-- The guard and the columns of the acceptance. -/
def RequestRow.acceptable (id : String) (generation : Int) (finalKey : String) (row : RequestRow) :
    Bool :=
  row.uploadingAt id generation && decide (row.finalKey = some finalKey)

def RequestRow.accept (row : RequestRow) : RequestRow :=
  { row with state := .submitted, uploadKey := none, reservationExpiresAt := none }

/-- The second transaction of `Finalize`. -/
def acceptTx (cfg : Config) (env : Env) (id token : String) (generation : Int) (attempt : Bytes)
    (a : ObjectAttempt) (db : DB) : Outcome DB Err (Option Receipt) :=
  transact cfg env id token false db fun row =>
    if generation ≠ row.generation then
      .rollback .unavailable
    else if row.attemptTokenHash ≠ some attempt then
      .rollback .conflict
    else if row.state ≠ .uploading then
      if row.state.keepsReceipt = false then
        .rollback .conflict
      else
        commit (env.now 2) row.expiresAt db ⟨row.generation, .submitted⟩
    else if row.finalKey ≠ some a.finalKey ∨ row.ciphertextSHA256 ≠ a.checksum then
      .rollback .conflict
    else if Table.affected (RequestRow.acceptable id generation a.finalKey) db.requests ≠ 1 then
      .rollback .conflict
    else
      match enqueueObjectTx cfg env 0 a.uploadKey .orphan (env.now 2) db.outbox with
      | .error err => .rollback err
      | .ok outbox =>
        if row.reservationExpires ≤ env.now 3 then
          .rollback .unavailable
        else
          commit (env.now 4) row.expiresAt
            { db with
              outbox := outbox
              requests := Table.update (RequestRow.acceptable id generation a.finalKey)
                RequestRow.accept db.requests }
            ⟨row.generation, .submitted⟩

/-! ### Abandon -/

/-- `Abandon`. -/
def abandon (cfg : Config) (env : Env) (id token : String) (input : AttemptInput) (db : DB) :
    Outcome DB Err (Option Receipt) :=
  match validateAttempt cfg input with
  | .error err => .rollback err
  | .ok attempt =>
    transact cfg env id token false db fun row =>
      if row.generation ≠ input.generation then
        .rollback .unavailable
      else if row.state ≠ .uploading ∨ row.attemptTokenHash ≠ some attempt then
        .rollback .conflict
      else
        match endReservationTx cfg env 0 id row.generation (env.now 2) db with
        | .error err => .rollback err
        | .ok db =>
          if row.expiresAt ≤ env.now 3 then
            .rollback .unavailable
          else if row.generation = maxGeneration then
            .commit db (.error .unavailable)
          else
            .commit db (.ok (some ⟨row.generation + 1, .waiting⟩))

end Requests
end FlickDrop
