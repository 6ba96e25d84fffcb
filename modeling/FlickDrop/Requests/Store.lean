import FlickDrop.Requests.Cleanup

/-!
# The request store

Model of `internal/requests/store.go`: creation, the transaction every other operation
starts with, the status pages, inline submission, the status of an attempt, the owner's
open and cancellation.

`begin` ends an elapsed reservation in a transaction of its own and then starts over.
An operation whose `begin` did so answers `none`: it has committed that much and runs
again.
-/

namespace FlickDrop
namespace Requests

open Foundations Events

/-- The `state` of a receipt. -/
inductive ReceiptState where
  | submitted
  | accepted
  | uploading
  | waiting
  | unavailable
  deriving DecidableEq, Repr

structure Receipt where
  generation : Int
  state : ReceiptState
  deriving DecidableEq, Repr

/-! ### Creation -/

/-- The row `Create` inserts. -/
def newRow (id publicKey fingerprint : String) (submissionTokenHash retrievalTokenHash : Bytes)
    (expiresAt : Nat) : RequestRow where
  id := id
  publicKey := publicKey
  fingerprint := fingerprint
  submissionTokenHash := submissionTokenHash
  retrievalTokenHash := retrievalTokenHash
  state := .waiting
  generation := 1
  attemptTokenHash := none
  attemptBodyHash := none
  kind := none
  sizeBytes := none
  envelopeJSON := none
  storageBackend := .sqliteBlob
  uploadKey := none
  finalKey := none
  ciphertextSHA256 := none
  reservationExpiresAt := none
  consumedAt := none
  expiresAt := expiresAt

structure Created where
  id : String
  expiresAt : Nat
  submissionToken : String
  retrievalToken : String
  deriving DecidableEq, Repr

/-- `Create`; `rawID`, `rawSubmit` and `rawRetrieve` are the random bytes it draws. -/
def create (cfg : Config) (now : Nat) (rawID rawSubmit rawRetrieve : Bytes) (publicKey : String)
    (ttl : Option Int) (db : DB) : Except Err (DB × Created) :=
  match cfg.publicKeyFingerprint publicKey with
  | none => .error .invalid
  | some fingerprint =>
    let seconds := ttl.getD cfg.defaultTTLSeconds
    if seconds < cfg.minTTLSeconds ∨ cfg.maxTTLSeconds < seconds then
      .error .invalid
    else
      let id := rawURLEncoding.encodeToString rawID
      let submit := rawURLEncoding.encodeToString rawSubmit
      let retrieve := rawURLEncoding.encodeToString rawRetrieve
      match tokenHash cfg.sha256 submit, tokenHash cfg.sha256 retrieve with
      | .ok submitHash, .ok retrieveHash =>
        let expires := now + seconds.toNat * second
        if (Table.lookup RequestRow.id id db.requests).isSome then
          .error .other
        else
          .ok ({ db with
              requests := db.requests ++
                [newRow id publicKey fingerprint submitHash retrieveHash expires] },
            ⟨id, expires, submit, retrieve⟩)
      | _, _ => .error .other

/-! ### Transactions -/

/-- The hash a role has to present. -/
def RequestRow.capability (owner : Bool) (row : RequestRow) : Bytes :=
  if owner then row.retrievalTokenHash else row.submissionTokenHash

/-- `reservationExpires` of a record; the zero time stands for `null`. -/
def RequestRow.reservationExpires (row : RequestRow) : Nat := row.reservationExpiresAt.getD 0

/-- `authorized`. -/
def authorized (now : Nat) (id : String) (hash : Bytes) (owner : Bool) (rows : List RequestRow) :
    Except Err RequestRow :=
  match Table.lookup RequestRow.id id rows with
  | none => .error .unavailable
  | some row =>
    if hash ≠ row.capability owner then
      .error .unavailable
    else if row.state = .unavailable ∨ row.expiresAt ≤ now then
      .error .unavailable
    else
      .ok row

/-- How one pass of `begin` ends. -/
inductive Begun where
  | failed (err : Err)
  /-- an elapsed reservation was ended and committed -/
  | ended (db : DB)
  /-- the transaction is open, on this row -/
  | opened (row : RequestRow)

/-- One pass of `begin`. -/
def begin (cfg : Config) (env : Env) (id token : String) (owner : Bool) (db : DB) : Begun :=
  match tokenHash cfg.sha256 token with
  | .error _ => .failed .unavailable
  | .ok hash =>
    match authorized (env.now 0) id hash owner db.requests with
    | .error err => .failed err
    | .ok row =>
      if row.state = .uploading ∧ row.reservationExpires ≤ env.now 1 then
        match endReservationTx cfg env 0 id row.generation (env.now 2) db with
        | .error err => .failed err
        | .ok db => if row.expiresAt ≤ env.now 3 then .failed .unavailable else .ended db
      else
        .opened row

/-- `commit` of a transaction on a request that expires at `expires`. -/
def commit {Answer : Type} (now expires : Nat) (db : DB) (answer : Answer) :
    Outcome DB Err (Option Answer) :=
  if expires ≤ now then .rollback .unavailable else .commit db (.ok (some answer))

/-- An operation on the row its `begin` found; its own clock readings start at 2. -/
def transact {Answer : Type} (cfg : Config) (env : Env) (id token : String) (owner : Bool) (db : DB)
    (body : RequestRow → Outcome DB Err (Option Answer)) : Outcome DB Err (Option Answer) :=
  match begin cfg env id token owner db with
  | .failed err => .rollback err
  | .ended db => .commit db (.ok none)
  | .opened row => body row

/-! ### Status pages -/

/-- How the plain read of `read` ends. -/
inductive Seen where
  | row (row : RequestRow)
  /-- the reservation has elapsed, `refresh` comes next -/
  | elapsed
  deriving DecidableEq, Repr

/-- `read` up to its transaction. -/
def read (cfg : Config) (env : Env) (id token : String) (owner : Bool) (db : DB) :
    Except Err Seen :=
  match tokenHash cfg.sha256 token with
  | .error _ => .error .unavailable
  | .ok hash =>
    match authorized (env.now 0) id hash owner db.requests with
    | .error err => .error err
    | .ok row =>
      if row.state = .uploading ∧ row.reservationExpires ≤ env.now 1 then .ok .elapsed
      else .ok (.row row)

/-- The transaction of `read`. -/
def refresh (cfg : Config) (env : Env) (id token : String) (owner : Bool) (db : DB) :
    Outcome DB Err (Option RequestRow) :=
  transact cfg env id token owner db fun row => commit (env.now 2) row.expiresAt db row

structure Instructions where
  publicKey : String
  fingerprint : String
  expiresAt : Nat
  generation : Int
  canSubmit : Bool
  deriving DecidableEq, Repr

structure OwnerStatus where
  publicKey : String
  fingerprint : String
  expiresAt : Nat
  state : State
  deriving DecidableEq, Repr

/-- What `Instructions` shows of a row. -/
def RequestRow.instructions (row : RequestRow) : Instructions :=
  ⟨row.publicKey, row.fingerprint, row.expiresAt, row.generation, decide (row.state = .waiting)⟩

/-- What `Owner` shows of a row. -/
def RequestRow.ownerStatus (row : RequestRow) : OwnerStatus :=
  ⟨row.publicKey, row.fingerprint, row.expiresAt, row.state⟩

/-! ### Submission -/

structure SubmitInput where
  generation : Int
  attemptToken : String
  kind : Kind
  sizeBytes : Int
  envelope : Bytes
  ciphertext : String

/-- The bytes of a text. -/
def utf8 (s : String) : Bytes := s.toUTF8.data.toList

/-- The immutable fields of a submission, as `json.Marshal` writes a `Payload`. -/
def marshalPayload (kind : Kind) (sizeBytes : Int) (envelope ciphertext : String) : String :=
  "\x7b\"kind\":" ++ jsonText kind.name ++ ",\"size_bytes\":" ++ toString sizeBytes ++
    ",\"envelope\":" ++ envelope ++ ",\"ciphertext\":" ++ jsonText ciphertext ++ "\x7d"

/-- A usable generation number. -/
def validGeneration (generation : Int) : Bool :=
  decide (1 ≤ generation) && decide (generation ≤ maxGeneration)

/-- `validateSubmission`: the attempt hash, the envelope and the body. -/
def validateSubmission (cfg : Config) (input : SubmitInput) : Except Err (Bytes × String × Bytes) :=
  if validGeneration input.generation = false ∨ input.sizeBytes < 0 ∨
      (input.kind ≠ .text ∧ input.kind ≠ .file) then
    .error .invalid
  else
    match tokenHash cfg.sha256 input.attemptToken with
    | .error err => .error err
    | .ok attempt =>
      if cfg.payloadInlineMaxBytes < input.sizeBytes ∨
          (input.kind = .file ∧ cfg.maxObjectBytes < input.sizeBytes) then
        .error .tooLarge
      else
        match validateEnvelope cfg.decodeEnvelope input.envelope input.kind with
        | .error err => .error err
        | .ok envelope =>
          if (cfg.payloadInlineMaxBytes + 2).tdiv 3 * 4 < input.ciphertext.utf8ByteSize then
            .error .tooLarge
          else
            match canonicalBase64 input.ciphertext input.sizeBytes.toNat
                input.sizeBytes.toNat with
            | .error _ => .error .invalid
            | .ok ciphertext =>
              if isAgeFile ciphertext then .ok (attempt, envelope, ciphertext)
              else .error .invalid

/-- The guard of the writes that leave `waiting`. -/
def RequestRow.waitingAt (id : String) (generation : Int) (row : RequestRow) : Bool :=
  decide (row.id = id) && decide (row.state = .waiting) && decide (row.generation = generation)

/-- The columns an inline submission sets. -/
def RequestRow.submit (attempt bodyHash : Bytes) (kind : Kind) (sizeBytes : Int) (envelope : String)
    (row : RequestRow) : RequestRow :=
  { row with
    state := .submitted
    attemptTokenHash := some attempt
    attemptBodyHash := some bodyHash
    kind := some kind
    sizeBytes := some sizeBytes
    envelopeJSON := some envelope }

/-- `Submit`. -/
def submit (cfg : Config) (env : Env) (id token : String) (input : SubmitInput) (db : DB) :
    Outcome DB Err (Option Receipt) :=
  match validateSubmission cfg input with
  | .error err => .rollback err
  | .ok (attempt, envelope, ciphertext) =>
    let bodyHash :=
      cfg.sha256 (utf8 (marshalPayload input.kind input.sizeBytes envelope input.ciphertext))
    transact cfg env id token false db fun row =>
      if input.generation ≠ row.generation then
        .rollback .unavailable
      else if row.state = .uploading then
        .rollback .conflict
      else if row.state ≠ .waiting then
        if row.attemptTokenHash ≠ some attempt ∨ row.attemptBodyHash ≠ some bodyHash then
          .rollback .conflict
        else
          commit (env.now 2) row.expiresAt db ⟨input.generation, .submitted⟩
      else if Table.affected (RequestRow.waitingAt id input.generation) db.requests ≠ 1 then
        .rollback .conflict
      else if (Table.lookup Payload.requestID id db.payloads).isSome then
        .rollback .other
      else
        commit (env.now 2) row.expiresAt
          { db with
            requests := Table.update (RequestRow.waitingAt id input.generation)
              (RequestRow.submit attempt bodyHash input.kind input.sizeBytes envelope) db.requests
            payloads := db.payloads ++ [⟨id, ciphertext⟩] }
          ⟨input.generation, .submitted⟩

/-- What `Attempt` says about an attempt of the row's generation.  A hash is never empty,
so a `null` column differs from it. -/
def RequestRow.verdict (attempt : Bytes) (row : RequestRow) : ReceiptState :=
  if row.attemptTokenHash = some attempt then
    if row.state = .uploading then .uploading else .accepted
  else if row.state = .waiting then
    .waiting
  else
    .unavailable

/-- `Attempt`. -/
def attempt (cfg : Config) (env : Env) (id token : String) (generation : Int)
    (attemptToken : String) (db : DB) : Outcome DB Err (Option Receipt) :=
  if validGeneration generation = false then
    .rollback .invalid
  else
    match tokenHash cfg.sha256 attemptToken with
    | .error err => .rollback err
    | .ok attempt =>
      transact cfg env id token false db fun row =>
        if generation ≠ row.generation then
          .rollback .unavailable
        else
          commit (env.now 2) row.expiresAt db ⟨generation, row.verdict attempt⟩

/-! ### Open and cancellation -/

/-- The guard of `clearPayloadTx`. -/
def RequestRow.stateIs (id : String) (state : State) (row : RequestRow) : Bool :=
  decide (row.id = id) && decide (row.state = state)

/-- The columns `clearPayloadTx` sets.  Only an accepted attempt keeps its hashes. -/
def RequestRow.clear (state : State) (now : Nat) (row : RequestRow) : RequestRow :=
  { row with
    state := state
    attemptTokenHash := if row.state = .uploading then none else row.attemptTokenHash
    attemptBodyHash := if row.state = .uploading then none else row.attemptBodyHash
    kind := none
    sizeBytes := none
    envelopeJSON := none
    uploadKey := none
    finalKey := none
    reservationExpiresAt := none
    ciphertextSHA256 := none
    consumedAt := if state = .consumed then some now else row.consumedAt }

/-- `clearPayloadTx`. -/
def clearPayloadTx (cfg : Config) (env : Env) (id : String) (previousState state : State)
    (reason : Reason) (db : DB) : Except Err DB :=
  match enqueueRequestKeysTx cfg env 0 id reason (env.now 2) db with
  | .error err => .error err
  | .ok outbox =>
    if Table.affected (RequestRow.stateIs id previousState) db.requests ≠ 1 then
      .error .conflict
    else
      .ok { db with
        outbox := outbox
        payloads := Table.delete (fun p => decide (p.requestID = id)) db.payloads
        requests := Table.update (RequestRow.stateIs id previousState)
          (RequestRow.clear state (env.now 3)) db.requests }

/-- What an open hands out; the envelope is kept as its text. -/
structure Opened where
  kind : Kind
  sizeBytes : Int
  envelope : String
  body : Bytes
  objectKey : String
  deriving DecidableEq, Repr

/-- How the first transaction of `Open` ends. -/
inductive Opening where
  /-- an inline body, consumed -/
  | inline (opened : Opened)
  /-- an object to be read before anything is consumed; nothing was written -/
  | object (kind : Kind) (sizeBytes : Int) (envelope : String) (key : Option String)
  deriving DecidableEq, Repr

/-- The inline body, as the left join reads it. -/
def payloadOf (id : String) (payloads : List Payload) : Bytes :=
  match Table.lookup Payload.requestID id payloads with
  | some payload => payload.ciphertext
  | none => []

/-- The first transaction of `Open`. -/
def openTx (cfg : Config) (env : Env) (id token : String) (db : DB) :
    Outcome DB Err (Option Opening) :=
  transact cfg env id token true db fun row =>
    if row.state ≠ .submitted then
      .rollback .conflict
    else
      match row.kind, row.sizeBytes, row.envelopeJSON with
      | some kind, some sizeBytes, some envelope =>
        if row.storageBackend ≠ .s3Object then
          if ((payloadOf id db.payloads).length : Int) ≠ sizeBytes then
            .rollback .storage
          else
            match clearPayloadTx cfg env id row.state .consumed .consumed db with
            | .error err => .rollback err
            | .ok cleared =>
              commit (env.now 4) row.expiresAt cleared
                (.inline ⟨kind, sizeBytes, envelope, payloadOf id db.payloads, ""⟩)
        else
          .commit db (.ok (some (.object kind sizeBytes envelope row.finalKey)))
      | _, _, _ => .rollback .other

/-- The guard and the columns of `consumeObject`: the final key stays. -/
def RequestRow.holdsObject (id : String) (state : State) (key : String) (row : RequestRow) : Bool :=
  decide (row.id = id) && decide (row.state = state) && decide (row.finalKey = some key)

def RequestRow.consumeObject (now : Nat) (row : RequestRow) : RequestRow :=
  { row with
    state := .consumed
    consumedAt := some now
    kind := none
    sizeBytes := none
    envelopeJSON := none
    ciphertextSHA256 := none }

/-- `consumeObject`. -/
def consumeObject (cfg : Config) (env : Env) (id token key : String) (db : DB) :
    Outcome DB Err (Option Unit) :=
  transact cfg env id token true db fun row =>
    if row.state ≠ .submitted then
      .rollback .conflict
    else if Table.affected (RequestRow.holdsObject id .submitted key) db.requests ≠ 1 then
      .rollback .conflict
    else
      commit (env.now 3) row.expiresAt
        { db with
          requests := Table.update (RequestRow.holdsObject id .submitted key)
            (RequestRow.consumeObject (env.now 2)) db.requests }
        ()

/-- The key an open may read: the rest of `Open` before it consumes.  `object` is what the
bucket answers. -/
def openObject (cfg : Config) (object : Option (Bytes × Int)) (sizeBytes : Int) :
    Option String → Except Err (Bytes × String)
  | none => .error .storage
  | some key =>
    if cfg.objects = false ∨ sizeBytes < 0 ∨ cfg.maxObjectBytes < sizeBytes then
      .error .storage
    else
      match object with
      | none => .error .storage
      | some (body, length) => if length ≠ sizeBytes then .error .storage else .ok (body, key)

def RequestRow.releaseObject (row : RequestRow) : RequestRow :=
  { row with finalKey := none }

/-- `FinishOpen`; a repeated call finds no row and changes nothing. -/
def finishOpen (cfg : Config) (env : Env) (id key : String) (db : DB) : Except Err DB :=
  if Table.affected (RequestRow.holdsObject id .consumed key) db.requests = 0 then
    .ok db
  else
    match enqueueObjectTx cfg env 0 key .consumed (env.now 0) db.outbox with
    | .error err => .error err
    | .ok outbox =>
      .ok { db with
        outbox := outbox
        requests := Table.update (RequestRow.holdsObject id .consumed key)
          RequestRow.releaseObject db.requests }

/-- `Revoke`. -/
def revoke (cfg : Config) (env : Env) (id token : String) (db : DB) :
    Outcome DB Err (Option Unit) :=
  transact cfg env id token true db fun row =>
    if row.state = .consumed then
      .rollback .conflict
    else
      match clearPayloadTx cfg env id row.state .cancelled .manual db with
      | .error err => .rollback err
      | .ok db => commit (env.now 4) row.expiresAt db ()

end Requests
end FlickDrop
