import FlickDrop.Events.Reconciliation
import FlickDrop.Requests.Validation

/-!
# Request rows and their cleanup

The tables of `internal/db/requests.go` and the model of `internal/requests/cleanup.go`:
the delete jobs of request objects, the end of a reservation, the purge of expired
requests and the protection test of the object scanner.

Stored timestamps have a fixed width, so their texts compare like the instants they
stand for; an instant is a `Nat` here.
-/

namespace FlickDrop
namespace Requests

open Foundations Events

def openStreamTimeout : Nat := 30 * minute

def openObjectGrace : Nat := openStreamTimeout + 5 * minute

inductive State where
  | waiting
  | uploading
  | submitted
  | consumed
  | cancelled
  | unavailable
  deriving DecidableEq, Repr

inductive Backend where
  | sqliteBlob
  | s3Object
  deriving DecidableEq, Repr

structure RequestRow where
  id : String
  publicKey : String
  fingerprint : String
  submissionTokenHash : Bytes
  retrievalTokenHash : Bytes
  state : State
  generation : Int
  attemptTokenHash : Option Bytes
  attemptBodyHash : Option Bytes
  kind : Option Kind
  sizeBytes : Option Int
  envelopeJSON : Option String
  storageBackend : Backend
  uploadKey : Option String
  finalKey : Option String
  ciphertextSHA256 : Option Bytes
  reservationExpiresAt : Option Nat
  consumedAt : Option Nat
  expiresAt : Nat
  deriving DecidableEq, Repr

structure Payload where
  requestID : String
  ciphertext : Bytes
  deriving DecidableEq, Repr

/-- The tables this package writes. -/
structure DB where
  requests : List RequestRow
  payloads : List Payload
  outbox : List OutboxRow
  book : Book
  deriving DecidableEq

def DB.empty : DB := ⟨[], [], [], Book.fresh⟩

/-- `Options` with the codec and the subject of the outbox, the hash, the decoder of
envelopes and `publicKeyFingerprint`.  `objects` and `outbox` say whether they are
configured. -/
structure Config where
  codec : Codec
  subject : String
  sha256 : Bytes → Bytes
  decodeEnvelope : Bytes → Option Envelope
  publicKeyFingerprint : String → Option String
  payloadInlineMaxBytes : Int
  maxObjectBytes : Int
  minTTLSeconds : Int
  defaultTTLSeconds : Int
  maxTTLSeconds : Int
  objects : Bool
  outbox : Bool

/-- What a transaction takes from its environment: the clock readings in their order, the
readings of the outbox's own clock, and the draws. -/
structure Env where
  now : Nat → Nat
  outboxNow : Nat → Nat
  draws : Draws

/-! ### Delete jobs -/

/-- `enqueueObjectTx` with the `i`-th job id. -/
def enqueueObjectTx (cfg : Config) (env : Env) (i : Nat) (key : String) (reason : Reason)
    (now : Nat) (outbox : List OutboxRow) : Except Err (List OutboxRow) :=
  if Area.requests.owns key = false ∨ cfg.outbox = false then
    .error .storage
  else
    match env.draws.newJobID i with
    | none => .error .other
    | some jobID =>
      match enqueueTx cfg.codec cfg.subject env.draws.carrier (env.outboxNow i)
          (objectEvent jobID key reason now) outbox with
      | .error _ => .error .other
      | .ok outbox => .ok outbox

/-- The loop over the keys of a row; a key that is `null` is skipped. -/
def enqueueKeysTx (cfg : Config) (env : Env) (reason : Reason) (now : Nat) :
    Nat → List (Option String) → List OutboxRow → Except Err (List OutboxRow)
  | _, [], outbox => .ok outbox
  | i, none :: rest, outbox => enqueueKeysTx cfg env reason now (i + 1) rest outbox
  | i, some key :: rest, outbox =>
    match enqueueObjectTx cfg env i key reason now outbox with
    | .error err => .error err
    | .ok outbox => enqueueKeysTx cfg env reason now (i + 1) rest outbox

/-- `enqueueRequestKeysTx`; the job ids start at the `i`-th. -/
def enqueueRequestKeysTx (cfg : Config) (env : Env) (i : Nat) (id : String) (reason : Reason)
    (now : Nat) (db : DB) : Except Err (List OutboxRow) :=
  match Table.lookup RequestRow.id id db.requests with
  | none => .error .other
  | some row => enqueueKeysTx cfg env reason now i [row.uploadKey, row.finalKey] db.outbox

/-! ### The end of a reservation -/

/-- The guard of `endReservationTx`. -/
def RequestRow.uploadingAt (id : String) (generation : Int) (row : RequestRow) : Bool :=
  decide (row.id = id) && decide (row.state = .uploading) && decide (row.generation = generation)

/-- The columns of `endReservationTx`: the next generation waits, after the last one the
request is unavailable. -/
def RequestRow.endReservation (generation : Int) (row : RequestRow) : RequestRow :=
  { row with
    state := if generation = maxGeneration then .unavailable else .waiting
    generation := if generation = maxGeneration then generation else generation + 1
    storageBackend := .sqliteBlob
    attemptTokenHash := none
    attemptBodyHash := none
    kind := none
    sizeBytes := none
    envelopeJSON := none
    uploadKey := none
    finalKey := none
    ciphertextSHA256 := none
    reservationExpiresAt := none }

/-- `endReservationTx`. -/
def endReservationTx (cfg : Config) (env : Env) (i : Nat) (id : String) (generation : Int)
    (now : Nat) (db : DB) : Except Err DB :=
  match enqueueRequestKeysTx cfg env i id .orphan now db with
  | .error err => .error err
  | .ok outbox =>
    if Table.affected (RequestRow.uploadingAt id generation) db.requests ≠ 1 then
      .error .conflict
    else
      .ok { db with
        outbox := outbox
        requests := Table.update (RequestRow.uploadingAt id generation)
          (RequestRow.endReservation generation) db.requests }

/-! ### The purge -/

/-- A reservation the reaper ends at `now`. -/
def RequestRow.elapsed (now : Nat) (row : RequestRow) : Bool :=
  decide (row.state = .uploading) && row.reservationExpiresAt.any (fun t => decide (t ≤ now)) &&
    decide (now < row.expiresAt)

/-- An opened object may still be streaming.  Without `consumed_at` the comparison is
`null`, and the row is left alone. -/
def RequestRow.streaming (now : Nat) (row : RequestRow) : Bool :=
  decide (row.state = .consumed) && row.finalKey.isSome &&
    match row.consumedAt with
    | none => true
    | some consumed => decide (now < consumed + openObjectGrace)

/-- A request the reaper deletes at `now`. -/
def RequestRow.purgeable (now : Nat) (row : RequestRow) : Bool :=
  decide (row.expiresAt ≤ now) && !row.streaming now

/-- `order by` an instant and then the id. -/
def orderedBy (instant : RequestRow → Nat) (a b : RequestRow) : Bool :=
  decide (instant a < instant b) || decide (instant a = instant b) && decide (a.id ≤ b.id)

/-- `delete from requests where id = ?`, with the payload it cascades to. -/
def deleteRequest (id : String) (db : DB) : DB :=
  { db with
    requests := Table.delete (fun row => decide (row.id = id)) db.requests
    payloads := Table.delete (fun p => decide (p.requestID = id)) db.payloads }

/-- The loop over the elapsed reservations; each of them may use two job ids. -/
def endReservations (cfg : Config) (env : Env) (now : Nat) :
    Nat → List RequestRow → DB → Except Err DB
  | _, [], db => .ok db
  | i, c :: rest, db =>
    match endReservationTx cfg env i c.id c.generation now db with
    | .error err => .error err
    | .ok db => endReservations cfg env now (i + 2) rest db

/-- The loop over the expired requests. -/
def purgeRequests (cfg : Config) (env : Env) (now : Nat) :
    Nat → List RequestRow → DB → Except Err DB
  | _, [], db => .ok db
  | i, c :: rest, db =>
    match enqueueRequestKeysTx cfg env i c.id .expired now db with
    | .error err => .error err
    | .ok outbox =>
      purgeRequests cfg env now (i + 2) rest (deleteRequest c.id { db with outbox := outbox })

/-- `PurgeExpiredTx`. -/
def purgeExpiredTx (cfg : Config) (env : Env) (now limit : Nat) (db : DB) : Except Err DB :=
  let pending := ((db.requests.filter (RequestRow.elapsed now)).mergeSort
    (orderedBy fun row => row.reservationExpiresAt.getD 0)).take limit
  match endReservations cfg env now 0 pending db with
  | .error err => .error err
  | .ok db =>
    let expired := ((db.requests.filter (RequestRow.purgeable now)).mergeSort
      (orderedBy RequestRow.expiresAt)).take limit
    purgeRequests cfg env now (2 * pending.length) expired db

/-! ### The scanner -/

/-- The row protects the object from the scanner at `now`. -/
def RequestRow.protects (now : Nat) (key : String) (row : RequestRow) : Bool :=
  decide (row.state = .consumed) && decide (row.finalKey = some key) &&
      row.consumedAt.any (fun consumed => decide (now < consumed + openObjectGrace)) ||
    decide (now < row.expiresAt) &&
      (decide (row.state = .submitted) && decide (row.finalKey = some key) ||
        decide (row.state = .uploading) &&
          row.reservationExpiresAt.any (fun t => decide (now < t)) &&
          (decide (row.uploadKey = some key) || decide (row.finalKey = some key)))

/-- The environment of the scan transaction of `ReconcileOnce`. -/
def scanEnv (cfg : Config) (env : Env) (now : Nat) (rows : List RequestRow) : ScanEnv where
  codec := cfg.codec
  subject := cfg.subject
  carrier := env.draws.carrier
  area := .requests
  protect := fun key => .ok (rows.any (RequestRow.protects now key))
  now := now
  newJobID := env.draws.newJobID
  enqueueNow := env.outboxNow

end Requests
end FlickDrop
