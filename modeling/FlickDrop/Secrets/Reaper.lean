import FlickDrop.Secrets.Management

/-!
# The reaper

Model of `internal/secrets/reaper.go` and of the protection test of
`internal/secrets/reconciliation.go`.  One transaction claims the dead rows, removes
them, purges management records and, in the same transaction, purges the request
tables; that last part is an argument here, since it shares nothing but the outbox.
-/

namespace FlickDrop
namespace Secrets

open Foundations Events

/-- The condition of `claimReclaimableSQL`.  Its text comparisons order instants. -/
def SecretRow.reclaimable (pendingTTL now : Nat) (row : SecretRow) : Bool :=
  row.reclaimEnqueuedAt.isNone && row.consumedAt.isNone &&
    (decide (row.expiresAt ≤ now) ||
      (decide (row.state = .pendingUpload) && decide (row.createdAt + pendingTTL ≤ now)))

/-- The sort key of `claimReclaimableSQL`, in whole seconds. -/
def SecretRow.reclaimableSince (pendingTTL : Nat) (row : SecretRow) : Nat :=
  match row.state with
  | .active => row.expiresAt / second
  | .pendingUpload =>
    min (row.expiresAt / second) ((row.createdAt + pendingTTL / second * second) / second)

def SecretRow.claim (now : Nat) (row : SecretRow) : SecretRow :=
  { row with reclaimEnqueuedAt := some now, updatedAt := now }

/-- `claimReclaimableSQL`: the rows it returns and the table after it. -/
def claimReclaimable (pendingTTL now limit : Nat) (rows : List SecretRow) :
    List SecretRow × List SecretRow :=
  let candidates := ((rows.filter (SecretRow.reclaimable pendingTTL now)).mergeSort fun a b =>
    decide (a.reclaimableSince pendingTTL ≤ b.reclaimableSince pendingTTL)).take limit
  (candidates, Table.update (fun row => decide (row.id ∈ candidates.map SecretRow.id))
    (SecretRow.claim now) rows)

/-- `reclaimRow` for the `i`-th claimed row. -/
def reclaimRow (cfg : Config) (now : Nat → Nat) (draws : Draws) (i : Nat) (c : SecretRow)
    (db : DB) : Except Err DB :=
  let db :=
    if c.state = .pendingUpload then
      { db with management := recordManagementOutcomeTx c.id .unavailable db.management }
    else db
  match reclaimTx c.id db with
  | .error err => .error err
  | .ok db =>
    if c.storageBackend ≠ .s3Object then
      .ok db
    else
      enqueueObject cfg draws i (now (i + 1)) c.storageKey
        (if c.state = .pendingUpload then .orphan else .expired) (now 0)
        ("generate object delete job id for " ++ c.id) ("enqueue object delete for " ++ c.id) db

/-- The loop over the claimed rows. -/
def reclaimRows (cfg : Config) (now : Nat → Nat) (draws : Draws) :
    Nat → List SecretRow → DB → Except Err DB
  | _, [], db => .ok db
  | i, c :: rest, db =>
    match reclaimRow cfg now draws i c db with
    | .error err => .error err
    | .ok db => reclaimRows cfg now draws (i + 1) rest db

/-- `claimExpired`: the claimed batch, whose length is the count it returns.  Reading 0
is taken before the transaction; `purgeRequests` is `requests.PurgeExpiredTx`. -/
def claimExpired (cfg : Config) (julian : JulianDay) (batchSize : Nat) (now : Nat → Nat)
    (draws : Draws) (purgeRequests : List OutboxRow → Except Unit (List OutboxRow)) (db : DB) :
    Except Err (DB × List SecretRow) :=
  let (batch, rows) := claimReclaimable cfg.pendingTTL (now 0) batchSize db.secrets
  match reclaimRows cfg now draws 0 batch { db with secrets := rows } with
  | .error err => .error err
  | .ok db =>
    let db := purgeManagementTx julian (now 0) batchSize db
    match purgeRequests db.outbox with
    | .error () => .error (.other "purge expired requests")
    | .ok outbox => .ok ({ db with outbox := outbox }, batch)

/-- `protectObjectTx`. -/
def protectObjectTx (pendingTTL now : Nat) (key : String) (rows : List SecretRow) : Bool :=
  match rows.find? fun row => decide (row.storageBackend = .s3Object) &&
      decide (row.storageKey = key) && row.reclaimEnqueuedAt.isNone with
  | none => false
  | some row =>
    match row.consumedAt with
    | some consumed => decide (now < consumed + openObjectGrace)
    | none =>
      if row.expiresAt ≤ now then
        false
      else
        match row.state with
        | .active => true
        | .pendingUpload => decide (now < row.createdAt + pendingTTL)

end Secrets
end FlickDrop
