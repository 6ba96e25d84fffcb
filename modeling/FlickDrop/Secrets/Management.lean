import FlickDrop.Secrets.Store

/-!
# Sender management

Model of `internal/secrets/management.go`: the sender's status page, cancellation, and
the purge of management records after their expiry.
-/

namespace FlickDrop
namespace Secrets

open Foundations Events

/-- A recorded outcome, or else the state of the row. -/
inductive Status where
  | recorded (outcome : ManagementOutcome)
  | active
  | pendingUpload
  deriving DecidableEq, Repr

structure ManagementStatus where
  id : String
  status : Status
  expiresAt : Nat
  canCancel : Bool
  deriving DecidableEq, Repr

/-- The raw bytes of a token in its one accepted spelling. -/
def tokenBytes (token : String) : Option Bytes :=
  if token.utf8ByteSize ≠ 43 then
    none
  else
    match rawURLEncoding.asStrict.decodeString token with
    | none => none
    | some raw =>
      if raw.length ≠ 32 ∨ rawURLEncoding.encodeToString raw ≠ token then none else some raw

/-- The texts that are tokens. -/
theorem tokenBytes_eq_some_iff {token : String} {raw : Bytes} :
    tokenBytes token = some raw ↔ raw.length = 32 ∧ token = rawURLEncoding.encodeToString raw := by
  unfold tokenBytes
  constructor
  · intro h
    split at h
    · cases h
    split at h
    · cases h
    split at h
    · cases h
    rename_i hcanonical
    cases h
    rw [not_or, not_not, not_not] at hcanonical
    exact ⟨hcanonical.1, hcanonical.2.symm⟩
  · rintro ⟨hraw, rfl⟩
    have hlawful := Base64.rawURLEncoding_lawful
    have hsize : (rawURLEncoding.encodeToString raw).utf8ByteSize = 43 := by
      rw [Base64.utf8ByteSize_encodeToString hlawful, hraw]
      rfl
    rw [if_neg (not_not.mpr hsize), Base64.decodeString_asStrict_encodeToString hlawful]
    simp [hraw]

/-- The status of a record whose token matched and that is not expired. -/
def liveStatus (cfg : Config) (now : Nat) (record : ManagementRow) (row : Option SecretRow) :
    Except Err Status :=
  match record.outcome with
  | some outcome => .ok (.recorded outcome)
  | none =>
    match row with
    | none => .error (.other "management outcome missing")
    | some row =>
      match row.state with
      | .active => .ok .active
      | .pendingUpload =>
        if row.createdAt + cfg.pendingTTL ≤ now then .ok (.recorded .unavailable)
        else .ok .pendingUpload

/-- `management`. -/
def management (cfg : Config) (now : Nat) (id token : String) (db : DB) :
    Except Err ManagementStatus :=
  match tokenBytes token with
  | none => .error .managementUnavailable
  | some raw =>
    match Table.lookup ManagementRow.secretID id db.management with
    | none => .error .managementUnavailable
    | some record =>
      if cfg.sha256 raw ≠ record.tokenHash then
        .error .managementUnavailable
      else if record.expiresAt ≤ now then
        .error .managementUnavailable
      else
        match liveStatus cfg now record (Table.lookup SecretRow.id id db.secrets) with
        | .error err => .error err
        | .ok status =>
          .ok ⟨id, status, record.expiresAt,
            decide (status = .active) || decide (status = .pendingUpload)⟩

/-- A status page is refused alike for every reason, or comes from a record in its lifetime. -/
theorem management_cases (cfg : Config) (now : Nat) (id token : String) (db : DB) :
    management cfg now id token db = .error .managementUnavailable ∨
      ∃ m, Table.lookup ManagementRow.secretID id db.management = some m ∧ now < m.expiresAt ∧
        management cfg now id token db =
          (liveStatus cfg now m (Table.lookup SecretRow.id id db.secrets)).map fun live =>
            ⟨id, live, m.expiresAt, decide (live = .active) || decide (live = .pendingUpload)⟩ := by
  unfold management
  split
  · exact Or.inl rfl
  · split
    · exact Or.inl rfl
    · rename_i m hrecord
      split
      · exact Or.inl rfl
      · split
        · exact Or.inl rfl
        · rename_i hearly
          refine Or.inr ⟨m, hrecord, Nat.lt_of_not_le hearly, ?_⟩
          split
          · rename_i err hlive
            rw [hlive]
            rfl
          · rename_i live hlive
            rw [hlive]
            rfl

/-- What a page that was served went through. -/
theorem management_ok {cfg : Config} {now : Nat} {id token : String} {db : DB}
    {status : ManagementStatus} (h : management cfg now id token db = .ok status) :
    ∃ m live, Table.lookup ManagementRow.secretID id db.management = some m ∧ now < m.expiresAt ∧
      liveStatus cfg now m (Table.lookup SecretRow.id id db.secrets) = .ok live ∧
      status = ⟨id, live, m.expiresAt,
        decide (live = .active) || decide (live = .pendingUpload)⟩ := by
  rcases management_cases cfg now id token db with hrefused | ⟨m, hrecord, hearly, hpage⟩
  · rw [hrefused] at h
    cases h
  · rw [hpage] at h
    cases hlive : liveStatus cfg now m (Table.lookup SecretRow.id id db.secrets) with
    | error err =>
      rw [hlive] at h
      cases h
    | ok live =>
      rw [hlive] at h
      cases h
      exact ⟨m, live, hrecord, hearly, hlive, rfl⟩

/-- The guard of the cancelling delete.  The states it lists are all there are. -/
def SecretRow.cancellable (id : String) (row : SecretRow) : Bool :=
  decide (row.id = id) && row.consumedAt.isNone && row.reclaimEnqueuedAt.isNone

/-- The object job of a cancellation. -/
def enqueueCancellation (cfg : Config) (now : Nat → Nat) (draws : Draws) (row : SecretRow)
    (db : DB) : Except Err DB :=
  if row.storageBackend ≠ .s3Object then
    .ok db
  else if cfg.outbox = false then
    .error (.other "cancellation outbox is required")
  else
    enqueueObject cfg draws 0 (now 3) row.storageKey .manual
    (now 2) "" "enqueue cancellation cleanup"
      db

/-- `Revoke`.  The first status of a cancelled delivery is returned as it is. -/
def revoke (cfg : Config) (now : Nat → Nat) (draws : Draws) (id token : String) (db : DB) :
    Outcome DB Err ManagementStatus :=
  match management cfg (now 0) id token db with
  | .error err => .rollback err
  | .ok status =>
    if status.status = .recorded .cancelled then
      .commit db (.ok status)
    else if status.canCancel = false then
      .rollback .notCancellable
    else
      match Table.lookup SecretRow.id id db.secrets with
      | none => .rollback (.other "read cancellation storage")
      | some row =>
        match management cfg (now 1) id token db with
        | .error err => .rollback err
        | .ok status =>
          if status.canCancel = false then
            .rollback .notCancellable
          else if Table.affected (SecretRow.cancellable id) db.secrets ≠ 1 then
            .rollback (.other "cancellation did not claim a live delivery")
          else
            let db := deleteSecrets (SecretRow.cancellable id) db
            match enqueueCancellation cfg now draws row { db with
                management := recordManagementOutcomeTx id .cancelled db.management } with
            | .error err => .rollback err
            | .ok db =>
              .commit db (.ok { status with
                status := .recorded .cancelled, canCancel := false })

/-- SQLite's `julianday`: it keeps the order of instants and tells apart instants that are
a millisecond or more apart. -/
structure JulianDay where
  day : Int → Int
  mono : ∀ a b, a ≤ b → day a ≤ day b
  separates : ∀ a b, a + 1000000 ≤ b → day a < day b

/-- An opened object whose body may still be streaming at `now`. -/
def SecretRow.streaming (julian : JulianDay) (now : Nat) (row : SecretRow) : Bool :=
  decide (row.storageBackend = .s3Object) &&
    match row.consumedAt with
    | none => false
    | some consumed => decide (julian.day ((now : Int) - openObjectGrace) < julian.day consumed)

/-- `order by m.expires_at, m.secret_id`. -/
def ManagementRow.purgedBefore (a b : ManagementRow) : Bool :=
  decide (a.expiresAt < b.expiresAt) ||
    (decide (a.expiresAt = b.expiresAt) && decide (a.secretID ≤ b.secretID))

/-- The subquery of `purgeManagementTx`. -/
def expiredManagement (julian : JulianDay) (now limit : Nat) (db : DB) : List String :=
  let rows := db.management.filter fun m =>
    decide (m.expiresAt ≤ now) &&
      !db.secrets.any fun row => decide (row.id = m.secretID) && row.streaming julian now
  ((rows.mergeSort ManagementRow.purgedBefore).take limit).map ManagementRow.secretID

/-- `purgeManagementTx`: the second statement evaluates the subquery again. -/
def purgeManagementTx (julian : JulianDay) (now limit : Nat) (db : DB) : DB :=
  let first := expiredManagement julian now limit db
  let db := deleteSecrets (fun row => row.consumedAt.isSome && decide (row.id ∈ first)) db
  let second := expiredManagement julian now limit db
  { db with management := Table.delete (fun m => decide (m.secretID ∈ second)) db.management }

end Secrets
end FlickDrop
