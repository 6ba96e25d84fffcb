import FlickDrop.Requests.Accounts
import FlickDrop.Secrets.OneTime

/-!
# Capabilities leak nothing

A caller whose token is not the one of the role an operation asks for is an outsider.  The
answer to an outsider is computed from the input alone: it is the same in every database
and at every time, and the database stays as it is.  So an id tells an outsider nothing,
not even whether it exists.
-/

namespace FlickDrop

open Foundations

/-! ### Requests -/

namespace Requests

/-- The token is not the capability of the role on this request. -/
def Outsider (cfg : Config) (id token : String) (owner : Bool) (db : DB) : Prop :=
  ∀ hash row, tokenHash cfg.sha256 token = .ok hash →
    Table.lookup RequestRow.id id db.requests = some row → hash ≠ row.capability owner

/-- The operations on an existing request. -/
inductive Operation where
  | instructions
  | owner
  | submit (input : SubmitInput)
  | attempt (generation : Int) (attemptToken : String)
  | reserve (input : UploadInput)
  | finalize (input : AttemptInput)
  | abandon (input : AttemptInput)
  | openRequest
  | revoke

/-- Whether the operation is the owner's. -/
def Operation.needsOwner : Operation → Bool
  | .owner | .openRequest | .revoke => true
  | .instructions | .submit _ | .attempt _ _ | .reserve _ | .finalize _ | .abandon _ => false

/-- What an operation takes from its environment. -/
structure Surroundings where
  env : Env
  rawUpload : Bytes
  rawFinal : Bytes
  presign : Option String

inductive Reply where
  | instructions (instructions : Instructions)
  | owner (status : OwnerStatus)
  | receipt (receipt : Receipt)
  | upload (result : UploadResult)
  | started (start : FinalizeStart)
  | opening (opening : Opening)
  | revoked

/-- A status page, run without interruption. -/
def page (cfg : Config) (env : Env) (id token : String) (owner : Bool) (show_ : RequestRow → Reply)
    (db : DB) : Outcome DB Err (Option Reply) :=
  match read cfg env id token owner db with
  | .error err => .rollback err
  | .ok (.row row) => .commit db (.ok (some (show_ row)))
  | .ok .elapsed => (refresh cfg env id token owner db).map (Option.map show_)

/-- The operation up to the end of its first transaction. -/
def Operation.run (cfg : Config) (around : Surroundings) (id token : String) (db : DB) :
    Operation → Outcome DB Err (Option Reply)
  | .instructions =>
    page cfg around.env id token false (fun row => .instructions row.instructions) db
  | .owner => page cfg around.env id token true (fun row => .owner row.ownerStatus) db
  | .submit input => (Requests.submit cfg around.env id token input db).map (Option.map .receipt)
  | .attempt generation attemptToken =>
    (Requests.attempt cfg around.env id token generation attemptToken db).map (Option.map .receipt)
  | .reserve input =>
    (Requests.reserve cfg around.env around.rawUpload around.rawFinal around.presign id token input
      db).map (Option.map .upload)
  | .finalize input =>
    match validateAttempt cfg input with
    | .error err => .rollback err
    | .ok hash =>
      (finalizeTx cfg around.env id token input.generation hash db).map (Option.map .started)
  | .abandon input => (Requests.abandon cfg around.env id token input db).map (Option.map .receipt)
  | .openRequest => (openTx cfg around.env id token db).map (Option.map .opening)
  | .revoke => (Requests.revoke cfg around.env id token db).map (Option.map fun _ => .revoked)

/-- The error an outsider gets: that of the input, or else `ErrUnavailable`. -/
def Operation.refusal (cfg : Config) : Operation → Err
  | .submit input =>
    match validateSubmission cfg input with
    | .error err => err
    | .ok _ => .unavailable
  | .attempt generation attemptToken =>
    match validateAttempt cfg ⟨generation, attemptToken⟩ with
    | .error err => err
    | .ok _ => .unavailable
  | .reserve input =>
    match validateUpload cfg input with
    | .error err => err
    | .ok _ => .unavailable
  | .finalize input | .abandon input =>
    match validateAttempt cfg input with
    | .error err => err
    | .ok _ => .unavailable
  | .instructions | .owner | .openRequest | .revoke => .unavailable

section

variable {cfg : Config} {env : Env} {id token : String} {owner : Bool} {db : DB}

theorem Outsider.authorized (h : Outsider cfg id token owner db) {hash : Bytes}
    (hhash : tokenHash cfg.sha256 token = .ok hash) (now : Nat) :
    authorized now id hash owner db.requests = .error .unavailable := by
  unfold Requests.authorized
  cases hrow : Table.lookup RequestRow.id id db.requests with
  | none => rfl
  | some row => exact if_pos (h hash row hhash hrow)

/-- Every transaction of an outsider ends where it begins. -/
theorem Outsider.transact (h : Outsider cfg id token owner db) {Answer : Type}
    (body : RequestRow → Outcome DB Err (Option Answer)) :
    transact cfg env id token owner db body = .rollback .unavailable := by
  unfold Requests.transact begin
  cases hhash : tokenHash cfg.sha256 token with
  | error err => rfl
  | ok hash => simp only [h.authorized hhash]

theorem Outsider.page (h : Outsider cfg id token owner db) (show_ : RequestRow → Reply) :
    page cfg env id token owner show_ db = .rollback .unavailable := by
  unfold Requests.page read
  cases hhash : tokenHash cfg.sha256 token with
  | error err => rfl
  | ok hash => simp only [h.authorized hhash]

/-- **The answer to an outsider depends on the input alone.** -/
theorem Outsider.run {op : Operation} (h : Outsider cfg id token op.needsOwner db)
    (around : Surroundings) : op.run cfg around id token db = .rollback (op.refusal cfg) := by
  -- each operation validates its input and then begins; the second never succeeds
  cases op with
  | instructions | owner => exact h.page _
  | submit input =>
    simp only [Operation.run, Operation.refusal, submit]
    cases hvalid : validateSubmission cfg input with
    | error err => rfl
    | ok validated => exact congrArg (Outcome.map _) (h.transact _)
  | attempt generation attemptToken =>
    simp only [Operation.run, Operation.refusal, attempt, validateAttempt]
    by_cases hgeneration : validGeneration generation = false
    · rw [if_pos hgeneration, if_pos hgeneration]
      rfl
    · rw [if_neg hgeneration, if_neg hgeneration]
      cases hattempt : tokenHash cfg.sha256 attemptToken with
      | error err => rfl
      | ok attempt => exact congrArg (Outcome.map _) (h.transact _)
  | reserve input =>
    simp only [Operation.run, Operation.refusal, reserve]
    cases hvalid : validateUpload cfg input with
    | error err => rfl
    | ok validated => exact congrArg (Outcome.map _) (h.transact _)
  | finalize input =>
    simp only [Operation.run, Operation.refusal, finalizeTx]
    cases hvalid : validateAttempt cfg input with
    | error err => rfl
    | ok attempt => exact congrArg (Outcome.map _) (h.transact _)
  | abandon input =>
    simp only [Operation.run, Operation.refusal, abandon]
    cases hvalid : validateAttempt cfg input with
    | error err => rfl
    | ok attempt => exact congrArg (Outcome.map _) (h.transact _)
  | openRequest | revoke => exact congrArg (Outcome.map _) (h.transact _)

/-- With a hash without collisions, every token but the one of the role is an outsider's; the
token of the other role is one of them. -/
theorem Outsider.of_other (hinj : Function.Injective cfg.sha256) {row : RequestRow} {good : String}
    (hrow : Table.lookup RequestRow.id id db.requests = some row)
    (hgood : tokenHash cfg.sha256 good = .ok (row.capability owner)) (hother : token ≠ good) :
    Outsider cfg id token owner db := by
  rintro hash row' hhash hrow' rfl
  obtain rfl := Option.some.inj (hrow.symm.trans hrow')
  exact hother (tokenHash_inj hinj hhash hgood)

end

end Requests

/-! ### Sender management -/

namespace Secrets

/-- The token is not the one of the management record. -/
def Outsider (cfg : Config) (id token : String) (db : DB) : Prop :=
  ∀ raw record, tokenBytes token = some raw →
    Table.lookup ManagementRow.secretID id db.management = some record →
    cfg.sha256 raw ≠ record.tokenHash

section

variable {cfg : Config} {id token : String} {db : DB}

theorem Outsider.management (h : Outsider cfg id token db) (now : Nat) :
    management cfg now id token db = .error .managementUnavailable := by
  unfold Secrets.management
  cases hraw : tokenBytes token with
  | none => rfl
  | some raw =>
    cases hrecord : Table.lookup ManagementRow.secretID id db.management with
    | none => rfl
    | some record => exact if_pos (h raw record hraw hrecord)

theorem Outsider.revoke (h : Outsider cfg id token db) (now : Nat → Nat) (draws : Events.Draws) :
    revoke cfg now draws id token db = .rollback .managementUnavailable := by
  unfold Secrets.revoke
  rw [h.management]

end

end Secrets

/-- Two runs tell the same and leave their databases as they are. -/
structure Indistinct {DB Err Answer : Type} (db db' : DB)
    (outcome outcome' : Outcome DB Err Answer) : Prop where
  answer : outcome.answer = outcome'.answer
  kept : outcome.state db = db
  kept' : outcome'.state db' = db'

/-- **Capabilities leak nothing to outsiders.**  Two runs of an operation with a token that
is not the one of its role, in any two databases and at any two times, cannot be told
apart and write nothing. -/
theorem capabilities_leak_nothing (cfg : Requests.Config) (secrets : Secrets.Config)
    (id token : String) :
    (∀ (op : Requests.Operation) (around around' : Requests.Surroundings) (db db' : Requests.DB),
      Requests.Outsider cfg id token op.needsOwner db →
      Requests.Outsider cfg id token op.needsOwner db' →
      Indistinct db db' (op.run cfg around id token db) (op.run cfg around' id token db')) ∧
    (∀ (now now' : Nat) (db db' : Secrets.DB), Secrets.Outsider secrets id token db →
      Secrets.Outsider secrets id token db' →
      Secrets.management secrets now id token db = Secrets.management secrets now' id token db') ∧
    (∀ (now now' : Nat → Nat) (draws draws' : Events.Draws) (db db' : Secrets.DB),
      Secrets.Outsider secrets id token db → Secrets.Outsider secrets id token db' →
      Indistinct db db' (Secrets.revoke secrets now draws id token db)
        (Secrets.revoke secrets now' draws' id token db')) ∧
    (Function.Injective cfg.sha256 → ∀ (owner : Bool) (db : Requests.DB) (row : Requests.RequestRow)
      (good : String), Table.lookup Requests.RequestRow.id id db.requests = some row →
      Requests.tokenHash cfg.sha256 good = .ok (row.capability owner) → token ≠ good →
      Requests.Outsider cfg id token owner db) := by
  refine ⟨?_, ?_, ?_, ?_⟩
  · intro op around around' db db' h h'
    rw [h.run around, h'.run around']
    exact ⟨rfl, rfl, rfl⟩
  · intro now now' db db' h h'
    rw [h.management, h'.management]
  · intro now now' draws draws' db db' h h'
    rw [h.revoke, h'.revoke]
    exact ⟨rfl, rfl, rfl⟩
  · intro hinj owner db row good hrow hgood hother
    exact Requests.Outsider.of_other hinj hrow hgood hother

/-- The owner's token on the submitter's page, of a request that is there and of one that is
not. -/
theorem capabilities_leak_nothing_other_role :
    ∃ around : Requests.Surroundings,
      Requests.Outsider (Requests.sampleConfig Requests.sampleCodec) Requests.sampleID
        (Requests.sampleToken 2) false Requests.reservedWorld.db ∧
      Indistinct Requests.reservedWorld.db Requests.DB.empty
        (Requests.Operation.instructions.run (Requests.sampleConfig Requests.sampleCodec) around
          Requests.sampleID (Requests.sampleToken 2) Requests.reservedWorld.db)
        (Requests.Operation.instructions.run (Requests.sampleConfig Requests.sampleCodec) around
          Requests.sampleID (Requests.sampleToken 2) Requests.DB.empty) := by
  obtain ⟨hsame, -, -, hother⟩ := capabilities_leak_nothing
    (Requests.sampleConfig Requests.sampleCodec)
    (Secrets.sampleConfig (Events.objectEvent "job" "key" .orphan 1)) Requests.sampleID
    (Requests.sampleToken 2)
  have hgood : Requests.tokenHash (Requests.sampleConfig Requests.sampleCodec).sha256
      (Requests.sampleToken 1) = .ok (Requests.reservedRow.capability false) := by
    decide +kernel
  have hne : Requests.sampleToken 2 ≠ Requests.sampleToken 1 := by
    decide +kernel
  have houtsider := hother Function.injective_id false Requests.reservedWorld.db
    Requests.reservedRow (Requests.sampleToken 1) rfl hgood hne
  have hempty : Requests.Outsider (Requests.sampleConfig Requests.sampleCodec) Requests.sampleID
      (Requests.sampleToken 2) false Requests.DB.empty := by
    intro hash row _ hrow
    cases hrow
  exact ⟨⟨Requests.stillEnv 1 Requests.sampleJobs, [], [], none⟩, houtsider,
    hsame .instructions _ _ _ _ houtsider hempty⟩

/-! ### Spelling -/

/-- **One spelling.**  A base64 field is accepted exactly as the padded standard encoding of
bytes of an allowed length, and a token exactly as the unpadded encoding of 32 bytes; so
two accepted texts that differ stand for different bytes. -/
theorem one_spelling (sha256 : Bytes → Bytes) :
    (∀ s least most b, Requests.canonicalBase64 s least most = .ok b ↔
      s = stdEncoding.encodeToString b ∧ least ≤ b.length ∧ b.length ≤ most) ∧
    (∀ s hash, Requests.tokenHash sha256 s = .ok hash ↔
      ∃ raw, raw.length = 32 ∧ s = rawURLEncoding.encodeToString raw ∧ hash = sha256 raw) ∧
    (∀ s raw, Secrets.tokenBytes s = some raw ↔
      raw.length = 32 ∧ s = rawURLEncoding.encodeToString raw) ∧
    (∀ s s' least most least' most' b b', Requests.canonicalBase64 s least most = .ok b →
      Requests.canonicalBase64 s' least' most' = .ok b' → s ≠ s' → b ≠ b') ∧
    (∀ s s' raw raw', Secrets.tokenBytes s = some raw → Secrets.tokenBytes s' = some raw' →
      s ≠ s' → raw ≠ raw') := by
  refine ⟨fun _ _ _ _ => Requests.canonicalBase64_ok_iff, fun _ _ => Requests.tokenHash_ok_iff,
    fun _ _ => Secrets.tokenBytes_eq_some_iff, ?_, ?_⟩
  · rintro s s' least most least' most' b b' h h' hne rfl
    exact hne ((Requests.canonicalBase64_ok_iff.mp h).1.trans
      (Requests.canonicalBase64_ok_iff.mp h').1.symm)
  · rintro s s' raw raw' h h' hne rfl
    exact hne ((Secrets.tokenBytes_eq_some_iff.mp h).2.trans
      (Secrets.tokenBytes_eq_some_iff.mp h').2.symm)

/-- A line break inside a field is skipped by the decoder and refused by the comparison. -/
example : stdEncoding.asStrict.decodeString "QU\nJD" = some [65, 66, 67] ∧
    Requests.canonicalBase64 "QU\nJD" 0 3 = .error .invalid := by
  decide +kernel

end FlickDrop
