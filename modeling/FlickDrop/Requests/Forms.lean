import FlickDrop.Requests.FirstWins

/-!
# The shape of a request

The `requests` table has one row layout for six states.  `RowForm` says which columns are
set in which state and when there is a payload, `Checks` are the constraints of the
schema.  Each update statement of the package takes a well-formed row to a well-formed
row; that is proved for the statement, so it also holds of a transaction that is rolled
back after it.
-/

namespace FlickDrop
namespace Requests

open Foundations Events

/-- The `check` constraints of the `requests` table.  A comparison with `null` passes. -/
@[mk_iff]
structure RequestRow.Checks (row : RequestRow) : Prop where
  submissionTokenHash : row.submissionTokenHash.length = 32
  retrievalTokenHash : row.retrievalTokenHash.length = 32
  generation : 1 ≤ row.generation ∧ row.generation ≤ 16
  attemptTokenHash : ∀ hash ∈ row.attemptTokenHash, hash.length = 32
  attemptBodyHash : ∀ hash ∈ row.attemptBodyHash, hash.length = 32
  kind : ∀ kind ∈ row.kind, kind = .text ∨ kind = .file
  sizeBytes : ∀ size ∈ row.sizeBytes, 0 ≤ size
  ciphertextSHA256 : ∀ hash ∈ row.ciphertextSHA256, hash.length = 32
  attempt : row.attemptTokenHash.isNone = row.attemptBodyHash.isNone
  uploading : row.state ≠ .uploading ∨ (row.storageBackend = .s3Object ∧ row.uploadKey.isSome ∧
    row.finalKey.isSome ∧ row.ciphertextSHA256.isSome ∧ row.reservationExpiresAt.isSome ∧
    row.kind = some .file ∧ row.sizeBytes.isSome ∧ row.envelopeJSON.isSome ∧
    row.attemptTokenHash.isSome)
  object : row.state ≠ .submitted ∨ row.storageBackend ≠ .s3Object ∨
    (row.finalKey.isSome ∧ row.ciphertextSHA256.isSome)
  submitted : row.state ≠ .submitted ∨ (row.kind.isSome ∧ row.sizeBytes.isSome ∧
    row.envelopeJSON.isSome ∧ row.attemptTokenHash.isSome)

instance (row : RequestRow) : Decidable row.Checks :=
  decidable_of_iff' _ row.checks_iff

/-- The columns of a row and its payload fit the state. -/
structure RowForm (row : RequestRow) (payload : Option Payload) : Prop where
  waiting : row.state = .waiting → row.storageBackend = .sqliteBlob ∧ row.uploadKey = none ∧
    row.finalKey = none ∧ row.attemptTokenHash = none ∧ payload = none
  uploading : row.state = .uploading → row.uploadKey.isSome ∧ row.finalKey.isSome ∧
    row.ciphertextSHA256.isSome ∧ row.attemptTokenHash.isSome ∧ row.sizeBytes.isSome ∧
    (∃ deadline, row.reservationExpiresAt = some deadline ∧ deadline ≤ row.expiresAt) ∧
    payload = none
  submitted : row.state = .submitted → row.attemptTokenHash.isSome ∧ row.envelopeJSON.isSome ∧
    row.uploadKey = none ∧
    ((∃ p, payload = some p ∧ row.sizeBytes = some (p.ciphertext.length : Int) ∧
        row.finalKey = none) ∨
      (row.storageBackend = .s3Object ∧ row.finalKey.isSome ∧ row.ciphertextSHA256.isSome))
  closed : row.state = .consumed ∨ row.state = .cancelled → payload = none ∧ row.uploadKey = none ∧
    row.kind = none ∧ row.sizeBytes = none ∧ row.envelopeJSON = none
  payload : payload.isSome ↔ row.state = .submitted ∧ row.storageBackend = .sqliteBlob
  checks : row.Checks

/-- Every row has its form, and every payload its row. -/
structure Forms (db : DB) : Prop where
  rows : ∀ id row, Table.lookup RequestRow.id id db.requests = some row →
    RowForm row (Table.lookup Payload.requestID id db.payloads)
  owned : ∀ id, Table.lookup RequestRow.id id db.requests = none →
    Table.lookup Payload.requestID id db.payloads = none
  unique : Table.UniqueKey Payload.requestID db.payloads

/-- The `update requests` statements, with the values the operations pass to them. -/
inductive Statement (cfg : Config) : (RequestRow → Bool) → (RequestRow → RequestRow) → Prop
  /-- `begin` takes the writer -/
  | touch (id : String) (hash : Bytes) (owner : Bool) :
      Statement cfg (fun row => decide (row.id = id) && decide (row.capability owner = hash))
      (fun row => row)
  | submit {input : SubmitInput} {attempt ciphertext : Bytes} {envelope : String} (id : String)
      (body : Bytes) (hvalid : validateSubmission cfg input = .ok (attempt, envelope, ciphertext)) :
      Statement cfg (RequestRow.waitingAt id input.generation)
        (RequestRow.submit attempt (cfg.sha256 body) input.kind input.sizeBytes envelope)
  | reserve {input : UploadInput} {attempt checksum : Bytes} {envelope : String} (id : String)
      (body rawUpload rawFinal : Bytes) (deadline : Nat)
      (hvalid : validateUpload cfg input = .ok (attempt, envelope, checksum)) :
      Statement cfg (RequestRow.waitingAt id input.generation)
        (RequestRow.reserve ⟨attempt, cfg.sha256 body, input.sizeBytes, envelope, checksum,
          uploadKeyOf rawUpload, finalKeyOf rawFinal, deadline⟩)
  | endReservation (id : String) (generation : Int) :
      Statement cfg (RequestRow.uploadingAt id generation) (RequestRow.endReservation generation)
  | accept (id : String) (generation : Int) (finalKey : String) :
      Statement cfg (RequestRow.acceptable id generation finalKey) RequestRow.accept
  | consumeObject (id key : String) (now : Nat) :
      Statement cfg (RequestRow.holdsObject id .submitted key) (RequestRow.consumeObject now)
  | releaseObject (id key : String) :
      Statement cfg (RequestRow.holdsObject id .consumed key) RequestRow.releaseObject
  | consume (id : String) (now : Nat) :
      Statement cfg (RequestRow.stateIs id .submitted) (RequestRow.clear .consumed now)
  | cancel (id : String) (state : State) (now : Nat) (hconsumed : state ≠ .consumed) :
      Statement cfg (RequestRow.stateIs id state) (RequestRow.clear .cancelled now)

section

variable {cfg : Config} {row : RequestRow} {payload : Option Payload} {r : Reservation}

/-- The hash writes 32 bytes. -/
def Config.Digests (cfg : Config) : Prop := ∀ b, (cfg.sha256 b).length = 32

theorem tokenHash_length (hsha : cfg.Digests) {token : String} {hash : Bytes}
    (h : tokenHash cfg.sha256 token = .ok hash) : hash.length = 32 := by
  obtain ⟨b, -, -, rfl⟩ := tokenHash_ok_iff.mp h
  exact hsha b

/-! ### Single rows -/

theorem RowForm.newRow {id publicKey fingerprint : String}
    {submissionTokenHash retrievalTokenHash : Bytes} {expiresAt : Nat}
    (hsubmit : submissionTokenHash.length = 32) (hretrieve : retrievalTokenHash.length = 32) :
    RowForm (newRow id publicKey fingerprint submissionTokenHash retrievalTokenHash expiresAt)
      none where
  waiting := fun _ => ⟨rfl, rfl, rfl, rfl, rfl⟩
  uploading := fun hstate => by cases hstate
  submitted := fun hstate => by cases hstate
  closed := fun hstate => by rcases hstate with hstate | hstate <;> cases hstate
  payload := by simp [Requests.newRow]
  checks := by
    rw [RequestRow.checks_iff]
    simp [Requests.newRow, hsubmit, hretrieve]

theorem RowForm.no_payload (h : RowForm row payload)
    (hstate : row.state ≠ .submitted ∨ row.storageBackend = .s3Object) : payload = none := by
  rw [← Option.not_isSome_iff_eq_none, h.payload]
  rintro ⟨hsubmitted, hbackend⟩
  rcases hstate with hstate | hstate
  · exact hstate hsubmitted
  · rw [hbackend] at hstate
    cases hstate

theorem RowForm.submit (h : RowForm row payload) (hwaiting : row.state = .waiting)
    {attempt bodyHash ciphertext : Bytes} {kind : Kind} {sizeBytes : Int} {envelope id : String}
    (hattempt : attempt.length = 32) (hbody : bodyHash.length = 32)
    (hkind : kind = .text ∨ kind = .file) (hsize : (ciphertext.length : Int) = sizeBytes) :
    RowForm (row.submit attempt bodyHash kind sizeBytes envelope) (some ⟨id, ciphertext⟩) := by
  obtain ⟨hbackend, hupload, hfinal, -, -⟩ := h.waiting hwaiting
  exact {
    waiting := fun hstate => by cases hstate
    uploading := fun hstate => by cases hstate
    submitted := fun _ => ⟨rfl, rfl, hupload, Or.inl ⟨_, rfl, by rw [← hsize]; rfl, hfinal⟩⟩
    closed := fun hstate => by rcases hstate with hstate | hstate <;> cases hstate
    payload := by simp [RequestRow.submit, hbackend]
    checks := { h.checks with
      attemptTokenHash := by rintro _ ⟨⟩; exact hattempt
      attemptBodyHash := by rintro _ ⟨⟩; exact hbody
      kind := by rintro _ ⟨⟩; exact hkind
      sizeBytes := by rintro _ ⟨⟩; omega
      attempt := rfl
      uploading := Or.inl nofun
      object := Or.inr (Or.inl (by simp [RequestRow.submit, hbackend]))
      submitted := Or.inr ⟨rfl, rfl, rfl, rfl⟩ } }

theorem RequestRow.Checks.reserve (h : row.Checks) (hattempt : r.attempt.length = 32)
    (hbody : r.bodyHash.length = 32) (hchecksum : r.checksum.length = 32)
    (hsize : 0 ≤ r.sizeBytes) :
    (row.reserve r).Checks :=
  { h with
    attemptTokenHash := by rintro _ ⟨⟩; exact hattempt
    attemptBodyHash := by rintro _ ⟨⟩; exact hbody
    kind := by rintro _ ⟨⟩; exact Or.inr rfl
    sizeBytes := by rintro _ ⟨⟩; exact hsize
    ciphertextSHA256 := by rintro _ ⟨⟩; exact hchecksum
    attempt := rfl
    uploading := Or.inr ⟨rfl, rfl, rfl, rfl, rfl, rfl, rfl, rfl, rfl⟩
    object := Or.inl nofun
    submitted := Or.inl nofun }

theorem RowForm.reserve (h : RowForm row payload) (hwaiting : row.state = .waiting)
    (hchecks : (row.reserve r).Checks) (hdeadline : r.deadline ≤ row.expiresAt) :
    RowForm (row.reserve r) payload := by
  have hnone := h.no_payload (Or.inl (by rw [hwaiting]; decide))
  exact {
    waiting := fun hstate => by cases hstate
    uploading := fun _ => ⟨rfl, rfl, rfl, rfl, rfl, ⟨_, rfl, hdeadline⟩, hnone⟩
    submitted := fun hstate => by cases hstate
    closed := fun hstate => by rcases hstate with hstate | hstate <;> cases hstate
    payload := by simp [RequestRow.reserve, hnone]
    checks := hchecks }

/-- A row of a state that is neither reserved nor accepted. -/
theorem RowForm.of_idle (hwaiting : row.state = .waiting → row.storageBackend = .sqliteBlob ∧
      row.uploadKey = none ∧ row.finalKey = none ∧ row.attemptTokenHash = none)
    (hidle : row.state ≠ .uploading ∧ row.state ≠ .submitted)
    (hclosed : row.state = .consumed ∨ row.state = .cancelled →
      row.uploadKey = none ∧ row.kind = none ∧ row.sizeBytes = none ∧ row.envelopeJSON = none)
    (hchecks : row.Checks) : RowForm row none where
  waiting := by
    intro hstate
    obtain ⟨hbackend, hupload, hfinal, hattempt⟩ := hwaiting hstate
    exact ⟨hbackend, hupload, hfinal, hattempt, rfl⟩
  uploading := fun hstate => absurd hstate hidle.1
  submitted := fun hstate => absurd hstate hidle.2
  closed := fun hstate => ⟨rfl, hclosed hstate⟩
  payload := by simp [hidle.2]
  checks := hchecks

/-- The checks of a row that is neither reserved nor accepted ask for little. -/
theorem RequestRow.Checks.of_idle {row' : RequestRow} (h : row.Checks)
    (hsubmission : row'.submissionTokenHash = row.submissionTokenHash)
    (hretrieval : row'.retrievalTokenHash = row.retrievalTokenHash)
    (hgeneration : 1 ≤ row'.generation ∧ row'.generation ≤ 16)
    (hattempt : row'.attemptTokenHash = none ∧ row'.attemptBodyHash = none ∨
      row'.attemptTokenHash = row.attemptTokenHash ∧ row'.attemptBodyHash = row.attemptBodyHash)
    (hcleared : row'.kind = none ∧ row'.sizeBytes = none ∧ row'.ciphertextSHA256 = none ∨
      row'.kind = row.kind ∧ row'.sizeBytes = row.sizeBytes ∧
        row'.ciphertextSHA256 = row.ciphertextSHA256)
    (hidle : row'.state ≠ .uploading ∧ row'.state ≠ .submitted) : row'.Checks where
  submissionTokenHash := hsubmission ▸ h.submissionTokenHash
  retrievalTokenHash := hretrieval ▸ h.retrievalTokenHash
  generation := hgeneration
  attemptTokenHash := by
    rcases hattempt with ⟨hnone, -⟩ | ⟨hsame, -⟩
    · simp [hnone]
    · exact hsame ▸ h.attemptTokenHash
  attemptBodyHash := by
    rcases hattempt with ⟨-, hnone⟩ | ⟨-, hsame⟩
    · simp [hnone]
    · exact hsame ▸ h.attemptBodyHash
  kind := by
    rcases hcleared with ⟨hnone, -, -⟩ | ⟨hsame, -, -⟩
    · simp [hnone]
    · exact hsame ▸ h.kind
  sizeBytes := by
    rcases hcleared with ⟨-, hnone, -⟩ | ⟨-, hsame, -⟩
    · simp [hnone]
    · exact hsame ▸ h.sizeBytes
  ciphertextSHA256 := by
    rcases hcleared with ⟨-, -, hnone⟩ | ⟨-, -, hsame⟩
    · simp [hnone]
    · exact hsame ▸ h.ciphertextSHA256
  attempt := by
    rcases hattempt with ⟨htoken, hbody⟩ | ⟨htoken, hbody⟩
    · rw [htoken, hbody]
    · rw [htoken, hbody]
      exact h.attempt
  uploading := Or.inl hidle.1
  object := Or.inl hidle.2
  submitted := Or.inl hidle.2

theorem RowForm.endReservation (h : RowForm row payload) (huploading : row.state = .uploading) :
    RowForm (row.endReservation row.generation) payload := by
  rw [h.no_payload (Or.inl (by rw [huploading]; decide))]
  have hidle : (row.endReservation row.generation).state ≠ .uploading ∧
      (row.endReservation row.generation).state ≠ .submitted ∧
      (row.endReservation row.generation).state ≠ .consumed ∧
      (row.endReservation row.generation).state ≠ .cancelled := by
    unfold RequestRow.endReservation
    dsimp only
    split <;> decide
  have hgeneration : 1 ≤ (row.endReservation row.generation).generation ∧
      (row.endReservation row.generation).generation ≤ 16 := by
    obtain ⟨hfirst, hlast⟩ := h.checks.generation
    unfold RequestRow.endReservation maxGeneration
    dsimp only
    split <;> omega
  refine RowForm.of_idle (fun _ => ⟨rfl, rfl, rfl, rfl⟩) ⟨hidle.1, hidle.2.1⟩ ?_ ?_
  · exact fun hstate => absurd hstate (not_or.mpr hidle.2.2)
  · exact h.checks.of_idle rfl rfl hgeneration (Or.inl ⟨rfl, rfl⟩) (Or.inl ⟨rfl, rfl, rfl⟩)
      ⟨hidle.1, hidle.2.1⟩

theorem RowForm.accept (h : RowForm row payload) (huploading : row.state = .uploading) :
    RowForm row.accept payload := by
  have hnone := h.no_payload (Or.inl (by rw [huploading]; decide))
  obtain ⟨-, hfinal, hchecksum, hattempt, hsize, -, -⟩ := h.uploading huploading
  obtain ⟨hbackend, -, -, -, -, hkind, -, henvelope, -⟩ :=
    h.checks.uploading.resolve_left (not_not.mpr huploading)
  exact {
    waiting := fun hstate => by cases hstate
    uploading := fun hstate => by cases hstate
    submitted := fun _ => ⟨hattempt, henvelope, rfl, Or.inr ⟨hbackend, hfinal, hchecksum⟩⟩
    closed := fun hstate => by rcases hstate with hstate | hstate <;> cases hstate
    payload := by simp [RequestRow.accept, hnone, hbackend]
    checks := { h.checks with
      uploading := Or.inl nofun
      object := Or.inr (Or.inr ⟨hfinal, hchecksum⟩)
      submitted := Or.inr ⟨by simp [RequestRow.accept, hkind], hsize, henvelope, hattempt⟩ } }

/-- The row of an object that is not opened. -/
theorem RowForm.object (h : RowForm row payload) (hsubmitted : row.state = .submitted)
    {key : String} (hkey : row.finalKey = some key) :
    row.storageBackend = .s3Object ∧ row.uploadKey = none := by
  obtain ⟨-, -, hupload, hbody⟩ := h.submitted hsubmitted
  refine ⟨?_, hupload⟩
  rcases hbody with ⟨p, -, -, hnone⟩ | ⟨hbackend, -, -⟩
  · rw [hkey] at hnone
    cases hnone
  · exact hbackend

theorem RowForm.consumeObject (h : RowForm row payload) (hsubmitted : row.state = .submitted)
    {key : String} (hkey : row.finalKey = some key) (now : Nat) :
    RowForm (row.consumeObject now) payload := by
  obtain ⟨hbackend, hupload⟩ := h.object hsubmitted hkey
  rw [h.no_payload (Or.inr hbackend)]
  refine RowForm.of_idle (fun hstate => by cases hstate) ⟨nofun, nofun⟩
    (fun _ => ⟨hupload, rfl, rfl, rfl⟩) ?_
  exact h.checks.of_idle rfl rfl h.checks.generation (Or.inr ⟨rfl, rfl⟩) (Or.inl ⟨rfl, rfl, rfl⟩)
    ⟨nofun, nofun⟩

theorem RowForm.releaseObject (h : RowForm row payload) (hconsumed : row.state = .consumed) :
    RowForm row.releaseObject payload := by
  obtain ⟨hnone, hclosed⟩ := h.closed (Or.inl hconsumed)
  rw [hnone]
  have hstate : row.releaseObject.state = .consumed := hconsumed
  have hidle : row.releaseObject.state ≠ .uploading ∧ row.releaseObject.state ≠ .submitted := by
    rw [hstate]
    decide
  refine RowForm.of_idle (fun hwaiting => by rw [hstate] at hwaiting; cases hwaiting) hidle
    (fun _ => hclosed) ?_
  exact h.checks.of_idle rfl rfl h.checks.generation (Or.inr ⟨rfl, rfl⟩)
    (Or.inr ⟨rfl, rfl, rfl⟩) hidle

theorem RowForm.clear (h : RowForm row payload) {state : State}
    (hstate : state = .consumed ∨ state = .cancelled) (now : Nat) :
    RowForm (row.clear state now) none := by
  have hidle : state ≠ .waiting ∧ state ≠ .uploading ∧ state ≠ .submitted := by
    rcases hstate with rfl | rfl <;> decide
  refine RowForm.of_idle (fun hwaiting => absurd hwaiting hidle.1) hidle.2
    (fun _ => ⟨rfl, rfl, rfl, rfl⟩) ?_
  refine h.checks.of_idle rfl rfl h.checks.generation ?_ (Or.inl ⟨rfl, rfl, rfl⟩) hidle.2
  -- only an accepted attempt keeps its hashes
  by_cases huploading : row.state = .uploading
  · exact Or.inl ⟨if_pos huploading, if_pos huploading⟩
  · exact Or.inr ⟨if_neg huploading, if_neg huploading⟩

theorem Submission.form (hsha : cfg.Digests) {input : SubmitInput} {attempt ciphertext : Bytes}
    (hvalid : Submission cfg input attempt ciphertext) (h : RowForm row payload)
    (hwaiting : row.state = .waiting) (body : Bytes) (envelope id : String) :
    RowForm (row.submit attempt (cfg.sha256 body) input.kind input.sizeBytes envelope)
      (some ⟨id, ciphertext⟩) :=
  h.submit hwaiting (tokenHash_length hsha hvalid.hash) (hsha body) hvalid.kind hvalid.size

theorem Upload.checks (hsha : cfg.Digests) {input : UploadInput} {attempt checksum : Bytes}
    (hvalid : Upload cfg input attempt checksum) (h : row.Checks) (body : Bytes)
    (envelope uploadKey finalKey : String) (deadline : Nat) :
    (row.reserve ⟨attempt, cfg.sha256 body, input.sizeBytes, envelope, checksum, uploadKey,
      finalKey, deadline⟩).Checks := by
  refine h.reserve (tokenHash_length hsha hvalid.hash) (hsha body) hvalid.checksum ?_
  have := hvalid.least
  show 0 ≤ input.sizeBytes
  omega

/-- No update statement breaks a constraint. -/
theorem Statement.checks (hsha : cfg.Digests) {cond : RequestRow → Bool}
    {change : RequestRow → RequestRow} (hstatement : Statement cfg cond change)
    (h : RowForm row payload) (hcond : cond row = true) : (change row).Checks := by
  cases hstatement with
  | touch => exact h.checks
  | submit id body hvalid =>
    simp only [RequestRow.waitingAt, Bool.and_eq_true, decide_eq_true_eq] at hcond
    exact ((validateSubmission_ok hvalid).form hsha h hcond.1.2 body _ id).checks
  | reserve id body rawUpload rawFinal deadline hvalid =>
    exact (validateUpload_ok hvalid).checks hsha h.checks body _ _ _ deadline
  | endReservation id generation =>
    simp only [RequestRow.uploadingAt, Bool.and_eq_true, decide_eq_true_eq] at hcond
    rw [← hcond.2]
    exact (h.endReservation hcond.1.2).checks
  | accept id generation finalKey =>
    simp only [RequestRow.acceptable, RequestRow.uploadingAt, Bool.and_eq_true,
      decide_eq_true_eq] at hcond
    exact (h.accept hcond.1.1.2).checks
  | consumeObject id key now =>
    simp only [RequestRow.holdsObject, Bool.and_eq_true, decide_eq_true_eq] at hcond
    exact (h.consumeObject hcond.1.2 hcond.2 now).checks
  | releaseObject id key =>
    simp only [RequestRow.holdsObject, Bool.and_eq_true, decide_eq_true_eq] at hcond
    exact (h.releaseObject hcond.1.2).checks
  | consume id now => exact (h.clear (Or.inl rfl) now).checks
  | cancel id state now => exact (h.clear (Or.inr rfl) now).checks

/-! ### The tables -/

variable {env : Env} {db db' : DB} {id token key : String} {now i : Nat} {row' : RequestRow}
  {batch : List RequestRow} {receipt : Receipt} {generation : Int}

theorem Forms.empty : Forms DB.empty where
  rows := by
    intro id row hrow
    cases hrow
  owned := fun _ _ => rfl
  unique := List.nodup_nil

theorem Forms.same (h : Forms db) (hrows : db'.requests = db.requests)
    (hpayloads : db'.payloads = db.payloads) : Forms db' :=
  ⟨by rw [hrows, hpayloads]; exact h.rows, by rw [hrows, hpayloads]; exact h.owned,
    hpayloads ▸ h.unique⟩

/-- One row is replaced, with its payload. -/
theorem Forms.update (h : Forms db) (hupdates : Updates id row row' db db')
    (hunique : Table.UniqueKey Payload.requestID db'.payloads)
    (hother : ∀ other, other ≠ id → Table.lookup Payload.requestID other db'.payloads =
      Table.lookup Payload.requestID other db.payloads)
    (hform : RowForm row' (Table.lookup Payload.requestID id db'.payloads)) : Forms db' := by
  refine ⟨?_, ?_, hunique⟩
  · intro other found hfound
    rw [hupdates.lookup other] at hfound
    split at hfound
    · rename_i heq
      cases hfound
      rw [heq]
      exact hform
    · rename_i hne
      rw [hother other hne]
      exact h.rows other found hfound
  · intro other hnone
    rw [hupdates.lookup other] at hnone
    split at hnone
    · cases hnone
    rename_i hne
    rw [hother other hne]
    exact h.owned other hnone

theorem Forms.update_row (h : Forms db) (hupdates : Updates id row row' db db')
    (hpayloads : db'.payloads = db.payloads)
    (hform : RowForm row (Table.lookup Payload.requestID id db.payloads) →
      RowForm row' (Table.lookup Payload.requestID id db.payloads)) : Forms db' := by
  refine h.update hupdates (hpayloads ▸ h.unique) (fun other _ => by rw [hpayloads]) ?_
  rw [hpayloads]
  exact hform (h.rows id row hupdates.found)

theorem lookup_delete_payload (h : Table.UniqueKey Payload.requestID db.payloads)
    (id other : String) : Table.lookup Payload.requestID other
        (Table.delete (fun p => decide (p.requestID = id)) db.payloads) =
      if other = id then none else Table.lookup Payload.requestID other db.payloads := by
  rw [Table.lookup_delete h]
  cases hfound : Table.lookup Payload.requestID other db.payloads with
  | none => simp
  | some p =>
    have hid := Table.lookup_key hfound
    by_cases heq : other = id
    · simp [Option.filter, hid, heq]
    · simp [Option.filter, hid, heq]

theorem Forms.submit (hsha : cfg.Digests) (h : Forms db)
    (hunique : Table.UniqueKey RequestRow.id db.requests) {input : SubmitInput}
    (hsubmit : submit cfg env id token input db = .commit db' (.ok (some receipt))) :
    Forms db' := by
  obtain ⟨attempt, envelope, ciphertext, row, _, hvalid, hbegins, hgeneration, -, rfl, hbody⟩ :=
    submit_cases hsubmit
  rcases hbody with ⟨-, -, -, -, rfl⟩ | ⟨hwaiting, hfree, hdb⟩
  · exact h
  · rw [← hgeneration] at hdb
    have hupdates := Updates.of_waiting hunique hbegins.found hwaiting (congrArg DB.requests hdb)
      (fun _ => rfl)
    have hpayloads : db'.payloads = db.payloads ++ [⟨id, ciphertext⟩] := congrArg DB.payloads hdb
    refine h.update hupdates ?_ ?_ ?_
    · rw [hpayloads]
      exact h.unique.append (Table.lookup_eq_none.mp hfree)
    · intro other hne
      rw [hpayloads, Table.lookup_append, if_neg hne.symm, Option.or_none]
    · rw [hpayloads, Table.lookup_append, hfree, if_pos rfl, Option.none_or]
      exact (validateSubmission_ok hvalid).form hsha (h.rows id row hbegins.found) hwaiting _
        envelope id

theorem Forms.reserve (hsha : cfg.Digests) (h : Forms db)
    (hunique : Table.UniqueKey RequestRow.id db.requests) {rawUpload rawFinal : Bytes}
    {presign : Option String} {input : UploadInput} {answer : Except Err (Option UploadResult)}
    (hreserve : reserve cfg env rawUpload rawFinal presign id token input db = .commit db' answer)
    (hanswer : answer ≠ .ok none) : Forms db' := by
  obtain ⟨attempt, envelope, checksum, row, _, hvalid, hbegins, hgeneration, rfl, hbody⟩ :=
    reserve_cases hreserve hanswer
  rcases hbody with ⟨-, -, -, rfl, -⟩ | ⟨hwaiting, -, deadline, hdeadline, hdb⟩
  · exact h
  · rw [← hgeneration] at hdb
    have hupdates := Updates.of_waiting hunique hbegins.found hwaiting (congrArg DB.requests hdb)
      (fun _ => rfl)
    refine h.update_row hupdates (by rw [hdb]) fun hform => ?_
    have hchecks := (validateUpload_ok hvalid).checks hsha hform.checks
    exact hform.reserve hwaiting (hchecks _ _ _ _ deadline) hdeadline

theorem Forms.endReservation (h : Forms db) (hunique : Table.UniqueKey RequestRow.id db.requests)
    (hend : endReservationTx cfg env i id generation now db = .ok db') : Forms db' := by
  obtain ⟨row, huploading, rfl, hupdates⟩ := endReservationTx_updates hunique hend
  obtain ⟨outbox, -, -, hdb⟩ := endReservationTx_cases hend
  exact h.update_row hupdates (by rw [hdb]) fun hform => hform.endReservation huploading

theorem Forms.accept (h : Forms db) (hunique : Table.UniqueKey RequestRow.id db.requests)
    {generation : Int} {attempt : Bytes} {a : ObjectAttempt} {receipt : Receipt}
    (haccept : acceptTx cfg env id token generation attempt a db =
      .commit db' (.ok (some receipt))) :
    Forms db' := by
  obtain ⟨row, hbegins, rfl, -, -, hbody⟩ := acceptTx_cases haccept
  rcases hbody with ⟨-, rfl⟩ | ⟨huploading, hfinal, -, -, -, outbox, -, hdb⟩
  · exact h
  · have hupdates := Updates.of_acceptable hunique hbegins.found huploading hfinal
      (congrArg DB.requests hdb)
    exact h.update_row hupdates (by rw [hdb]) fun hform => hform.accept huploading

theorem Forms.clear (h : Forms db) (hunique : Table.UniqueKey RequestRow.id db.requests)
    {previousState state : State} {reason : Reason}
    (hfound : Table.lookup RequestRow.id id db.requests = some row)
    (hprevious : row.state = previousState) (hstate : state = .consumed ∨ state = .cancelled)
    (hclear : clearPayloadTx cfg env id previousState state reason db = .ok db') : Forms db' := by
  have hupdates := clearPayloadTx_updates hunique hfound hprevious hclear
  obtain ⟨outbox, -, hdb⟩ := clearPayloadTx_cases hclear
  have hpayloads : db'.payloads = Table.delete (fun p => decide (p.requestID = id)) db.payloads :=
    congrArg DB.payloads hdb
  refine h.update hupdates ?_ ?_ ?_
  · rw [hpayloads]
    exact h.unique.delete _
  · intro other hne
    rw [hpayloads, lookup_delete_payload h.unique, if_neg hne]
  · rw [hpayloads, lookup_delete_payload h.unique, if_pos rfl]
    exact (h.rows id row hfound).clear hstate _

theorem Forms.consumeObject (h : Forms db) (hunique : Table.UniqueKey RequestRow.id db.requests)
    (hconsume : consumeObject cfg env id token key db = .commit db' (.ok (some ()))) :
    Forms db' := by
  obtain ⟨-, -, -, haffected, -, hdb⟩ := consumeObject_cases hconsume
  obtain ⟨row, hsubmitted, hkey, hupdates⟩ := Updates.of_holdsObject hunique
    (by rw [haffected]; decide) (congrArg DB.requests hdb) (fun _ => rfl)
  exact h.update_row hupdates (by rw [hdb])
    fun hform => hform.consumeObject hsubmitted hkey _

theorem Forms.finishOpen (h : Forms db) (hunique : Table.UniqueKey RequestRow.id db.requests)
    (hfinish : finishOpen cfg env id key db = .ok db') : Forms db' := by
  rcases finishOpen_cases hfinish with rfl | ⟨haffected, outbox, -, hdb⟩
  · exact h
  · obtain ⟨row, hconsumed, -, hupdates⟩ := Updates.of_holdsObject hunique haffected
      (congrArg DB.requests hdb) (fun _ => rfl)
    exact h.update_row hupdates (by rw [hdb]) fun hform => hform.releaseObject hconsumed

theorem Forms.create (hsha : cfg.Digests) (h : Forms db) {rawID rawSubmit rawRetrieve : Bytes}
    {publicKey : String} {ttl : Option Int} {created : Created}
    (hcreate : create cfg now rawID rawSubmit rawRetrieve publicKey ttl db = .ok (db', created)) :
    Forms db' := by
  obtain ⟨fingerprint, submitHash, retrieveHash, hsubmit, hretrieve, hfree, rfl⟩ :=
    create_cases hcreate
  refine ⟨?_, ?_, h.unique⟩
  · intro other found hfound
    rw [Table.lookup_append] at hfound
    by_cases heq : other = created.id
    · rw [heq, hfree, if_pos (by rfl)] at hfound
      cases hfound
      rw [heq, h.owned created.id hfree]
      exact RowForm.newRow (tokenHash_length hsha hsubmit) (tokenHash_length hsha hretrieve)
    · rw [if_neg (fun hid => heq hid.symm), Option.or_none] at hfound
      exact h.rows other found hfound
  · intro other hnone
    rw [Table.lookup_append, Option.or_eq_none_iff] at hnone
    exact h.owned other hnone.1

/-! ### The purge -/

theorem Forms.endReservations (h : Forms db) (hunique : Table.UniqueKey RequestRow.id db.requests)
    (hends : endReservations cfg env now i batch db = .ok db') : Forms db' := by
  induction batch generalizing i db with
  | nil =>
    cases hends
    exact h
  | cons c rest ih =>
    unfold Requests.endReservations at hends
    split at hends
    · cases hends
    rename_i mid hend
    obtain ⟨row, -, -, hupdates⟩ := endReservationTx_updates hunique hend
    exact ih (h.endReservation hunique hend) hupdates.unique hends

theorem Forms.deleteRequest (h : Forms db) (hunique : Table.UniqueKey RequestRow.id db.requests)
    (id : String) : Forms (deleteRequest id db) := by
  have hpayload : ∀ other,
      Table.lookup Payload.requestID other (Requests.deleteRequest id db).payloads =
      if other = id then none else Table.lookup Payload.requestID other db.payloads :=
    lookup_delete_payload h.unique id
  refine ⟨?_, ?_, h.unique.delete _⟩
  · intro other row hrow
    rw [lookup_deleteRequest hunique id other] at hrow
    rw [hpayload other]
    split at hrow
    · cases hrow
    rename_i hne
    rw [if_neg hne]
    exact h.rows other row hrow
  · intro other hnone
    rw [lookup_deleteRequest hunique id other] at hnone
    rw [hpayload other]
    split
    · rfl
    · rename_i hne
      rw [if_neg hne] at hnone
      exact h.owned other hnone

theorem Forms.purgeRequests (h : Forms db) (hunique : Table.UniqueKey RequestRow.id db.requests)
    (hpurge : purgeRequests cfg env now i batch db = .ok db') : Forms db' := by
  induction batch generalizing i db with
  | nil =>
    cases hpurge
    exact h
  | cons c rest ih =>
    unfold Requests.purgeRequests at hpurge
    split at hpurge
    · cases hpurge
    rename_i outbox henqueue
    have hmid : Forms { db with outbox := outbox } := h.same rfl rfl
    exact ih (hmid.deleteRequest hunique c.id) (hunique.delete _) hpurge

theorem Forms.purge {limit : Nat} (h : Forms db)
    (hunique : Table.UniqueKey RequestRow.id db.requests)
    (hpurge : purgeExpiredTx cfg env now limit db = .ok db') : Forms db' := by
  obtain ⟨_, mid, _, -, hends, -, hpurge⟩ := purgeExpiredTx_cases hpurge
  exact (h.endReservations hunique hends).purgeRequests (endReservations_ok hunique hends).1 hpurge

end

/-! ### Runs -/

section

variable {cfg : Config} {w w' : World} {clock : Nat} {trace : List (Label × World)} {env : Env}
  {err : Err} {db : DB}

/-- **Step lemma.** -/
theorem Action.forms (hsha : cfg.Digests) {answers : List Answer} (hinv : Inv cfg w)
    (h : Forms w.db) (haction : Action cfg w answers w') : Forms w'.db := by
  cases haction with
  | create now rawID rawSubmit rawRetrieve publicKey ttl hnow hfresh hcreate =>
    exact h.create hsha hcreate
  | expire env henv id token owner hbegin =>
    obtain ⟨generation, hend⟩ := begin_ended hbegin
    exact h.endReservation hinv.unique hend
  | submit env henv id token input hsubmit => exact h.submit hsha hinv.unique hsubmit
  | reserve env henv rawUpload rawFinal presign id token input hfresh hreserve hanswer =>
    exact h.reserve hsha hinv.unique hreserve hanswer
  | attempt env henv id token generation attemptToken hattempt =>
    rw [show (w.setDB _ _).db = _ from rfl, (attempt_ok hattempt).1]
    exact h
  | abandon env henv id token input habandon hanswer =>
    obtain ⟨attempt, row, -, -, -, -, -, hend⟩ := abandon_cases habandon hanswer
    exact h.endReservation hinv.unique hend
  | openInline env henv id token hopen =>
    obtain ⟨row, hbegins, hsubmitted, -, -, -, -, -, -, -, hclear, -⟩ := openTx_cases hopen
    exact h.clear hinv.unique hbegins.found hsubmitted (Or.inl rfl) hclear
  | openRead pid env henv id token object hfree hopen hobject =>
    exact h.same (congrArg DB.requests (openTx_read hopen))
      (congrArg DB.payloads (openTx_read hopen))
  | openConsume pid env henv hat hfree hconsume => exact h.consumeObject hinv.unique hconsume
  | finishOpen pid env henv hat hfinish => exact h.finishOpen hinv.unique hfinish
  | revoke env henv id token hrevoke =>
    obtain ⟨row, hbegins, -, hclear⟩ := revoke_cases hrevoke
    exact h.clear hinv.unique hbegins.found rfl (Or.inr rfl) hclear
  | purge env now limit hclock hnow hpurge => exact h.purge hinv.unique hpurge
  | finalizePass pid env henv hat hphase hfirst | finalizeReceipt pid env henv hat hphase hfirst =>
    exact h.same (congrArg DB.requests (finalizeTx_ok hfirst).1)
      (congrArg DB.payloads (finalizeTx_ok hfirst).1)
  | accept pid env henv hat hphase hsecond => exact h.accept hinv.unique hsecond
  | _ => exact h.same rfl rfl

theorem forms_of_run (hsha : cfg.Digests) (hrun : Run (Step cfg) (World.start clock) trace w) :
    Forms w.db := by
  have hboth : Inv cfg w ∧ Forms w.db := by
    refine Run.invariant (fun w => Inv cfg w ∧
      Forms w.db) ⟨Inv.start cfg clock, Forms.empty⟩ ?_ hrun
    exact fun _ _ _ h hstep => ⟨hstep.inv h.1, hstep.1.forms hsha h.1 h.2⟩
  exact hboth.2

/-- The row of an inline body. -/
theorem RowForm.inline {row : RequestRow} {payload : Option Payload} (h : RowForm row payload)
    (hsubmitted : row.state = .submitted) (hbackend : row.storageBackend ≠ .s3Object) :
    row.uploadKey = none ∧ row.finalKey = none ∧
      ∃ p, payload = some p ∧ row.sizeBytes = some (p.ciphertext.length : Int) := by
  obtain ⟨-, -, hupload, hbody⟩ := h.submitted hsubmitted
  rcases hbody with ⟨p, hp, hsize, hfinal⟩ | ⟨hobject, -, -⟩
  · exact ⟨hupload, hfinal, p, hp, hsize⟩
  · exact absurd hobject hbackend

/-- Why `Submit` fails: never at the primary key of the payloads. -/
theorem Forms.submit_error (h : Forms db) {id token : String} {input : SubmitInput}
    (hsubmit : Requests.submit cfg env id token input db = .rollback err) :
    validateSubmission cfg input = .error err ∨ begin cfg env id token false db = .failed err ∨
      err = .conflict ∨ err = .unavailable := by
  unfold Requests.submit at hsubmit
  split at hsubmit
  · rename_i hvalid
    cases hsubmit
    exact Or.inl hvalid
  · refine Or.inr ?_
    dsimp only [transact] at hsubmit
    split at hsubmit
    · rename_i hbegin
      cases hsubmit
      exact Or.inl hbegin
    · cases hsubmit
    · rename_i row hbegin
      refine Or.inr ?_
      have hform := h.rows id row (begin_opened hbegin).found
      split at hsubmit
      · cases hsubmit
        exact Or.inr rfl
      · split at hsubmit
        · cases hsubmit
          exact Or.inl rfl
        · split at hsubmit
          · split at hsubmit
            · cases hsubmit
              exact Or.inl rfl
            · exact Or.inr (commit_error hsubmit)
          · rename_i hwaiting
            split at hsubmit
            · cases hsubmit
              exact Or.inl rfl
            · split at hsubmit
              · rename_i htaken
                rw [(hform.waiting (not_not.mp hwaiting)).2.2.2.2] at htaken
                cases htaken
              · exact Or.inr (commit_error hsubmit)

/-- Why the first transaction of `Open` fails: never at the length of an inline body, and
never at a column that should be set. -/
theorem Forms.open_error (h : Forms db) {id token : String}
    (hopen : openTx cfg env id token db = .rollback err) :
    begin cfg env id token true db = .failed err ∨ err = .conflict ∨ err = .unavailable := by
  dsimp only [openTx, transact] at hopen
  split at hopen
  · rename_i hbegin
    cases hopen
    exact Or.inl hbegin
  · cases hopen
  · rename_i row hbegin
    refine Or.inr ?_
    have hform := h.rows id row (begin_opened hbegin).found
    split at hopen
    · cases hopen
      exact Or.inl rfl
    · rename_i hstate
      have hsubmitted := not_not.mp hstate
      obtain ⟨hkind, hsize, henvelope, -⟩ :=
        hform.checks.submitted.resolve_left (not_not.mpr hsubmitted)
      obtain ⟨kind, hkind⟩ := Option.isSome_iff_exists.mp hkind
      obtain ⟨size, hsize⟩ := Option.isSome_iff_exists.mp hsize
      obtain ⟨envelope, henvelope⟩ := Option.isSome_iff_exists.mp henvelope
      rw [hkind, hsize, henvelope] at hopen
      dsimp only at hopen
      split at hopen
      · rename_i hbackend
        obtain ⟨hupload, hfinal, p, hp, hlength⟩ := hform.inline hsubmitted hbackend
        rw [hsize] at hlength
        split at hopen
        · rename_i hmismatch
          rw [payloadOf, hp] at hmismatch
          exact absurd (Option.some.inj hlength).symm hmismatch
        · split at hopen
          · rename_i herr
            cases hopen
            exact Or.inl (clearPayloadTx_error (begin_opened hbegin).found hupload hfinal herr)
          · exact Or.inr (commit_error hopen)
      · cases hopen

/-- **Request rows keep their form.**  In every reachable state:

* every row has the columns and the payload of its state, and every payload has a row;
* no update statement and no insertion would break a constraint of the table;
* `Submit` does not fail at the primary key of the payloads, and `Open` not at the length of
  an inline body. -/
theorem request_rows_keep_form (hsha : cfg.Digests)
    (hrun : Run (Step cfg) (World.start clock) trace w) :
    Forms w.db ∧
    (∀ cond change, Statement cfg cond change →
      ∀ id row, w.row id = some row → cond row = true → (change row).Checks) ∧
    (∀ id publicKey fingerprint expiresAt submit retrieve submitHash retrieveHash,
      tokenHash cfg.sha256 submit = .ok submitHash →
      tokenHash cfg.sha256 retrieve = .ok retrieveHash →
      (newRow id publicKey fingerprint submitHash retrieveHash expiresAt).Checks) ∧
    (∀ env id token input err, submit cfg env id token input w.db = .rollback err →
      validateSubmission cfg input = .error err ∨ begin cfg env id token false w.db = .failed err ∨
        err = .conflict ∨ err = .unavailable) ∧
    ∀ env id token err, openTx cfg env id token w.db = .rollback err →
      begin cfg env id token true w.db = .failed err ∨ err = .conflict ∨ err = .unavailable := by
  have hforms := forms_of_run hsha hrun
  refine ⟨hforms, ?_, ?_, ?_, ?_⟩
  · intro cond change hstatement id row hrow hcond
    exact hstatement.checks hsha (hforms.rows id row hrow) hcond
  · intro id publicKey fingerprint expiresAt submit retrieve submitHash retrieveHash hsubmit
      hretrieve
    exact (RowForm.newRow (tokenHash_length hsha hsubmit) (tokenHash_length hsha hretrieve)).checks
  · intro env id token input err hsubmit
    exact hforms.submit_error hsubmit
  · intro env id token err hopen
    exact hforms.open_error hopen

end

/-- A text is submitted to a new request. -/
theorem request_rows_keep_form_text :
    ∃ (cfg : Config) (trace : List (Label × World)) (w : World),
      cfg.Digests ∧ Run (Step cfg) (World.start 1) trace w ∧
      (w.row sampleID).map RequestRow.state = some .submitted ∧ Forms w.db := by
  have hsha : (digestConfig (singleCodec (objectEvent "job" "key" .orphan 1))).Digests :=
    fun b => List.length_replicate
  have hrun : Run (Step (digestConfig (singleCodec (objectEvent "job" "key" .orphan 1))))
      (World.start 1) _ _ :=
    (Run.nil.snoc (sample_created rfl).step).snoc
      (Action.submit (stillEnv 1 fun _ => none) (stillEnv_within 1 _) sampleID (sampleToken 1)
        sampleSubmission rfl).step
  exact ⟨_, _, _, hsha, hrun, rfl, (request_rows_keep_form hsha hrun).1⟩

end Requests
end FlickDrop
