import FlickDrop.Requests.Large

/-!
# What the request operations did

One inversion lemma for each transaction of the store: from its commit, the row it worked
on, the checks that row and the input passed, and the database it wrote.  Later modules
cite these and never unfold an operation again.
-/

namespace FlickDrop
namespace Requests

open Foundations Events

section

variable {cfg : Config} {env : Env} {now i expires : Nat} {id token envelope key : String}
  {owner : Bool} {db db' committed : DB} {row : RequestRow}
  {answer : Except Err (Option UploadResult)} {generation : Int} {input : SubmitInput}
  {receipt : Receipt} {reason : Reason} {presign : Option String} {err : Err}
  {outbox' : List OutboxRow} {Answer : Type}

/-! ### Validation -/

/-- What an inline submission has passed. -/
structure Submission (cfg : Config) (input : SubmitInput) (attempt : Bytes) (ciphertext : Bytes) :
    Prop where
  hash : tokenHash cfg.sha256 input.attemptToken = .ok attempt
  kind : input.kind = .text ∨ input.kind = .file
  size : (ciphertext.length : Int) = input.sizeBytes

theorem validateSubmission_parts {attempt ciphertext : Bytes}
    (h : validateSubmission cfg input = .ok (attempt, envelope, ciphertext)) :
    Submission cfg input attempt ciphertext ∧
      validateEnvelope cfg.decodeEnvelope input.envelope input.kind = .ok envelope ∧
      input.ciphertext = stdEncoding.encodeToString ciphertext := by
  unfold validateSubmission at h
  split at h
  · cases h
  rename_i hinput
  rw [not_or, not_or, Int.not_lt, not_and_or, not_not, not_not] at hinput
  split at h
  · cases h
  rename_i hash hhash
  split at h
  · cases h
  split at h
  · cases h
  rename_i text henvelope
  split at h
  · cases h
  split at h
  · cases h
  rename_i body hbody
  split at h
  · cases h
    obtain ⟨htext, hleast, hmost⟩ := canonicalBase64_ok_iff.mp hbody
    exact ⟨⟨hhash, hinput.2.2, by omega⟩, henvelope, htext⟩
  · cases h

theorem validateSubmission_ok {attempt ciphertext : Bytes}
    (h : validateSubmission cfg input = .ok (attempt, envelope, ciphertext)) :
    Submission cfg input attempt ciphertext :=
  (validateSubmission_parts h).1

theorem validateAttempt_ok {input : AttemptInput} {attempt : Bytes}
    (h : validateAttempt cfg input = .ok attempt) :
    validGeneration input.generation = true ∧
      tokenHash cfg.sha256 input.attemptToken = .ok attempt := by
  unfold validateAttempt at h
  split at h
  · cases h
  rename_i hvalid
  exact ⟨Bool.not_eq_false _ ▸ hvalid, h⟩

/-- What a reservation has passed. -/
structure Upload (cfg : Config) (input : UploadInput) (attempt checksum : Bytes) : Prop where
  hash : tokenHash cfg.sha256 input.attemptToken = .ok attempt
  kind : input.kind = .file
  least : (ageMagic.length : Int) ≤ input.sizeBytes
  checksum : checksum.length = 32

theorem validateUpload_parts {input : UploadInput} {attempt checksum : Bytes}
    (h : validateUpload cfg input = .ok (attempt, envelope, checksum)) :
    Upload cfg input attempt checksum ∧
      validateEnvelope cfg.decodeEnvelope input.envelope input.kind = .ok envelope ∧
      input.ciphertextSHA256 = stdEncoding.encodeToString checksum := by
  unfold validateUpload at h
  split at h
  · cases h
  rename_i hash hvalid
  split at h
  · cases h
  rename_i hinput
  rw [not_or, not_not, Int.not_lt] at hinput
  split at h
  · cases h
  split at h
  · cases h
  rename_i text henvelope
  split at h
  · cases h
  rename_i sum hsum
  cases h
  obtain ⟨htext, hleast, hmost⟩ := canonicalBase64_ok_iff.mp hsum
  exact ⟨⟨(validateAttempt_ok hvalid).2, hinput.1, hinput.2, by omega⟩, henvelope, htext⟩

theorem validateUpload_ok {input : UploadInput} {attempt checksum : Bytes}
    (h : validateUpload cfg input = .ok (attempt, envelope, checksum)) :
    Upload cfg input attempt checksum :=
  (validateUpload_parts h).1

/-! ### Begin and commit -/

/-- What `begin` checked about the row of an open transaction. -/
structure Begins (cfg : Config) (env : Env) (id token : String) (owner : Bool) (db : DB)
    (row : RequestRow) : Prop where
  found : Table.lookup RequestRow.id id db.requests = some row
  authorized : tokenHash cfg.sha256 token = .ok (row.capability owner)
  available : row.state ≠ .unavailable
  early : env.now 0 < row.expiresAt
  reserved : row.state = .uploading → env.now 1 < row.reservationExpires

theorem authorized_ok {hash : Bytes} {rows : List RequestRow}
    (h : authorized now id hash owner rows = .ok row) :
    Table.lookup RequestRow.id id rows = some row ∧ hash = row.capability owner ∧
      row.state ≠ .unavailable ∧ now < row.expiresAt := by
  unfold authorized at h
  split at h
  · cases h
  rename_i found hfound
  split at h
  · cases h
  rename_i hhash
  split at h
  · cases h
  rename_i hlive
  rw [not_or, Nat.not_le] at hlive
  obtain rfl := Except.ok.inj h
  exact ⟨hfound, not_not.mp hhash, hlive.1, hlive.2⟩

theorem begin_opened (h : begin cfg env id token owner db = .opened row) :
    Begins cfg env id token owner db row := by
  unfold begin at h
  split at h
  · cases h
  rename_i hash hhash
  split at h
  · cases h
  rename_i found hauthorized
  obtain ⟨hfound, rfl, havailable, hearly⟩ := authorized_ok hauthorized
  split at h
  · split at h
    · cases h
    split at h <;> cases h
  · rename_i hlive
    obtain rfl := Begun.opened.inj h
    refine ⟨hfound, hhash, havailable, hearly, fun huploading => ?_⟩
    exact Nat.lt_of_not_le fun hlate => hlive ⟨huploading, hlate⟩

theorem Begins.opened (h : Begins cfg env id token owner db row) :
    begin cfg env id token owner db = .opened row := by
  have hauthorized :
      Requests.authorized (env.now 0) id (row.capability owner) owner db.requests = .ok row := by
    rw [Requests.authorized, h.found]
    dsimp only
    rw [if_neg (not_not.mpr rfl), if_neg (not_or.mpr ⟨h.available, Nat.not_le.mpr h.early⟩)]
  rw [begin, h.authorized]
  dsimp only
  rw [hauthorized]
  exact if_neg fun hlate => Nat.not_le.mpr (h.reserved hlate.1) hlate.2

theorem begin_ended (h : begin cfg env id token owner db = .ended db') :
    ∃ generation, endReservationTx cfg env 0 id generation (env.now 2) db = .ok db' := by
  unfold begin at h
  split at h
  · cases h
  split at h
  · cases h
  rename_i row hauthorized
  split at h
  · split at h
    · cases h
    rename_i hend
    split at h
    · cases h
    obtain rfl := Begun.ended.inj h
    exact ⟨row.generation, hend⟩
  · cases h

/-- An operation that commits an answer ran its body. -/
theorem transact_commit {Answer : Type} {body : RequestRow → Outcome DB Err (Option Answer)}
    {answer : Except Err (Option Answer)}
    (h : transact cfg env id token owner db body = .commit db' answer)
    (hanswer : answer ≠ .ok none) :
    ∃ row, Begins cfg env id token owner db row ∧ body row = .commit db' answer := by
  unfold transact at h
  split at h
  · cases h
  · cases h
    exact absurd rfl hanswer
  · rename_i row hbegin
    exact ⟨row, begin_opened hbegin, h⟩

theorem commit_ok {answer : Answer} {result : Except Err (Option Answer)}
    (h : commit now expires committed answer = .commit db' result) :
    now < expires ∧ db' = committed ∧ result = .ok (some answer) := by
  unfold commit at h
  split at h
  · cases h
  rename_i hearly
  cases h
  exact ⟨Nat.lt_of_not_le hearly, rfl, rfl⟩

theorem commit_error {answer : Answer} (h : commit now expires db answer = .rollback err) :
    err = .unavailable := by
  unfold commit at h
  split at h
  · cases h
    rfl
  · cases h

/-! ### Submission and its status -/

theorem read_ok (h : Requests.read cfg env id token owner db = .ok (.row row)) :
    Table.lookup RequestRow.id id db.requests = some row := by
  unfold Requests.read at h
  split at h
  · cases h
  split at h
  · cases h
  rename_i hauthorized
  split at h
  · cases h
  cases h
  exact (authorized_ok hauthorized).1

theorem refresh_ok (h : refresh cfg env id token owner db = .commit db' (.ok (some row))) :
    db' = db ∧ Table.lookup RequestRow.id id db.requests = some row := by
  obtain ⟨row', hbegins, hbody⟩ := transact_commit h (by simp)
  obtain ⟨-, hdb, hrow⟩ := commit_ok hbody
  cases hrow
  exact ⟨hdb, hbegins.found⟩

/-- `Submit` found its attempt accepted, or accepted it, with the digest of its content. -/
theorem submit_cases (h : submit cfg env id token input db = .commit db' (.ok (some receipt))) :
    ∃ attempt envelope ciphertext row digest,
      validateSubmission cfg input = .ok (attempt, envelope, ciphertext) ∧
      Begins cfg env id token false db row ∧ row.generation = input.generation ∧
      receipt = ⟨input.generation, .submitted⟩ ∧
      digest = cfg.sha256
        (utf8 (marshalPayload input.kind input.sizeBytes envelope input.ciphertext)) ∧
      (row.state ≠ .waiting ∧ row.state ≠ .uploading ∧ row.attemptTokenHash = some attempt ∧
          row.attemptBodyHash = some digest ∧ db' = db ∨
        row.state = .waiting ∧ Table.lookup Payload.requestID id db.payloads = none ∧
          db' = { db with
            requests := Table.update (RequestRow.waitingAt id input.generation)
              (RequestRow.submit attempt digest input.kind input.sizeBytes envelope) db.requests
            payloads := db.payloads ++ [⟨id, ciphertext⟩] }) := by
  unfold submit at h
  split at h
  · cases h
  rename_i attempt envelope ciphertext hvalid
  obtain ⟨row, hbegins, hbody⟩ := transact_commit h (by simp)
  refine ⟨attempt, envelope, ciphertext, row,
    cfg.sha256 (utf8 (marshalPayload input.kind input.sizeBytes envelope input.ciphertext)),
    hvalid, hbegins, ?_⟩
  split at hbody
  · cases hbody
  rename_i hgeneration
  refine ⟨(not_not.mp hgeneration).symm, ?_⟩
  split at hbody
  · cases hbody
  rename_i huploading
  split at hbody
  · rename_i hwaiting
    split at hbody
    · cases hbody
    rename_i hsame
    rw [not_or, not_not, not_not] at hsame
    obtain ⟨-, hdb, hreceipt⟩ := commit_ok hbody
    cases hreceipt
    exact ⟨rfl, rfl, Or.inl ⟨hwaiting, huploading, hsame.1, hsame.2, hdb⟩⟩
  · rename_i hwaiting
    split at hbody
    · cases hbody
    split at hbody
    · cases hbody
    rename_i hfree
    obtain ⟨-, hdb, hreceipt⟩ := commit_ok hbody
    cases hreceipt
    exact ⟨rfl, rfl, Or.inr ⟨not_not.mp hwaiting, Option.not_isSome_iff_eq_none.mp hfree,
      hdb⟩⟩

/-- `Attempt` only reads. -/
theorem attempt_ok {attemptToken : String}
    (h : attempt cfg env id token generation attemptToken db = .commit db' (.ok (some receipt))) :
    db' = db ∧ ∃ hash row, tokenHash cfg.sha256 attemptToken = .ok hash ∧
      Begins cfg env id token false db row ∧ receipt = ⟨row.generation, row.verdict hash⟩ := by
  unfold attempt at h
  split at h
  · cases h
  split at h
  · cases h
  rename_i hash hhash
  obtain ⟨row, hbegins, hbody⟩ := transact_commit h (by simp)
  split at hbody
  · cases hbody
  rename_i hgeneration
  rw [not_not] at hgeneration
  obtain ⟨-, hdb, hreceipt⟩ := commit_ok hbody
  cases hreceipt
  exact ⟨hdb, hash, row, hhash, hbegins, by rw [hgeneration]⟩

/-! ### Reservations -/

theorem instruct_commit {uploadKey : Option String} {deadline : Nat}
    (h : instruct cfg env presign row uploadKey deadline committed = .commit db' answer) :
    db' = committed ∧ ∀ result, answer = .ok (some result) → result.state = .uploading := by
  unfold instruct at h
  split at h
  · cases h
  split at h
  · cases h
  split at h
  · cases h
    exact ⟨rfl, fun result hresult => by cases hresult⟩
  · split at h
    · cases h
      exact ⟨rfl, fun result hresult => by cases hresult⟩
    · cases h
      refine ⟨rfl, fun result hresult => ?_⟩
      cases hresult
      rfl

/-- `Reserve` found its attempt in the row, or reserved the upload, with the digest of its
content. -/
theorem reserve_cases {rawUpload rawFinal : Bytes} {input : UploadInput}
    (h : reserve cfg env rawUpload rawFinal presign id token input db = .commit db' answer)
    (hanswer : answer ≠ .ok none) :
    ∃ attempt envelope checksum row digest,
      validateUpload cfg input = .ok (attempt, envelope, checksum) ∧
      Begins cfg env id token false db row ∧ row.generation = input.generation ∧
      digest = cfg.sha256
        (utf8 (marshalUpload input.kind input.sizeBytes envelope input.ciphertextSHA256)) ∧
      (row.state ≠ .waiting ∧ row.attemptTokenHash = some attempt ∧
          row.attemptBodyHash = some digest ∧ db' = db ∧
          (∀ result, answer = .ok (some result) → result.state = .submitted →
            row.state ≠ .uploading ∧ result.generation = row.generation) ∨
        row.state = .waiting ∧ (∀ result, answer = .ok (some result) → result.state = .uploading) ∧
          ∃ deadline, deadline ≤ row.expiresAt ∧ db' = { db with
            requests := Table.update (RequestRow.waitingAt id input.generation)
              (RequestRow.reserve ⟨attempt, digest, input.sizeBytes, envelope, checksum,
                uploadKeyOf rawUpload, finalKeyOf rawFinal, deadline⟩) db.requests }) := by
  unfold reserve at h
  split at h
  · cases h
  rename_i attempt envelope checksum hvalid
  obtain ⟨row, hbegins, hbody⟩ := transact_commit h hanswer
  refine ⟨attempt, envelope, checksum, row,
    cfg.sha256 (utf8 (marshalUpload input.kind input.sizeBytes envelope input.ciphertextSHA256)),
    hvalid, hbegins, ?_⟩
  split at hbody
  · cases hbody
  rename_i hgeneration
  refine ⟨not_not.mp hgeneration, rfl, ?_⟩
  split at hbody
  · rename_i hwaiting
    split at hbody
    · cases hbody
    rename_i hsame
    rw [not_or, not_not, not_not] at hsame
    split at hbody
    · rename_i huploading
      obtain ⟨-, hdb, rfl⟩ := commit_ok hbody
      refine Or.inl ⟨hwaiting, hsame.1, hsame.2, hdb, fun result hresult _ => ?_⟩
      cases hresult
      exact ⟨huploading, rfl⟩
    · obtain ⟨hdb, hstate⟩ := instruct_commit hbody
      refine Or.inl ⟨hwaiting, hsame.1, hsame.2, hdb, fun result hresult hsubmitted => ?_⟩
      rw [hstate result hresult] at hsubmitted
      cases hsubmitted
  · rename_i hwaiting
    split at hbody
    · cases hbody
    split at hbody
    · cases hbody
    obtain ⟨hdb, hstate⟩ := instruct_commit hbody
    exact Or.inr ⟨not_not.mp hwaiting, hstate, _, Nat.min_le_right _ _, hdb⟩

/-- `Abandon` ends the reservation of its attempt. -/
theorem abandon_cases {input : AttemptInput} {answer : Except Err (Option Receipt)}
    (h : abandon cfg env id token input db = .commit db' answer) (hanswer : answer ≠ .ok none) :
    ∃ attempt row, validateAttempt cfg input = .ok attempt ∧ Begins cfg env id token false db row ∧
      row.generation = input.generation ∧ row.state = .uploading ∧
      row.attemptTokenHash = some attempt ∧
      endReservationTx cfg env 0 id row.generation (env.now 2) db = .ok db' := by
  unfold abandon at h
  split at h
  · cases h
  rename_i attempt hvalid
  obtain ⟨row, hbegins, hbody⟩ := transact_commit h hanswer
  split at hbody
  · cases hbody
  rename_i hgeneration
  split at hbody
  · cases hbody
  rename_i hsame
  rw [not_or, not_not, not_not] at hsame
  refine ⟨attempt, row, hvalid, hbegins, not_not.mp hgeneration, hsame.1, hsame.2, ?_⟩
  split at hbody
  · cases hbody
  rename_i ended hend
  split at hbody
  · cases hbody
  split at hbody <;> cases hbody <;> exact hend

/-! ### Finalization -/

/-- The row has accepted this attempt. -/
structure RequestRow.Accepted (generation : Int) (attempt : Bytes) (row : RequestRow) : Prop where
  state : row.state.keepsReceipt = true
  generation : row.generation = generation
  attempt : row.attemptTokenHash = some attempt

/-- The checks that both transactions of `Finalize` begin with. -/
def RequestRow.finalizing {Answer : Type} (row : RequestRow) (generation : Int) (attempt : Bytes)
    (receipt body : Outcome DB Err (Option Answer)) : Outcome DB Err (Option Answer) :=
  if generation ≠ row.generation then
    .rollback .unavailable
  else if row.attemptTokenHash ≠ some attempt then
    .rollback .conflict
  else if row.state ≠ .uploading then
    if row.state.keepsReceipt = false then .rollback .conflict else receipt
  else
    body

theorem finalizing_commit {attempt : Bytes} {receipt body : Outcome DB Err (Option Answer)}
    {answer : Except Err (Option Answer)}
    (h : row.finalizing generation attempt receipt body = .commit db' answer) :
    row.generation = generation ∧ row.attemptTokenHash = some attempt ∧
      (row.Accepted generation attempt ∧ receipt = .commit db' answer ∨
        row.state = .uploading ∧ body = .commit db' answer) := by
  unfold RequestRow.finalizing at h
  split at h
  · cases h
  rename_i hgeneration
  rw [not_not] at hgeneration
  split at h
  · cases h
  rename_i hattempt
  rw [not_not] at hattempt
  refine ⟨hgeneration.symm, hattempt, ?_⟩
  split at h
  · split at h
    · cases h
    rename_i hkeeps
    exact Or.inl ⟨⟨Bool.not_eq_false _ ▸ hkeeps, hgeneration.symm, hattempt⟩, h⟩
  · rename_i huploading
    exact Or.inr ⟨not_not.mp huploading, h⟩

/-- The first transaction answers for an accepted attempt, or finds the reservation of the
attempt alive. -/
theorem finalizeTx_ok {attempt : Bytes} {start : FinalizeStart}
    (h : finalizeTx cfg env id token generation attempt db = .commit db' (.ok (some start))) :
    db' = db ∧ ∃ row, Begins cfg env id token false db row ∧ row.generation = generation ∧
      row.attemptTokenHash = some attempt ∧
      match start with
      | .receipt receipt =>
        row.Accepted receipt.generation attempt ∧ receipt = ⟨generation, .submitted⟩
      | .copy a => row.state = .uploading ∧ row.objectAttempt cfg = .ok a := by
  obtain ⟨row, hbegins, hbody⟩ := transact_commit h (by simp)
  obtain ⟨hgeneration, hattempt, ⟨haccepted, hbody⟩ | ⟨huploading, hbody⟩⟩ :=
    finalizing_commit hbody
  · obtain ⟨-, hdb, hstart⟩ := commit_ok hbody
    cases hstart
    exact ⟨hdb, row, hbegins, hgeneration, hattempt, hgeneration.symm ▸ haccepted,
      by rw [hgeneration]⟩
  · split at hbody
    · cases hbody
    rename_i a ha
    obtain ⟨-, hdb, hstart⟩ := commit_ok hbody
    cases hstart
    exact ⟨hdb, row, hbegins, hgeneration, hattempt, huploading, ha⟩

/-- The second transaction found its attempt accepted, or accepted it. -/
theorem acceptTx_cases {attempt : Bytes} {a : ObjectAttempt}
    (h : acceptTx cfg env id token generation attempt a db = .commit db' (.ok (some receipt))) :
    ∃ row, Begins cfg env id token false db row ∧ row.generation = generation ∧
      row.attemptTokenHash = some attempt ∧ receipt = ⟨generation, .submitted⟩ ∧
      (row.Accepted generation attempt ∧ db' = db ∨
        row.state = .uploading ∧ row.finalKey = some a.finalKey ∧
        row.ciphertextSHA256 = a.checksum ∧
          env.now 3 < row.reservationExpires ∧ env.now 4 < row.expiresAt ∧
          ∃ outbox, enqueueObjectTx cfg env 0 a.uploadKey .orphan (env.now 2) db.outbox =
            .ok outbox ∧ db' = { db with
              outbox := outbox
              requests := Table.update (RequestRow.acceptable id generation a.finalKey)
                RequestRow.accept db.requests }) := by
  obtain ⟨row, hbegins, hbody⟩ := transact_commit h (by simp)
  obtain ⟨hgeneration, hattempt, ⟨haccepted, hbody⟩ | ⟨huploading, hbody⟩⟩ :=
    finalizing_commit hbody
  · obtain ⟨-, hdb, hreceipt⟩ := commit_ok hbody
    cases hreceipt
    exact ⟨row, hbegins, hgeneration, hattempt, by rw [hgeneration], Or.inl ⟨haccepted, hdb⟩⟩
  · split at hbody
    · cases hbody
    rename_i hsame
    rw [not_or, not_not, not_not] at hsame
    split at hbody
    · cases hbody
    split at hbody
    · cases hbody
    rename_i outbox henqueue
    split at hbody
    · cases hbody
    rename_i hlive
    obtain ⟨hearly, hdb, hreceipt⟩ := commit_ok hbody
    cases hreceipt
    exact ⟨row, hbegins, hgeneration, hattempt, by rw [hgeneration],
      Or.inr ⟨huploading, hsame.1, hsame.2, Nat.lt_of_not_le hlive, hearly, outbox, henqueue,
        hdb⟩⟩

/-! ### The end of a reservation -/

theorem enqueueObjectTx_cases {outbox : List OutboxRow}
    (h : enqueueObjectTx cfg env i key reason now outbox = .ok outbox') :
    Area.requests.owns key = true ∧ ∃ jobID, enqueueTx cfg.codec cfg.subject env.draws.carrier
      (env.outboxNow i) (objectEvent jobID key reason now) outbox = .ok outbox' := by
  unfold enqueueObjectTx at h
  split at h
  · cases h
  rename_i howns
  rw [not_or, Bool.not_eq_false] at howns
  split at h
  · cases h
  rename_i jobID hjob
  split at h
  · cases h
  rename_i henqueue
  cases h
  exact ⟨howns.1, jobID, henqueue⟩

theorem enqueueRequestKeysTx_cases
    (h : enqueueRequestKeysTx cfg env i id reason now db = .ok outbox') :
    ∃ row, Table.lookup RequestRow.id id db.requests = some row ∧
      enqueueKeysTx cfg env reason now i [row.uploadKey, row.finalKey] db.outbox = .ok outbox' := by
  unfold enqueueRequestKeysTx at h
  split at h
  · cases h
  rename_i row hfound
  exact ⟨row, hfound, h⟩

theorem endReservationTx_cases (h : endReservationTx cfg env i id generation now db = .ok db') :
    ∃ outbox, enqueueRequestKeysTx cfg env i id .orphan now db = .ok outbox ∧
      Table.affected (RequestRow.uploadingAt id generation) db.requests = 1 ∧
      db' = { db with
        outbox := outbox
        requests := Table.update (RequestRow.uploadingAt id generation)
          (RequestRow.endReservation generation) db.requests } := by
  unfold endReservationTx at h
  split at h
  · cases h
  rename_i outbox henqueue
  split at h
  · cases h
  rename_i haffected
  exact ⟨outbox, henqueue, not_not.mp haffected, (Except.ok.inj h).symm⟩

/-! ### Open and cancellation -/

theorem clearPayloadTx_cases {previousState state : State}
    (h : clearPayloadTx cfg env id previousState state reason db = .ok db') :
    ∃ outbox, enqueueRequestKeysTx cfg env 0 id reason (env.now 2) db = .ok outbox ∧
      db' = { db with
        outbox := outbox
        payloads := Table.delete (fun p => decide (p.requestID = id)) db.payloads
        requests := Table.update (RequestRow.stateIs id previousState)
          (RequestRow.clear state (env.now 3)) db.requests } := by
  unfold clearPayloadTx at h
  split at h
  · cases h
  rename_i outbox henqueue
  split at h
  · cases h
  exact ⟨outbox, henqueue, (Except.ok.inj h).symm⟩

/-- A row without objects needs no job. -/
theorem clearPayloadTx_error {previousState state : State}
    (hfound : Table.lookup RequestRow.id id db.requests = some row) (hupload : row.uploadKey = none)
    (hfinal : row.finalKey = none)
    (h : clearPayloadTx cfg env id previousState state reason db = .error err) :
    err = .conflict := by
  have hkeys : enqueueRequestKeysTx cfg env 0 id reason (env.now 2) db = .ok db.outbox := by
    simp [enqueueRequestKeysTx, hfound, hupload, hfinal, enqueueKeysTx]
  unfold clearPayloadTx at h
  rw [hkeys] at h
  dsimp only at h
  split at h
  · cases h
    rfl
  · cases h

/-- The first transaction of an open consumed an inline body, or read the row of an
object. -/
theorem openTx_cases {opening : Opening}
    (h : openTx cfg env id token db = .commit db' (.ok (some opening))) :
    ∃ row, Begins cfg env id token true db row ∧ row.state = .submitted ∧
      ∃ kind sizeBytes envelope, row.kind = some kind ∧ row.sizeBytes = some sizeBytes ∧
        row.envelopeJSON = some envelope ∧
        match opening with
        | .inline opened => row.storageBackend ≠ .s3Object ∧
            clearPayloadTx cfg env id .submitted .consumed .consumed db = .ok db' ∧
            opened = ⟨kind, sizeBytes, envelope, payloadOf id db.payloads, ""⟩
        | .object kind' sizeBytes' envelope' key => row.storageBackend = .s3Object ∧ db' = db ∧
            (kind', sizeBytes', envelope', key) = (kind, sizeBytes, envelope, row.finalKey) := by
  unfold openTx at h
  obtain ⟨row, hbegins, hbody⟩ := transact_commit h (by simp)
  split at hbody
  · cases hbody
  rename_i hsubmitted
  rw [not_not] at hsubmitted
  refine ⟨row, hbegins, hsubmitted, ?_⟩
  split at hbody
  · rename_i kind sizeBytes envelope hkind hsize henvelope
    refine ⟨kind, sizeBytes, envelope, hkind, hsize, henvelope, ?_⟩
    split at hbody
    · rename_i hbackend
      split at hbody
      · cases hbody
      split at hbody
      · cases hbody
      rename_i cleared hclear
      obtain ⟨-, hdb, hopening⟩ := commit_ok hbody
      cases hopening
      rw [hsubmitted] at hclear
      exact ⟨hbackend, hdb ▸ hclear, rfl⟩
    · rename_i hbackend
      cases hbody
      exact ⟨not_not.mp hbackend, rfl, rfl⟩
  · cases hbody

theorem revoke_cases (h : revoke cfg env id token db = .commit db' (.ok (some ()))) :
    ∃ row, Begins cfg env id token true db row ∧ row.state ≠ .consumed ∧
      clearPayloadTx cfg env id row.state .cancelled .manual db = .ok db' := by
  unfold revoke at h
  obtain ⟨row, hbegins, hbody⟩ := transact_commit h (by simp)
  split at hbody
  · cases hbody
  rename_i hconsumed
  split at hbody
  · cases hbody
  rename_i cleared hclear
  obtain ⟨-, hdb, -⟩ := commit_ok hbody
  exact ⟨row, hbegins, hconsumed, hdb ▸ hclear⟩

theorem consumeObject_cases
    (h : consumeObject cfg env id token key db = .commit db' (.ok (some ()))) :
    ∃ row, Begins cfg env id token true db row ∧ row.state = .submitted ∧
      Table.affected (RequestRow.holdsObject id .submitted key) db.requests = 1 ∧
      env.now 3 < row.expiresAt ∧
      db' = { db with
        requests := Table.update (RequestRow.holdsObject id .submitted key)
          (RequestRow.consumeObject (env.now 2)) db.requests } := by
  unfold consumeObject at h
  obtain ⟨row, hbegins, hbody⟩ := transact_commit h (by simp)
  split at hbody
  · cases hbody
  rename_i hsubmitted
  split at hbody
  · cases hbody
  rename_i haffected
  obtain ⟨hearly, hdb, -⟩ := commit_ok hbody
  exact ⟨row, hbegins, not_not.mp hsubmitted, not_not.mp haffected, hearly, hdb⟩

theorem finishOpen_cases (h : finishOpen cfg env id key db = .ok db') :
    db' = db ∨ Table.affected (RequestRow.holdsObject id .consumed key) db.requests ≠ 0 ∧
      ∃ outbox, enqueueObjectTx cfg env 0 key .consumed (env.now 0) db.outbox = .ok outbox ∧
        db' = { db with
          outbox := outbox
          requests := Table.update (RequestRow.holdsObject id .consumed key)
            RequestRow.releaseObject db.requests } := by
  unfold finishOpen at h
  split at h
  · exact Or.inl (Except.ok.inj h).symm
  · rename_i haffected
    split at h
    · cases h
    rename_i outbox henqueue
    exact Or.inr ⟨haffected, outbox, henqueue, (Except.ok.inj h).symm⟩

/-! ### Creation -/

theorem create_cases {rawID rawSubmit rawRetrieve : Bytes} {publicKey : String} {ttl : Option Int}
    {created : Created}
    (h : create cfg now rawID rawSubmit rawRetrieve publicKey ttl db = .ok (db', created)) :
    ∃ fingerprint submitHash retrieveHash,
      tokenHash cfg.sha256 created.submissionToken = .ok submitHash ∧
      tokenHash cfg.sha256 created.retrievalToken = .ok retrieveHash ∧
      Table.lookup RequestRow.id created.id db.requests = none ∧
      db' = { db with
        requests := db.requests ++
          [newRow created.id publicKey fingerprint submitHash retrieveHash
            created.expiresAt] } := by
  unfold create at h
  split at h
  · cases h
  rename_i fingerprint hfingerprint
  dsimp only at h
  split at h
  · cases h
  split at h
  · rename_i submitHash retrieveHash hsubmit hretrieve
    split at h
    · cases h
    rename_i hfree
    cases h
    exact ⟨fingerprint, submitHash, retrieveHash, hsubmit, hretrieve,
      Option.not_isSome_iff_eq_none.mp hfree, rfl⟩
  · cases h

end

end Requests
end FlickDrop
