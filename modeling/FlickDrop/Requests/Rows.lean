import FlickDrop.Requests.Inversion
import FlickDrop.Requests.System

/-!
# What the request transactions do

`RowStep` lists what a transaction can do to the row of one request, `Effect` is a whole
transaction: what it does to every row and which delete jobs it adds.  Every operation of
the store has an `Effect`; nothing later looks into an operation again.
-/

namespace FlickDrop
namespace Requests

open Foundations Events

/-- The row refers to the object. -/
def RequestRow.holds (key : String) (row : RequestRow) : Prop :=
  row.uploadKey = some key ∨ row.finalKey = some key

/-- What a transaction between `clock` and `after` can do to one row.  `fresh` are the keys
that were never used, `new` says whether the request may be new. -/
inductive RowStep (fresh : String → Prop) (new : Prop) (clock after : Nat) :
    Option RequestRow → Option RequestRow → Prop
  | kept (found : Option RequestRow) : RowStep fresh new clock after found found
  | created (id publicKey fingerprint : String) (submissionTokenHash retrievalTokenHash : Bytes)
      (expiresAt : Nat) (hnew : new) :
      RowStep fresh new clock after none
        (some (newRow id publicKey fingerprint submissionTokenHash retrievalTokenHash expiresAt))
  | submitted (row : RequestRow) (attempt bodyHash : Bytes) (kind : Kind) (sizeBytes : Int)
      (envelope : String) (hwaiting : row.state = .waiting) :
      RowStep fresh new clock after (some row)
        (some (row.submit attempt bodyHash kind sizeBytes envelope))
  | reserved (row : RequestRow) (r : Reservation) (hwaiting : row.state = .waiting)
      (hupload : fresh r.uploadKey) (hfinal : fresh r.finalKey) (hne : r.uploadKey ≠ r.finalKey)
      (hdeadline : r.deadline ≤ row.expiresAt) :
      RowStep fresh new clock after (some row) (some (row.reserve r))
  | ended (row : RequestRow) (huploading : row.state = .uploading) :
      RowStep fresh new clock after (some row) (some (row.endReservation row.generation))
  | accepted (row : RequestRow) (now : Nat) (huploading : row.state = .uploading)
      (hclock : clock ≤ now) (hreserved : now < row.reservationExpires)
      (hearly : now < row.expiresAt) :
      RowStep fresh new clock after (some row) (some row.accept)
  | consumedInline (row : RequestRow) (now : Nat) (hsubmitted : row.state = .submitted)
      (hbackend : row.storageBackend ≠ .s3Object) :
      RowStep fresh new clock after (some row) (some (row.clear .consumed now))
  | consumedObject (row : RequestRow) (key : String) (now : Nat)
      (hsubmitted : row.state = .submitted)
      (hkey : row.finalKey = some key) (hclock : clock ≤ now) (hearly : now < row.expiresAt) :
      RowStep fresh new clock after (some row) (some (row.consumeObject now))
  | released (row : RequestRow) (key : String) (hconsumed : row.state = .consumed)
      (hkey : row.finalKey = some key) :
      RowStep fresh new clock after (some row) (some row.releaseObject)
  | cancelled (row : RequestRow) (now : Nat) (hconsumed : row.state ≠ .consumed)
      (havailable : row.state ≠ .unavailable) :
      RowStep fresh new clock after (some row) (some (row.clear .cancelled now))
  | purged (row : RequestRow) (now : Nat) (hnow : now ≤ after)
      (hpurgeable : row.purgeable now = true) : RowStep fresh new clock after (some row) none

/-- A whole transaction; `fresh id` are the unused keys the request `id` may take, `new` are
the ids it may create.  A new job is for an object of a row that lets go of it. -/
structure Effect (cfg : Config) (fresh : String → String → Prop) (new : String → Prop)
    (clock after : Nat) (db db' : DB) : Prop where
  rows : ∀ id, RowStep (fresh id) (new id) clock after (Table.lookup RequestRow.id id db.requests)
    (Table.lookup RequestRow.id id db'.requests)
  unique : Table.UniqueKey RequestRow.id db'.requests
  jobs : ∀ key, Scheduled cfg.codec db'.outbox key → Scheduled cfg.codec db.outbox key ∨
    Area.requests.owns key = true ∧
      ∃ id row, Table.lookup RequestRow.id id db.requests = some row ∧ row.holds key ∧
        ∀ row', Table.lookup RequestRow.id id db'.requests = some row' → ¬ row'.holds key

section

variable {cfg : Config} {env : Env} {fresh : String → String → Prop} {new : String → Prop}
  {clock after now i : Nat} {id token key : String} {owner : Bool} {db db' : DB}
  {row row' : RequestRow} {generation : Int} {change : RequestRow → RequestRow} {reason : Reason}
  {state previousState : State} {outbox' outbox : List OutboxRow} {receipt : Receipt}

/-! ### Delete jobs -/

theorem enqueueObjectTx_ok (h : enqueueObjectTx cfg env i key reason now outbox = .ok outbox') :
    Area.requests.owns key = true ∧ ∀ other, Scheduled cfg.codec outbox' other →
      Scheduled cfg.codec outbox other ∨ key = other := by
  obtain ⟨howns, jobID, henqueue⟩ := enqueueObjectTx_cases h
  refine ⟨howns, fun other hscheduled => ?_⟩
  exact (scheduled_enqueueTx henqueue hscheduled).imp_right And.right

theorem enqueueKeysTx_ok {keys : List (Option String)}
    (h : enqueueKeysTx cfg env reason now i keys outbox = .ok outbox') :
    ∀ other, Scheduled cfg.codec outbox' other →
      Scheduled cfg.codec outbox other ∨ Area.requests.owns other = true ∧ some other ∈ keys := by
  induction keys generalizing i outbox with
  | nil =>
    cases h
    exact fun other hscheduled => Or.inl hscheduled
  | cons head rest ih =>
    cases head with
    | none =>
      intro other hscheduled
      refine (ih h other hscheduled).imp_right ?_
      exact fun hmem => ⟨hmem.1, List.mem_cons_of_mem _ hmem.2⟩
    | some key =>
      unfold enqueueKeysTx at h
      split at h
      · cases h
      rename_i henqueue
      obtain ⟨howns, hone⟩ := enqueueObjectTx_ok henqueue
      intro other hscheduled
      rcases ih h other hscheduled with hmid | hmem
      · rcases hone other hmid with hold | rfl
        · exact Or.inl hold
        · exact Or.inr ⟨howns, List.mem_cons_self⟩
      · exact Or.inr ⟨hmem.1, List.mem_cons_of_mem _ hmem.2⟩

theorem enqueueRequestKeysTx_ok {reason : Reason} {outbox' : List OutboxRow}
    (h : enqueueRequestKeysTx cfg env i id reason now db = .ok outbox') :
    ∃ row, Table.lookup RequestRow.id id db.requests = some row ∧
      ∀ other, Scheduled cfg.codec outbox' other → Scheduled cfg.codec db.outbox other ∨
        Area.requests.owns other = true ∧ row.holds other := by
  obtain ⟨row, hfound, hkeys⟩ := enqueueRequestKeysTx_cases h
  refine ⟨row, hfound, fun other hscheduled => ?_⟩
  refine (enqueueKeysTx_ok hkeys other hscheduled).imp_right ?_
  rintro ⟨howns, hmem⟩
  refine ⟨howns, ?_⟩
  simpa [RequestRow.holds, eq_comm] using hmem

/-! ### Single rows -/

theorem Effect.refl (hunique : Table.UniqueKey RequestRow.id db.requests)
    (hrows : db'.requests = db.requests) (houtbox : db'.outbox = db.outbox) :
    Effect cfg fresh new clock after db db' := by
  refine ⟨?_, hrows ▸ hunique, fun key hs => Or.inl (houtbox ▸ hs)⟩
  intro id
  rw [hrows]
  exact RowStep.kept _

/-- The transaction replaced one row. -/
structure Updates (id : String) (row row' : RequestRow) (db db' : DB) : Prop where
  found : Table.lookup RequestRow.id id db.requests = some row
  lookup : ∀ other, Table.lookup RequestRow.id other db'.requests =
    if other = id then some row' else Table.lookup RequestRow.id other db.requests
  unique : Table.UniqueKey RequestRow.id db'.requests

theorem Updates.of_update {cond : RequestRow → Bool}
    (hunique : Table.UniqueKey RequestRow.id db.requests)
    (hrows : db'.requests = Table.update cond change db.requests)
    (hid : ∀ row, (change row).id = row.id) (hpin : ∀ row, cond row = true → row.id = id)
    (hfound : Table.lookup RequestRow.id id db.requests = some row) (hcond : cond row = true) :
    Updates id row (change row) db db' := by
  refine ⟨hfound, ?_, ?_⟩
  · rw [hrows]
    exact Table.lookup_update_at hid hpin hfound hcond
  · rw [hrows]
    exact hunique.update hid

theorem Updates.self (h : Updates id row row' db db') :
    Table.lookup RequestRow.id id db'.requests = some row' := by
  rw [h.lookup id, if_pos rfl]

/-- A transaction that replaces one row and deletes objects the row lets go of. -/
theorem Updates.effect (h : Updates id row row' db db')
    (hstep : RowStep (fresh id) (new id) clock after (some row) (some row'))
    (hjobs : ∀ key, Scheduled cfg.codec db'.outbox key → Scheduled cfg.codec db.outbox key ∨
      Area.requests.owns key = true ∧ row.holds key ∧ ¬ row'.holds key) :
    Effect cfg fresh new clock after db db' := by
  refine ⟨?_, h.unique, ?_⟩
  · intro other
    rw [h.lookup other]
    split
    · rename_i heq
      rw [heq, h.found]
      exact hstep
    · exact RowStep.kept _
  · intro key hs
    refine (hjobs key hs).imp_right ?_
    rintro ⟨howns, hholds, hnot⟩
    refine ⟨howns, id, row, h.found, hholds, ?_⟩
    intro found hfound
    rw [h.self] at hfound
    obtain rfl := Option.some.inj hfound
    exact hnot

/-- A row without keys holds no object. -/
theorem not_holds (hupload : row.uploadKey = none) (hfinal : row.finalKey = none) :
    ¬ row.holds key := by
  rintro (h | h)
  · rw [hupload] at h
    cases h
  · rw [hfinal] at h
    cases h

/-! The guards of the update statements name one row each. -/

/-- The writes that leave `waiting`. -/
theorem Updates.of_waiting (hunique : Table.UniqueKey RequestRow.id db.requests)
    (hfound : Table.lookup RequestRow.id id db.requests = some row)
    (hwaiting : row.state = .waiting)
    (hrows : db'.requests = Table.update
      (RequestRow.waitingAt id row.generation) change db.requests)
    (hid : ∀ row, (change row).id = row.id) : Updates id row (change row) db db' := by
  refine Updates.of_update hunique hrows hid ?_ hfound ?_
  · intro row hrow
    simp only [RequestRow.waitingAt, Bool.and_eq_true, decide_eq_true_eq] at hrow
    exact hrow.1.1
  · simp [RequestRow.waitingAt, Table.lookup_key hfound, hwaiting]

theorem uploadingAt_pin : ∀ row, RequestRow.uploadingAt id generation row = true → row.id = id := by
  intro row hrow
  simp only [RequestRow.uploadingAt, Bool.and_eq_true, decide_eq_true_eq] at hrow
  exact hrow.1.1

/-- The acceptance of an upload. -/
theorem Updates.of_acceptable {finalKey : String}
    (hunique : Table.UniqueKey RequestRow.id db.requests)
    (hfound : Table.lookup RequestRow.id id db.requests = some row)
    (huploading : row.state = .uploading) (hfinal : row.finalKey = some finalKey)
    (hrows : db'.requests = Table.update (RequestRow.acceptable id row.generation finalKey)
      RequestRow.accept db.requests) : Updates id row row.accept db db' := by
  refine Updates.of_update hunique hrows (fun _ => rfl) ?_ hfound ?_
  · intro row hrow
    rw [RequestRow.acceptable, Bool.and_eq_true] at hrow
    exact uploadingAt_pin row hrow.1
  · simp [RequestRow.acceptable, RequestRow.uploadingAt, Table.lookup_key hfound, huploading,
      hfinal]

/-- The writes to the row of an object. -/
theorem Updates.of_holdsObject (hunique : Table.UniqueKey RequestRow.id db.requests)
    (haffected : Table.affected (RequestRow.holdsObject id state key) db.requests ≠ 0)
    (hrows : db'.requests = Table.update (RequestRow.holdsObject id state key) change db.requests)
    (hid : ∀ row, (change row).id = row.id) :
    ∃ row, row.state = state ∧ row.finalKey = some key ∧ Updates id row (change row) db db' := by
  have hpin : ∀ row, RequestRow.holdsObject id state key row = true → row.id = id := by
    intro row hrow
    simp only [RequestRow.holdsObject, Bool.and_eq_true, decide_eq_true_eq] at hrow
    exact hrow.1.1
  obtain ⟨row, hfound, hguard⟩ := Table.lookup_of_affected hunique hpin haffected
  have hupdates := Updates.of_update hunique hrows hid hpin hfound hguard
  simp only [RequestRow.holdsObject, Bool.and_eq_true, decide_eq_true_eq] at hguard
  exact ⟨row, hguard.1.2, hguard.2, hupdates⟩

/-! ### The end of a reservation -/

theorem endReservationTx_updates (hunique : Table.UniqueKey RequestRow.id db.requests)
    (h : endReservationTx cfg env i id generation now db = .ok db') :
    ∃ row, row.state = .uploading ∧ row.generation = generation ∧
      Updates id row (row.endReservation generation) db db' := by
  obtain ⟨outbox, -, haffected, hdb⟩ := endReservationTx_cases h
  obtain ⟨row, hfound, hguard⟩ :=
    Table.lookup_of_affected hunique uploadingAt_pin (by rw [haffected]; decide)
  have hupdates :=
    Updates.of_update hunique (congrArg DB.requests hdb) (fun _ => rfl) uploadingAt_pin
    hfound hguard
  simp only [RequestRow.uploadingAt, Bool.and_eq_true, decide_eq_true_eq] at hguard
  exact ⟨row, hguard.1.2, hguard.2, hupdates⟩

theorem endReservationTx_ok (hunique : Table.UniqueKey RequestRow.id db.requests)
    (h : endReservationTx cfg env i id generation now db = .ok db') :
    ∃ row, row.state = .uploading ∧ row.generation = generation ∧
      Updates id row (row.endReservation generation) db db' ∧
      ∀ other, Scheduled cfg.codec db'.outbox other → Scheduled cfg.codec db.outbox other ∨
        Area.requests.owns other = true ∧ row.holds other := by
  obtain ⟨row, huploading, hgeneration, hupdates⟩ := endReservationTx_updates hunique h
  obtain ⟨outbox, henqueue, -, rfl⟩ := endReservationTx_cases h
  obtain ⟨row', hfound', hjobs⟩ := enqueueRequestKeysTx_ok henqueue
  obtain rfl : row = row' := Option.some.inj (hupdates.found.symm.trans hfound')
  exact ⟨row, huploading, hgeneration, hupdates, hjobs⟩

theorem endReservationTx_effect (hunique : Table.UniqueKey RequestRow.id db.requests)
    (h : endReservationTx cfg env i id generation now db = .ok db') :
    Effect cfg fresh new clock after db db' := by
  obtain ⟨row, huploading, rfl, hupdates, hjobs⟩ := endReservationTx_ok hunique h
  refine hupdates.effect (RowStep.ended row huploading) ?_
  intro key hs
  refine (hjobs key hs).imp_right ?_
  exact fun hheld => ⟨hheld.1, hheld.2, not_holds rfl rfl⟩

/-! ### Submission -/

theorem keepsReceipt_of (hwaiting : state ≠ .waiting) (huploading : state ≠ .uploading)
    (havailable : state ≠ .unavailable) : state.keepsReceipt = true := by
  cases state with
  | waiting => exact absurd rfl hwaiting
  | uploading => exact absurd rfl huploading
  | unavailable => exact absurd rfl havailable
  | submitted | consumed | cancelled => rfl

/-- `Submit` answers for an accepted attempt, which may be the one it submits. -/
theorem submit_ok {input : SubmitInput} (hunique : Table.UniqueKey RequestRow.id db.requests)
    (h : submit cfg env id token input db = .commit db' (.ok (some receipt))) :
    (∀ fresh new clock after, Effect cfg fresh new clock after db db') ∧ ∃ attempt row',
      tokenHash cfg.sha256 input.attemptToken = .ok attempt ∧
      Table.lookup RequestRow.id id db'.requests = some row' ∧
      row'.Accepted receipt.generation attempt := by
  obtain ⟨attempt, _, _, row, _, hvalid, hbegins, hgeneration, rfl, -, hbody⟩ := submit_cases h
  have hhash := (validateSubmission_ok hvalid).hash
  rcases hbody with ⟨hwaiting, huploading, hattempt, -, rfl⟩ | ⟨hwaiting, -, hdb⟩
  · exact ⟨fun _ _ _ _ => Effect.refl hunique rfl rfl, attempt, row, hhash, hbegins.found,
      keepsReceipt_of hwaiting huploading hbegins.available, hgeneration, hattempt⟩
  · rw [← hgeneration] at hdb
    have hupdates := Updates.of_waiting hunique hbegins.found hwaiting
      (congrArg DB.requests hdb) (fun _ => rfl)
    refine ⟨fun _ _ _ _ => hupdates.effect (RowStep.submitted row _ _ _ _ _ hwaiting) ?_,
      attempt, _, hhash, hupdates.self, rfl, hgeneration, rfl⟩
    intro key hs
    rw [hdb] at hs
    exact Or.inl hs

/-! ### Reservations -/

/-- A reservation is made, or one for the same attempt is found.  A `submitted` answer is
for an accepted attempt. -/
theorem reserve_ok {rawUpload rawFinal : Bytes} {presign : Option String} {input : UploadInput}
    {answer : Except Err (Option UploadResult)}
    (hunique : Table.UniqueKey RequestRow.id db.requests)
    (hne : uploadKeyOf rawUpload ≠ finalKeyOf rawFinal)
    (h : reserve cfg env rawUpload rawFinal presign id token input db = .commit db' answer)
    (hanswer : answer ≠ .ok none) :
    (∀ fresh new clock after, fresh id (uploadKeyOf rawUpload) → fresh id (finalKeyOf rawFinal) →
      Effect cfg fresh new clock after db db') ∧
      ∀ result, answer = .ok (some result) → result.state = .submitted → ∃ attempt row',
        tokenHash cfg.sha256 input.attemptToken = .ok attempt ∧
        Table.lookup RequestRow.id id db'.requests = some row' ∧
        row'.Accepted result.generation attempt := by
  obtain ⟨attempt, _, _, row, _, hvalid, hbegins, hgeneration, -, hbody⟩ :=
    reserve_cases h hanswer
  rcases hbody with
    ⟨hwaiting, hattempt, -, rfl, hsubmitted⟩ | ⟨hwaiting, hstate, deadline, hdeadline, hdb⟩
  · refine ⟨fun _ _ _ _ _ _ => Effect.refl hunique rfl rfl, fun result hresult hstate => ?_⟩
    obtain ⟨huploading, hsame⟩ := hsubmitted result hresult hstate
    exact ⟨attempt, row, (validateUpload_ok hvalid).hash, hbegins.found,
      keepsReceipt_of hwaiting huploading hbegins.available, hsame.symm, hattempt⟩
  · rw [← hgeneration] at hdb
    have hupdates := Updates.of_waiting hunique hbegins.found hwaiting
      (congrArg DB.requests hdb) (fun _ => rfl)
    refine ⟨fun fresh new clock after hupload hfinal => hupdates.effect
      (RowStep.reserved row _ hwaiting hupload hfinal hne hdeadline) ?_,
      fun result hresult hsubmitted => ?_⟩
    · intro key hs
      rw [hdb] at hs
      exact Or.inl hs
    · rw [hstate result hresult] at hsubmitted
      cases hsubmitted

theorem abandon_effect {input : AttemptInput} {answer : Except Err (Option Receipt)}
    (hunique : Table.UniqueKey RequestRow.id db.requests)
    (h : abandon cfg env id token input db = .commit db' answer) (hanswer : answer ≠ .ok none) :
    Effect cfg fresh new clock after db db' := by
  obtain ⟨attempt, row, -, -, -, -, -, hend⟩ := abandon_cases h hanswer
  exact endReservationTx_effect hunique hend

/-! ### Finalization -/

/-- The second transaction answers for an accepted attempt, which may be the one it
accepts.  `hpair` says that the final key names the reservation. -/
theorem acceptTx_ok {attempt : Bytes} {a : ObjectAttempt}
    (hunique : Table.UniqueKey RequestRow.id db.requests) (hmono : Monotone env.now)
    (hpair : ∀ row, Table.lookup RequestRow.id id db.requests = some row → row.state = .uploading →
      row.finalKey = some a.finalKey → row.uploadKey = some a.uploadKey ∧ a.uploadKey ≠ a.finalKey)
    (h : acceptTx cfg env id token generation attempt a db = .commit db' (.ok (some receipt))) :
    (∀ fresh new clock after, clock ≤ env.now 3 → Effect cfg fresh new clock after db db') ∧
    receipt = ⟨generation, .submitted⟩ ∧
      ∃ row', Table.lookup RequestRow.id id db'.requests = some row' ∧
        row'.Accepted generation attempt := by
  obtain ⟨row, hbegins, rfl, hattempt, rfl, hbody⟩ := acceptTx_cases h
  rcases hbody with ⟨haccepted, rfl⟩ | ⟨huploading, hfinal, -, hlive, hearly, outbox, henqueue, hdb⟩
  · exact ⟨fun _ _ _ _ _ => Effect.refl hunique rfl rfl, rfl, row, hbegins.found, haccepted⟩
  · have hupdates := Updates.of_acceptable hunique hbegins.found huploading hfinal
      (congrArg DB.requests hdb)
    obtain ⟨hupload, hne⟩ := hpair row hbegins.found huploading hfinal
    have hnow : env.now 3 < row.expiresAt := (hmono (by decide)).trans_lt hearly
    refine ⟨fun _ _ _ _ hclock => hupdates.effect (RowStep.accepted row (env.now 3)
      huploading hclock hlive hnow) ?_, rfl, _, hupdates.self, rfl, rfl, hattempt⟩
    intro key hs
    rw [hdb] at hs
    obtain ⟨howns, hone⟩ := enqueueObjectTx_ok henqueue
    rcases hone key hs with hold | rfl
    · exact Or.inl hold
    · refine Or.inr ⟨howns, Or.inl hupload, ?_⟩
      rintro (hheld | hheld)
      · cases hheld
      · exact hne (Option.some.inj (hheld.symm.trans hfinal))

/-! ### Open and cancellation -/

theorem clearPayloadTx_updates (hunique : Table.UniqueKey RequestRow.id db.requests)
    (hfound : Table.lookup RequestRow.id id db.requests = some row)
    (hstate : row.state = previousState)
    (h : clearPayloadTx cfg env id previousState state reason db = .ok db') :
    Updates id row (row.clear state (env.now 3)) db db' := by
  obtain ⟨outbox, -, hdb⟩ := clearPayloadTx_cases h
  refine Updates.of_update hunique (congrArg DB.requests hdb) (fun _ => rfl) ?_ hfound ?_
  · intro row hrow
    simp only [RequestRow.stateIs, Bool.and_eq_true, decide_eq_true_eq] at hrow
    exact hrow.1
  · simp [RequestRow.stateIs, Table.lookup_key hfound, hstate]

theorem clearPayloadTx_ok (hunique : Table.UniqueKey RequestRow.id db.requests)
    (hfound : Table.lookup RequestRow.id id db.requests = some row)
    (hstate : row.state = previousState)
    (h : clearPayloadTx cfg env id previousState state reason db = .ok db') :
    Updates id row (row.clear state (env.now 3)) db db' ∧
      ∀ key, Scheduled cfg.codec db'.outbox key → Scheduled cfg.codec db.outbox key ∨
        Area.requests.owns key = true ∧ row.holds key ∧
        ¬ (row.clear state (env.now 3)).holds key := by
  refine ⟨clearPayloadTx_updates hunique hfound hstate h, ?_⟩
  obtain ⟨outbox, henqueue, rfl⟩ := clearPayloadTx_cases h
  obtain ⟨row', hfound', hjobs⟩ := enqueueRequestKeysTx_ok henqueue
  obtain rfl : row = row' := Option.some.inj (hfound.symm.trans hfound')
  intro key hs
  refine (hjobs key hs).imp_right ?_
  exact fun hheld => ⟨hheld.1, hheld.2, not_holds rfl rfl⟩

/-- The first transaction of an open consumes an inline body. -/
theorem openTx_inline {opened : Opened} (hunique : Table.UniqueKey RequestRow.id db.requests)
    (h : openTx cfg env id token db = .commit db' (.ok (some (.inline opened)))) :
    Effect cfg fresh new clock after db db' := by
  obtain ⟨row, hbegins, hsubmitted, -, -, -, -, -, -, hbackend, hclear, -⟩ := openTx_cases h
  obtain ⟨hupdates, hjobs⟩ := clearPayloadTx_ok hunique hbegins.found hsubmitted hclear
  exact hupdates.effect (RowStep.consumedInline row _ hsubmitted hbackend) hjobs

/-- It only reads the row of an object. -/
theorem openTx_read {kind : Kind} {sizeBytes : Int} {envelope : String} {key : Option String}
    (h : openTx cfg env id token db = .commit db'
      (.ok (some (.object kind sizeBytes envelope key)))) :
    db' = db := by
  obtain ⟨row, -, -, -, -, -, -, -, -, -, hdb, -⟩ := openTx_cases h
  exact hdb

theorem revoke_effect (hunique : Table.UniqueKey RequestRow.id db.requests)
    (h : revoke cfg env id token db = .commit db' (.ok (some ()))) :
    Effect cfg fresh new clock after db db' := by
  obtain ⟨row, hbegins, hconsumed, hclear⟩ := revoke_cases h
  obtain ⟨hupdates, hjobs⟩ := clearPayloadTx_ok hunique hbegins.found rfl hclear
  exact hupdates.effect (RowStep.cancelled row _ hconsumed hbegins.available) hjobs

/-- The transaction that consumes an object. -/
theorem consumeObject_ok (hunique : Table.UniqueKey RequestRow.id db.requests)
    (hclock : ∀ i, clock ≤ env.now i) (hmono : Monotone env.now)
    (h : consumeObject cfg env id token key db = .commit db' (.ok (some ()))) :
    Effect cfg fresh new clock after db db' ∧ ∃ row, row.state = .submitted ∧
    row.finalKey = some key ∧
      env.now 2 < row.expiresAt ∧ Updates id row (row.consumeObject (env.now 2)) db db' := by
  obtain ⟨found, hbegins, -, haffected, hearly, hdb⟩ := consumeObject_cases h
  obtain ⟨row, hsubmitted, hkey, hupdates⟩ := Updates.of_holdsObject hunique
    (by rw [haffected]; decide) (congrArg DB.requests hdb) (fun _ => rfl)
  obtain rfl : found = row := Option.some.inj (hbegins.found.symm.trans hupdates.found)
  have hnow : env.now 2 < found.expiresAt := (hmono (by decide)).trans_lt hearly
  refine ⟨hupdates.effect (RowStep.consumedObject found key _ hsubmitted hkey (hclock 2) hnow) ?_,
    found, hsubmitted, hkey, hnow, hupdates⟩
  intro other hs
  rw [hdb] at hs
  exact Or.inl hs

/-- `FinishOpen` finds the object released, or releases it.  `hupload` holds of every
consumed row. -/
theorem finishOpen_ok (hunique : Table.UniqueKey RequestRow.id db.requests)
    (hupload : ∀ row, Table.lookup RequestRow.id id db.requests = some row → row.state = .consumed →
      row.uploadKey = none) (h : finishOpen cfg env id key db = .ok db') :
    Effect cfg fresh new clock after db db' := by
  rcases finishOpen_cases h with rfl | ⟨haffected, outbox, henqueue, hdb⟩
  · exact Effect.refl hunique rfl rfl
  · obtain ⟨row, hconsumed, hkey, hupdates⟩ := Updates.of_holdsObject hunique haffected
      (congrArg DB.requests hdb) (fun _ => rfl)
    refine hupdates.effect (RowStep.released row key hconsumed hkey) ?_
    intro other hs
    rw [hdb] at hs
    obtain ⟨howns, hone⟩ := enqueueObjectTx_ok henqueue
    rcases hone other hs with hold | rfl
    · exact Or.inl hold
    · exact Or.inr ⟨howns, Or.inr hkey, not_holds (hupload row hupdates.found hconsumed) rfl⟩

/-- A creation. -/
theorem create_ok {rawID rawSubmit rawRetrieve : Bytes} {publicKey : String} {ttl : Option Int}
    {created : Created} (hunique : Table.UniqueKey RequestRow.id db.requests)
    (hnew : new created.id)
    (h : create cfg now rawID rawSubmit rawRetrieve publicKey ttl db = .ok (db', created)) :
    Effect cfg fresh new clock after db db' ∧
      (Table.lookup RequestRow.id created.id db'.requests).isSome := by
  obtain ⟨fingerprint, submitHash, retrieveHash, -, -, hfree, rfl⟩ := create_cases h
  refine ⟨⟨?_, hunique.append (Table.lookup_eq_none.mp hfree), fun key hs => Or.inl hs⟩, ?_⟩
  · intro other
    rw [Table.lookup_append]
    by_cases heq : other = created.id
    · rw [heq, hfree, if_pos (by rfl)]
      exact RowStep.created _ _ _ _ _ _ hnew
    · rw [if_neg (fun hid => heq hid.symm), Option.or_none]
      exact RowStep.kept _
  · rw [Table.lookup_append, hfree, if_pos (by rfl)]
    rfl

end

end Requests
end FlickDrop
