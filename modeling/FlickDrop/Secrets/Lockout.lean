import FlickDrop.Secrets.Records

/-!
# Five wrong proofs

A wrong proof is answered and counted in one transaction, although the answer is an
error.  Over any run the counter of a row is the number of such answers, the fifth of
them ends the secret, and until then the right proof opens it.
-/

namespace FlickDrop
namespace Secrets

open Foundations Events

/-- The step answered an open of the secret with `ErrInvalidAccess`. -/
def Label.denies (id : String) : Label → Bool
  | .refused denied | .locked denied => decide (denied = id)
  | .other | .created _ | .activated _ | .opened _ _ _ _ | .cancelled _ | .reclaimed _ => false

/-- How often that happened. -/
def denials (trace : List (Label × World)) (id : String) : Nat :=
  (labels trace).countP (Label.denies id)

theorem denials_snoc (trace : List (Label × World)) (label : Label) (w : World) (id : String) :
    denials (trace ++ [(label, w)]) id = denials trace id + (if label.denies id then 1 else 0) := by
  rw [denials, labels_append, List.countP_append, labels_cons, labels_nil, List.countP_singleton,
    denials]

/-! ### The counter -/

/-- The counter of a secret did not move: its row was there with the same count, or it is
a new one. -/
def Uncounted (id : String) (rows rows' : List SecretRow) : Prop :=
  ∀ row', Table.lookup SecretRow.id id rows' = some row' →
    (∃ row, Table.lookup SecretRow.id id rows = some row ∧
      row'.failedAccessCount = row.failedAccessCount) ∨
    Table.lookup SecretRow.id id rows = none ∧ row'.failedAccessCount = 0

section

variable {id : String} {rows rows' : List SecretRow} {cond : SecretRow → Bool}

theorem Uncounted.refl (id : String) (rows : List SecretRow) : Uncounted id rows rows :=
  fun row' hrow' => Or.inl ⟨row', hrow', rfl⟩

theorem Uncounted.update {change : SecretRow → SecretRow} (hid : ∀ row, (change row).id = row.id)
    (hcount : ∀ row, (change row).failedAccessCount = row.failedAccessCount) :
    Uncounted id rows (Table.update cond change rows) := by
  intro row' hrow'
  rw [Table.lookup_update hid] at hrow'
  obtain ⟨row, hrow, rfl⟩ := Option.map_eq_some_iff.mp hrow'
  refine Or.inl ⟨row, hrow, ?_⟩
  split
  · exact hcount row
  · rfl

theorem Uncounted.delete (hunique : Table.UniqueKey SecretRow.id rows) :
    Uncounted id rows (Table.delete cond rows) := by
  intro row' hrow'
  exact Or.inl ⟨row', Table.lookup_of_delete hunique hrow', rfl⟩

theorem Uncounted.append {row : SecretRow} (hfree : Table.lookup SecretRow.id row.id rows = none)
    (hzero : row.failedAccessCount = 0) : Uncounted id rows (rows ++ [row]) := by
  intro row' hrow'
  rw [Table.lookup_append] at hrow'
  by_cases hid : row.id = id
  · subst hid
    rw [hfree, if_pos rfl] at hrow'
    cases hrow'
    exact Or.inr ⟨hfree, hzero⟩
  · rw [if_neg hid, Option.or_none] at hrow'
    exact Or.inl ⟨row', hrow', rfl⟩

theorem claimExpired_uncounted {cfg : Config} {julian : JulianDay} {batchSize : Nat}
    {now : Nat → Nat} {draws : Draws}
    {purgeRequests : List OutboxRow → Except Unit (List OutboxRow)} {batch : List SecretRow}
    {db db' : DB} (hunique : Table.UniqueKey SecretRow.id db.secrets)
    (h : claimExpired cfg julian batchSize now draws purgeRequests db = .ok (db', batch)) :
    Uncounted id db.secrets db'.secrets := by
  obtain ⟨rfl, reclaimed, outbox, hreclaim, -, rfl⟩ := claimExpired_cases h
  have hid : ∀ row, (SecretRow.claim (now 0) row).id = row.id := fun _ => rfl
  obtain ⟨hunique', -, -⟩ := reclaimRows_ok (hunique.update hid) hreclaim
  intro row' hrow'
  -- a row that survives the purge survived the claim, and that leaves rows as they are
  have hsurvived : Table.lookup SecretRow.id id reclaimed.secrets = some row' :=
    Table.lookup_of_delete hunique' hrow'
  have hclaimed := claimed_rows hunique hreclaim id
  split at hclaimed
  · rw [hclaimed.2] at hsurvived
    cases hsurvived
  · exact Or.inl ⟨row', hclaimed ▸ hsurvived, rfl⟩

theorem refusedLabel_denies (id : String) (db : DB) (other : String) :
    (refusedLabel id db).denies other = decide (id = other) := by
  unfold refusedLabel
  split
  · split <;> rfl
  · rfl

theorem revokedLabel_denies (id : String) (db db' : DB) (other : String) :
    (revokedLabel id db db').denies other = false := by
  unfold revokedLabel
  split <;> rfl

end

section

variable {cfg : Config} {julian : JulianDay} {w w' : World} {label : Label} {clock : Nat}
  {trace : List (Label × World)} {id : String} {row : SecretRow}

/-- The transaction behind a denial. -/
theorem Step.denied (hinv : Inv w) (hstep : Step cfg julian w label w')
    (hdenies : label.denies id = true) :
    ∃ row now, cfg.outbox = true ∧ w.clock ≤ now 0 ∧ Refused cfg now id w.db w'.db row := by
  cases hstep with
  | refused readings draws object other accessProofHash hopen =>
    rw [refusedLabel_denies, decide_eq_true_eq] at hdenies
    subst hdenies
    rcases openAndEnqueueCleanup_commit hinv.unique hopen with ⟨_, _, hok, -⟩ | ⟨row, -, h⟩
    · cases hok
    · refine ⟨row, readings.now, ?_, readings.lower 0, h⟩
      by_contra houtbox
      rw [openAndEnqueueCleanup, if_pos (Bool.eq_false_iff.mpr houtbox)] at hopen
      cases hopen
  | revoke readings draws other token hrevoke =>
    rw [revokedLabel_denies] at hdenies
    cases hdenies
  | _ => cases hdenies

/-- A denial locks the secret if it is the last that is allowed. -/
theorem Step.denied_event (hinv : Inv w) (hstep : Step cfg julian w label w')
    (hdenies : label.denies id = true) (hrow : w.row id = some row) :
    label.event id = refusedEvent row := by
  cases hstep with
  | refused readings draws object other accessProofHash hopen =>
    rw [refusedLabel_denies, decide_eq_true_eq] at hdenies
    subst hdenies
    rcases openAndEnqueueCleanup_commit hinv.unique hopen with ⟨_, _, hok, -⟩ | ⟨row', -, h⟩
    · cases hok
    · rw [World.row, h.found] at hrow
      rw [refusedLabel_event h, eventAt, if_pos rfl, Option.some.inj hrow]
  | revoke readings draws other token hrevoke =>
    rw [revokedLabel_denies] at hdenies
    cases hdenies
  | _ => cases hdenies

/-- No other step moves the counter. -/
theorem Step.uncounted (hinv : Inv w) (hstep : Step cfg julian w label w')
    (hdenies : label.denies id = false) : Uncounted id w.db.secrets w'.db.secrets := by
  cases hstep with
  | create now other raw input hnow hfresh hcreate =>
    obtain ⟨hfree, -, hsecrets, -⟩ := create_ok hcreate
    exact hsecrets ▸ Uncounted.append hfree rfl
  | createLarge now other raw presign input hnow hfresh hcreate =>
    obtain ⟨hfree, -, hsecrets, -⟩ := createLarge_ok hcreate
    exact hsecrets ▸ Uncounted.append hfree rfl
  | finalizeEnd pid head hat hactivate =>
    obtain rfl := finalizeActivate_ok hactivate
    exact Uncounted.update (fun _ => rfl) fun _ => rfl
  | opened pid readings draws object other accessProofHash hfree hopen =>
    rcases openAndEnqueueCleanup_commit hinv.unique hopen with ⟨_, row, -, h⟩ | ⟨_, herr, -⟩
    · exact h.secrets ▸ Uncounted.update (fun _ => rfl) fun _ => rfl
    · cases herr
  | refused readings draws object other accessProofHash hopen =>
    rw [refusedLabel_denies, decide_eq_false_iff_not] at hdenies
    rcases openAndEnqueueCleanup_commit hinv.unique hopen with ⟨_, _, hok, -⟩ | ⟨row, -, h⟩
    · cases hok
    · have hid : ∀ row, (SecretRow.countFailure (readings.now 0) row).id = row.id := fun _ => rfl
      have hpin : ∀ row, SecretRow.unconsumed other row = true → row.id = other := by
        intro row hrow
        simp only [SecretRow.unconsumed, Bool.and_eq_true, decide_eq_true_eq] at hrow
        exact hrow.1
      intro row' hrow'
      have hsame := Table.lookup_update_other hid hpin (Ne.symm hdenies) w.db.secrets
      rw [World.setDB, h.secrets, hsame] at hrow'
      exact Or.inl ⟨row', hrow', rfl⟩
  | revoke readings draws other token hrevoke =>
    rcases revokedLabel_event julian w.clock w.clock hinv.unique hrevoke with
      ⟨-, rfl⟩ | ⟨-, hsecrets, -⟩
    · exact Uncounted.refl id _
    · exact hsecrets ▸ Uncounted.delete hinv.unique
  | cleanup other hcleanup =>
    rcases (cleanup_ok hcleanup).2 with hsecrets | hsecrets
    · exact hsecrets ▸ Uncounted.refl id _
    · exact hsecrets ▸ Uncounted.update (fun _ => rfl) fun _ => rfl
  | claimExpired batchSize now draws purgeRequests hclock hnow hforeign hclaim =>
    exact claimExpired_uncounted hinv.unique hclaim
  | streamCleanup pid readings draws hat henqueue =>
    exact (scheduled_enqueueObject henqueue).1 ▸ Uncounted.refl id _
  | tick | put | objectGone | outbox | finalizeBegin | finalizeFail | streamEnd | streamLost
  | scanBegin | scanListed | scanReset | scanCommit | scanEnd | acknowledge =>
    exact Uncounted.refl id _

/-! ### Runs -/

/-- The counter of a secret over a run. -/
structure Counted (id : String) (trace : List (Label × World)) (w : World) : Prop where
  count : ∀ row, w.row id = some row → row.failedAccessCount = denials trace id
  bound : denials trace id ≤ maxFailedAccessAttempts
  unborn : id ∉ w.issued → denials trace id = 0
  shut : denials trace id = maxFailedAccessAttempts → (w.life id).ended

theorem not_ended_of_unconsumed (hrow : w.row id = some row) (hunconsumed : row.consumedAt = none) :
    ¬ (w.life id).ended := by
  have hlive : lifeOf (id ∈ w.issued) (some row) = .pending ∨
      lifeOf (id ∈ w.issued) (some row) = .active := lifeOf_unconsumed hunconsumed
  rw [World.life, hrow]
  rcases hlive with h | h
  · rw [h]
    rintro (hended | hended) <;> cases hended
  · rw [h]
    rintro (hended | hended) <;> cases hended

theorem Step.counted (hinv : Inv w) (h : Counted id trace w) (hstep : Step cfg julian w label w') :
    Counted id (trace ++ [(label, w')]) w' := by
  have hadvance := hstep.advance hinv
  cases hdenies : label.denies id with
  | true =>
    obtain ⟨row, now, -, -, hrefused⟩ := hstep.denied hinv hdenies
    have hrow : w.row id = some row := hrefused.found
    have hcounted : w'.row id = some (row.countFailure (now 0)) := hrefused.counted
    have hcount := h.count row hrow
    -- an unconsumed row has not seen five denials
    have hfew : denials trace id < maxFailedAccessAttempts := by
      refine Nat.lt_of_le_of_ne h.bound fun hfive => ?_
      exact not_ended_of_unconsumed hrow hrefused.unconsumed (h.shut hfive)
    have hsnoc : denials (trace ++ [(label, w')]) id = denials trace id + 1 := by
      rw [denials_snoc, hdenies, if_pos rfl]
    refine ⟨?_, ?_, ?_, ?_⟩
    · intro row' hrow'
      rw [hcounted] at hrow'
      obtain rfl := Option.some.inj hrow'
      rw [hsnoc, ← hcount]
      rfl
    · rw [hsnoc]
      exact hfew
    · intro hunborn
      rw [hadvance.issued id] at hunborn
      exact absurd (hinv.issued id row hrow) fun hissued => hunborn (Or.inl hissued)
    · intro hfive
      rw [hsnoc, ← hcount] at hfive
      rw [World.life, hcounted]
      refine Or.inl (lifeOf_consumed ?_)
      rw [SecretRow.countFailure, if_pos (Nat.le_of_eq hfive.symm)]
      rfl
  | false =>
    have hsnoc : denials (trace ++ [(label, w')]) id = denials trace id := by
      rw [denials_snoc, hdenies, if_neg (by decide), Nat.add_zero]
    refine ⟨?_, hsnoc ▸ h.bound, ?_, ?_⟩
    · intro row' hrow'
      rw [hsnoc]
      rcases hstep.uncounted hinv hdenies row' hrow' with ⟨row, hrow, hsame⟩ | ⟨hnone, hzero⟩
      · rw [hsame]
        exact h.count row hrow
      · rcases (hadvance.rows id).origin hrow' with ⟨-, hcreated⟩ | ⟨row, hrow, -⟩
        · rw [hzero, h.unborn (hadvance.fresh id hcreated).1]
        · rw [World.row, hnone] at hrow
          cases hrow
    · intro hunborn
      rw [hsnoc]
      exact h.unborn fun hissued => hunborn ((hadvance.issued id).mpr (Or.inl hissued))
    · intro hfive
      rw [hsnoc] at hfive
      exact ((hstep.life hinv id).silent_of_ended (h.shut hfive)).2

theorem counted_of_run (hrun : Run (Step cfg julian) (World.start clock) trace w) (id : String) :
    Counted id trace w := by
  refine Run.history_invariant (Counted id) ⟨?_, Nat.zero_le _, fun _ => rfl, ?_⟩ ?_ hrun
  · intro row hrow
    cases hrow
  · intro hfive
    cases hfive
  · exact fun _ _ _ _ hprefix hpast hstep => hstep.counted (inv_of_run hprefix) hpast

end

/-! ### The matching proof -/

/-- The body of a secret can be read: `object` is what the object store answers. -/
def Readable (cfg : Config) (object : Option (Bytes × Int)) (row : SecretRow) (db : DB) : Prop :=
  row.state = .active ∧
    if row.storageBackend = .s3Object then
      cfg.objects = true ∧ ∃ body, object = some (body, row.sizeBytes)
    else ∃ payload, Table.lookup Payload.secretID row.id db.payloads = some payload ∧
      payload.ciphertext ≠ []

section

variable {cfg : Config} {now : Nat → Nat} {draws : Draws} {object : Option (Bytes × Int)}
  {id accessProofHash : String} {db : DB} {row : SecretRow}

theorem load_of_readable (hunique : Table.UniqueKey SecretRow.id db.secrets)
    (hid : blank id = false) (hfound : Table.lookup SecretRow.id id db.secrets = some row)
    (hreadable : Readable cfg object row db) :
    ∃ secret, load id db = .ok (secret, row.consumedAt) ∧ secret.access = row.access ∧
      secret.storageBackend = row.storageBackend ∧ secret.sizeBytes = row.sizeBytes ∧
      secret.expiresAt = row.expiresAt := by
  have hkey : row.id = id := Table.lookup_key hfound
  have hnonempty : id ≠ "" := by
    rintro rfl
    rw [blank_empty] at hid
    cases hid
  have hfind : (db.secrets.find? fun row => decide (row.id = id) && decide (row.state = .active)) =
      some row := by
    cases hfind : db.secrets.find? fun row =>
        decide (row.id = id) && decide (row.state = .active) with
    | none =>
      have hnot := List.find?_eq_none.mp hfind row (Table.lookup_mem hfound)
      simp [hkey, hreadable.1] at hnot
    | some other =>
      have hguard := List.find?_some hfind
      simp only [Bool.and_eq_true, decide_eq_true_eq] at hguard
      have hother := Table.lookup_of_mem hunique (List.mem_of_find?_eq_some hfind)
      rw [hguard.1, hfound] at hother
      exact hother.symm
  have hbody : ¬ (row.storageBackend ≠ .s3Object ∧
      ((Table.lookup Payload.secretID id db.payloads).map Payload.ciphertext).getD [] = [] ∧
      row.consumedAt = none) := by
    rintro ⟨hinline, hempty, -⟩
    have hpayload := hreadable.2
    rw [if_neg hinline, hkey] at hpayload
    obtain ⟨payload, hlookup, hne⟩ := hpayload
    rw [hlookup] at hempty
    exact hne hempty
  unfold load
  rw [if_neg hnonempty, hfind]
  dsimp only
  rw [if_neg hbody]
  exact ⟨_, rfl, rfl, rfl, rfl, rfl⟩

theorem openBody_of_readable {secret : Secret}
    (hbackend : secret.storageBackend = row.storageBackend)
    (hsize : secret.sizeBytes = row.sizeBytes) (hreadable : Readable cfg object row db) :
    ∃ opened, openBody cfg object secret = .ok opened ∧ opened.expiresAt = secret.expiresAt := by
  unfold openBody
  rw [hbackend, hsize]
  by_cases hobject : row.storageBackend = .s3Object
  · have hstored := hreadable.2
    rw [if_pos hobject] at hstored
    obtain ⟨hobjects, body, rfl⟩ := hstored
    simp [hobject, hobjects]
  · simp [hobject]

theorem affected_unconsumed (hunique : Table.UniqueKey SecretRow.id db.secrets)
    (hfound : Table.lookup SecretRow.id id db.secrets = some row) (hnone : row.consumedAt = none) :
    Table.affected (SecretRow.unconsumed id) db.secrets = 1 := by
  show Table.affected (fun row => decide (row.id = id) && row.consumedAt.isNone) db.secrets = 1
  rw [Table.affected_key hunique id fun row => row.consumedAt.isNone, hfound]
  simp [hnone]

/-- **The matching proof opens the secret**, however many wrong ones came before. -/
theorem openAndEnqueueCleanup_opens (hunique : Table.UniqueKey SecretRow.id db.secrets)
    (houtbox : cfg.outbox = true) (hid : blank id = false)
    (hfound : Table.lookup SecretRow.id id db.secrets = some row)
    (hunconsumed : row.consumedAt = none) (hreadable : Readable cfg object row db)
    (hproof : ∀ access, row.access = some access → access.proofHash = accessProofHash)
    (hearly : now 0 < row.expiresAt) (hstill : now 1 < row.expiresAt) (hnow : 0 < now 2)
    (husable : draws.Usable cfg.codec 0 (fun jobID => secretEvent jobID id (now 2)) db.outbox) :
    ∃ db' secret, openAndEnqueueCleanup cfg now draws object id accessProofHash db =
      .commit db' (.ok secret) := by
  obtain ⟨secret, hload, haccess, hbackend, hsize, hexpires⟩ :=
    load_of_readable hunique hid hfound hreadable
  obtain ⟨opened, hbody, hopenedExpires⟩ := openBody_of_readable hbackend hsize hreadable
  obtain ⟨jobID, text, hdrawn, hjobID, hfree, hencode⟩ := husable
  have hmatch : ¬ (secret.accessProofHash ≠ "" ∧ secret.accessProofHash ≠ accessProofHash) := by
    rintro ⟨hset, hwrong⟩
    rw [Secret.accessProofHash, haccess] at hset hwrong
    cases hmodel : row.access with
    | none => simp [hmodel] at hset
    | some access =>
      rw [hmodel] at hwrong
      exact hwrong (hproof access hmodel)
  have hopen : openTx cfg now draws object id accessProofHash db = ({ db with
      secrets := Table.update (SecretRow.unconsumed id) (SecretRow.consume (now 1)) db.secrets
      management := recordManagementOutcomeTx id .opened db.management }, .ok opened) := by
    unfold openTx
    simp only [hload]
    rw [hunconsumed, if_neg (by simp), if_neg (Nat.not_le_of_lt (hexpires ▸ hearly)), if_neg hmatch]
    simp only [hbody]
    rw [if_neg (Nat.not_le_of_lt (hopenedExpires ▸ hexpires ▸ hstill)), consumeTx,
      affected_unconsumed hunique hfound hunconsumed]
    rfl
  have hvalid : (secretEvent jobID id (now 2)).validate = .ok () := by
    have hzero : now 2 ≠ 0 := Nat.ne_of_gt hnow
    simp [JobEvent.validate, secretEvent, hjobID, hid, hzero, JobEvent.validateReason, validReason]
  obtain ⟨outbox, henqueue⟩ := enqueueTx_succeeds cfg.subject (now 3) hvalid hfree hencode
  refine ⟨{ db with
    secrets := Table.update (SecretRow.unconsumed id) (SecretRow.consume (now 1)) db.secrets
    management := recordManagementOutcomeTx id .opened db.management
    outbox := outbox }, opened, ?_⟩
  unfold openAndEnqueueCleanup
  rw [houtbox, if_neg (by decide), hdrawn]
  simp only [hopen]
  rw [henqueue]

/-- An answer `ErrInvalidAccess` is always committed. -/
theorem openAndEnqueueCleanup_ne_invalidAccess :
    openAndEnqueueCleanup cfg now draws object id accessProofHash db ≠
    .rollback .invalidAccess := by
  unfold openAndEnqueueCleanup
  grind

end

/-- The fifth denial, in one commit: the payload is gone or its deletion is queued, and the
sender's record says `locked`. -/
structure LockedBy (cfg : Config) (id : String) (before after : World) (row : SecretRow)
    (record : ManagementRow) : Prop where
  found : before.row id = some row
  payload : row.storageBackend ≠ .s3Object →
    Table.lookup Payload.secretID id after.db.payloads = none
  object : row.storageBackend = .s3Object →
    Enqueued cfg.codec before.db.outbox after.db.outbox row.storageKey
  kept : before.record id = some record
  unended : record.outcome = none
  recorded : after.record id = some { record with outcome := some .locked }

theorem Step.locks {cfg : Config} {julian : JulianDay} {trace : List (Label × World)}
    {w w' : World} {label : Label} {id : String} (hinv : Inv w) (hmanaged : Managed w)
    (hcounted : Counted id trace w) (hstep : Step cfg julian w label w')
    (hdenies : label.denies id = true)
    (hfifth : denials (trace ++ [(label, w')]) id = maxFailedAccessAttempts) :
    ∃ row record, LockedBy cfg id w w' row record := by
  obtain ⟨row, now, houtbox, hclock, h⟩ := hstep.denied hinv hdenies
  have hrow : w.row id = some row := h.found
  have hmany : maxFailedAccessAttempts ≤ row.failedAccessCount + 1 := by
    rw [denials_snoc, hdenies, if_pos rfl, ← hcounted.count row hrow] at hfifth
    exact Nat.le_of_eq hfifth.symm
  have hpurged := h.purged hmany
  have hagree := hmanaged.agree id
  -- the row is not expired, so the sender still has a record, and it is open
  obtain ⟨record, hrecord⟩ := hagree.present row hrow (Nat.lt_of_le_of_lt hclock h.early)
  have hunended := hagree.unended row record hrow hrecord h.unconsumed
  refine ⟨row, record, hrow, ?_, ?_, hrecord, hunended, ?_⟩
  · intro hinline
    rw [Purged, if_neg hinline] at hpurged
    rw [hpurged, Table.lookup_eq_none]
    intro payload hpayload
    simpa using (List.mem_filter.mp hpayload).2
  · intro hobject
    rw [Purged, if_pos hobject] at hpurged
    exact hpurged houtbox
  · have hlookup := lookup_recordManagementOutcomeTx id .locked w.db.management id
    have hmanagement := h.management
    rw [if_pos hmany] at hmanagement
    rw [World.record] at hrecord
    rw [World.record, hmanagement, hlookup, if_pos rfl, hrecord, Option.map_some,
      ManagementRow.close, if_pos hunended]

/-- **Brute-force bound.**  In every run and for every secret: an `ErrInvalidAccess` is
only answered by a commit; at most five of them commit; the counter of the row is their
number; while the secret is unconsumed, unexpired and readable, the matching proof opens
it whatever the counter; after the fifth every open fails; and the commit of the fifth
deleted the payload or queued its deletion, and recorded `locked`. -/
theorem five_wrong_proofs_lock {cfg : Config} {julian : JulianDay} {clock : Nat}
    {trace : List (Label × World)} {w : World}
    (hrun : Run (Step cfg julian) (World.start clock) trace w) (id : String) :
    (∀ now draws object accessProofHash,
      openAndEnqueueCleanup cfg now draws object id accessProofHash w.db ≠
        .rollback .invalidAccess) ∧
    denials trace id ≤ 5 ∧
    (∀ row, w.row id = some row → row.failedAccessCount = denials trace id) ∧
    (∀ row access now draws object, w.row id = some row → row.access = some access →
      row.consumedAt = none → Readable cfg object row w.db → now 0 < row.expiresAt →
      now 1 < row.expiresAt → cfg.outbox = true → blank id = false → 0 < now 2 →
      draws.Usable cfg.codec 0 (fun jobID => secretEvent jobID id (now 2)) w.db.outbox →
      ∃ db secret, openAndEnqueueCleanup cfg now draws object id access.proofHash w.db =
        .commit db (.ok secret)) ∧
    (denials trace id = 5 → ∀ now draws object accessProofHash,
      ∃ err, openAndEnqueueCleanup cfg now draws object id accessProofHash w.db = .rollback err) ∧
    (∀ front label after back, trace = front ++ (label, after) :: back →
      label.denies id = true → denials (front ++ [(label, after)]) id = 5 →
      ∃ before row record, Run (Step cfg julian) (World.start clock) front before ∧
        LockedBy cfg id before after row record) := by
  have hinv := inv_of_run hrun
  have hcounted := counted_of_run hrun id
  refine ⟨?_, hcounted.bound, hcounted.count, ?_, ?_, ?_⟩
  · exact fun _ _ _ _ => openAndEnqueueCleanup_ne_invalidAccess
  · intro row access now draws object hrow haccess hunconsumed hreadable hearly hstill houtbox hid
      hnow husable
    refine openAndEnqueueCleanup_opens hinv.unique houtbox hid hrow hunconsumed hreadable ?_
      hearly hstill hnow husable
    intro access' haccess'
    rw [haccess] at haccess'
    rw [Option.some.inj haccess']
  · intro hfive now draws object accessProofHash
    have hended := hcounted.shut hfive
    cases hopen : openAndEnqueueCleanup cfg now draws object id accessProofHash w.db with
    | rollback err => exact ⟨err, rfl⟩
    | commit db answer =>
      -- both ways to commit need an unconsumed row
      rcases openAndEnqueueCleanup_commit hinv.unique hopen with ⟨_, row, -, h⟩ | ⟨row, -, h⟩
      · exact absurd hended (not_ended_of_unconsumed h.loaded.found h.unconsumed)
      · exact absurd hended (not_ended_of_unconsumed h.found h.unconsumed)
  · rintro front label after back rfl hdenies hfifth
    obtain ⟨before, hfront, hstep, -⟩ := hrun.split
    obtain ⟨row, record, hlocked⟩ := hstep.locks (inv_of_run hfront) (managed_of_run hfront)
      (counted_of_run hfront id) hdenies hfifth
    exact ⟨before, row, record, hfront, hlocked⟩

/-! ### A concrete run -/

/-- A text behind a passphrase. -/
def guardedInput : CreateInput :=
  { sampleInput with
    accessKDF := ⟨kdfPBKDF2SHA256, "salt", 600000, 256⟩
    accessProofHash := "right"
    wrappedIdentity := some "YWdlLWVuY3J5cHRpb24ub3JnL3YxCg==" }

def guardedConfig : Config := sampleConfig (secretEvent "job" "a" 1)

def guardedRow : SecretRow := { guardedInput with maxViews := 1 }.row "a" 1

/-- The tables after `n` wrong proofs. -/
def guardedDB (n : Nat) : DB :=
  { DB.empty with
    secrets := [{ guardedRow with failedAccessCount := n }]
    payloads := [⟨"a", ageMagic, 1⟩]
    management := [⟨"a", [], guardedRow.expiresAt, none⟩] }

/-- The tables after the fifth. -/
def lockedDB : DB :=
  { DB.empty with
    secrets := [{ guardedRow with failedAccessCount := 5, consumedAt := some 1 }]
    management := [⟨"a", [], guardedRow.expiresAt, some .locked⟩] }

def guardedWorld (db : DB) : World := (World.start 1).issue "a" db

theorem guarded_created : Step guardedConfig instantDay (World.start 1) (.created guardedRow)
    (guardedWorld (guardedDB 0)) := by
  have hcreate : create guardedConfig 1 "a" [] guardedInput DB.empty = .ok (guardedDB 0, "") := rfl
  exact Step.create 1 "a" [] guardedInput (Nat.le_refl 1)
    ⟨by simp [World.start], by simp [World.start]⟩ hcreate

theorem guarded_refused {n : Nat} (h : n < 4) : Step guardedConfig instantDay
    (guardedWorld (guardedDB n)) (.refused "a") (guardedWorld (guardedDB (n + 1))) := by
  have hopen : openAndEnqueueCleanup guardedConfig (Readings.still 1).now sampleDraws none "a"
      "wrong" (guardedWorld (guardedDB n)).db = .commit (guardedDB (n + 1))
      (.error .invalidAccess) := by
    rcases n with _ | _ | _ | _ | n
    · rfl
    · rfl
    · rfl
    · rfl
    · omega
  exact Step.refused
    (Readings.still (guardedWorld (guardedDB n)).clock) sampleDraws none "a" "wrong" hopen

theorem guarded_locked : Step guardedConfig instantDay (guardedWorld (guardedDB 4)) (.locked "a")
    (guardedWorld lockedDB) := by
  have hopen : openAndEnqueueCleanup guardedConfig (Readings.still 1).now sampleDraws none "a"
      "wrong" (guardedWorld (guardedDB 4)).db = .commit lockedDB (.error .invalidAccess) := rfl
  exact Step.refused
    (Readings.still (guardedWorld (guardedDB 4)).clock) sampleDraws none "a" "wrong" hopen

/-- Five wrong proofs in a row; the right one comes too late. -/
theorem five_wrong_proofs_lock_text :
    ∃ trace w, Run (Step guardedConfig instantDay) (World.start 1) trace w ∧
      denials trace "a" = 5 ∧
      ∃ err, openAndEnqueueCleanup guardedConfig (fun _ => 1) sampleDraws none
        "a" "right" w.db = .rollback err := by
  have hrun : Run (Step guardedConfig instantDay) (World.start 1) _ _ :=
    Run.snoc (Run.snoc (Run.snoc (Run.snoc (Run.snoc (Run.snoc Run.nil guarded_created)
      (guarded_refused (by decide))) (guarded_refused (by decide))) (guarded_refused (by decide)))
      (guarded_refused (by decide))) guarded_locked
  exact ⟨_, _, hrun, rfl, (five_wrong_proofs_lock hrun "a").2.2.2.2.1 rfl _ _ _ _⟩

end Secrets
end FlickDrop
