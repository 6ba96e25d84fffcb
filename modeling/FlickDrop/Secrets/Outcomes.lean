import FlickDrop.Secrets.Lockout

/-!
# What the sender is told

The status page of a secret is computed from its record, its row and two deadlines.  Over
any run the record says how the secret ended (`Told`), the row is there as long as it has
not, and so the page tells the truth until the record expires.
-/

namespace FlickDrop
namespace Secrets

open Foundations Events

/-- A creation that returned `token` for the secret of `row`. -/
inductive Issued (cfg : Config) (before : World) (row : SecretRow) (token : String)
    (after : World) : Prop
  | create {now : Nat} {raw : Bytes} {input : CreateInput} {db : DB} (hraw : raw.length = 32)
      (hrow : row = { input with maxViews := defaultViews input.maxViews }.row row.id now)
      (hcreate : create cfg now row.id raw input before.db = .ok (db, token))
      (hafter : after = before.issue row.id db)
  | createLarge {now : Nat} {raw : Bytes} {presign : Option String} {input : CreateLargeInput}
      {db : DB} {upload : String} (hraw : raw.length = 32)
      (hrow : row = { input with maxViews := defaultViews input.maxViews }.row row.id now)
      (hcreate : createLarge cfg now row.id raw presign input before.db = .ok (db, token, upload))
      (hafter : after = before.issue row.id db)

/-- The record the token opens. -/
theorem Issued.record {cfg : Config} {before after : World} {row : SecretRow} {token : String}
    (h : Issued cfg before row token after) :
    ∃ raw, tokenBytes token = some raw ∧
      after.record row.id = some ⟨row.id, cfg.sha256 raw, row.expiresAt, none⟩ := by
  have hrecord : ∀ {raw : Bytes} {db : DB}, raw.length = 32 →
      Recorded cfg row.id row.expiresAt raw token before.db db → after = before.issue row.id db →
      ∃ raw, tokenBytes token = some raw ∧
        after.record row.id = some ⟨row.id, cfg.sha256 raw, row.expiresAt, none⟩ := by
    rintro raw db hraw hrecorded rfl
    refine ⟨raw, tokenBytes_eq_some_iff.mpr ⟨hraw, hrecorded.token⟩, ?_⟩
    show Table.lookup ManagementRow.secretID row.id db.management = _
    rw [hrecorded.management, Table.lookup_append, hrecorded.free, if_pos rfl]
    rfl
  cases h with
  | create hraw hrow hcreate hafter =>
    exact hrecord hraw (hrow ▸ (create_ok hcreate).2.2.2) hafter
  | createLarge hraw hrow hcreate hafter =>
    exact hrecord hraw (hrow ▸ (createLarge_ok hcreate).2.2.2) hafter

/-! ### The record over a run -/

/-- The ends of a secret in a run. -/
def ends (trace : List (Label × World)) (id : String) : List Terminal :=
  (labels trace).flatMap fun label => (label.event id).terminals

theorem ends_snoc (trace : List (Label × World)) (label : Label) (w : World) (id : String) :
    ends (trace ++ [(label, w)]) id = ends trace id ++ (label.event id).terminals := by
  simp [ends, labels_append]

/-- What the record of a secret created as `issued` holds after it ended as in `past`. -/
def Told (clock : Nat) (issued : ManagementRow) (past : List Terminal) : Option ManagementRow → Prop
  | none => issued.expiresAt ≤ clock
  | some record =>
    record.tokenHash = issued.tokenHash ∧ record.expiresAt = issued.expiresAt ∧
      (clock < record.expiresAt → record.outcome = past.head?.map Terminal.outcome)

theorem Told.step {clock after : Nat} {issued : ManagementRow} {past : List Terminal}
    {row row' : Option SecretRow} {record record' : Option ManagementRow} {event : Event}
    (h : Told clock issued past record) (hagree : Agree clock row record)
    (hrecord : RecordStep after row row' record event record') (hclock : clock ≤ after)
    (hnew : event ≠ .created) : Told after issued (past ++ event.terminals) record' := by
  cases hrecord with
  | kept _ hevent =>
    have hnone : event.terminals = [] := by rcases hevent with rfl | rfl <;> rfl
    rw [hnone, List.append_nil]
    cases record with
    | none => exact Nat.le_trans h hclock
    | some m => exact ⟨h.1, h.2.1, fun hlate => h.2.2 (Nat.lt_of_le_of_lt hclock hlate)⟩
  | created => exact absurd rfl hnew
  | closed _ t =>
    cases record with
    | none => exact Nat.le_trans h hclock
    | some m =>
      refine ⟨by simpa using h.1, by simpa using h.2.1, fun hlate => ?_⟩
      rw [ManagementRow.close_expiresAt] at hlate
      rw [ManagementRow.close_outcome, h.2.2 (Nat.lt_of_le_of_lt hclock hlate)]
      -- the first end is the one that is recorded
      cases past <;> rfl
  | lapsed _ expired hrow hexpired =>
    cases record with
    | none => exact Nat.le_trans h hclock
    | some m =>
      refine ⟨h.1, h.2.1, fun hlate => ?_⟩
      rw [hagree.expiry expired m hrow rfl] at hlate
      exact absurd hexpired (Nat.not_le_of_lt hlate)
  | purged m hevent hexpired => exact Nat.le_trans (Nat.le_of_eq h.2.1.symm) hexpired

section

variable {cfg : Config} {julian : JulianDay} {id : String} {w₀ w : World}
  {trace : List (Label × World)}

theorem told_of_run {issued : ManagementRow} (hinv : Inv w₀) (hmanaged : Managed w₀)
    (hrecord : w₀.record id = some issued) (hopen : issued.outcome = none)
    (hrun : Run (Step cfg julian) w₀ trace w) :
    Told w.clock issued (ends trace id) (w.record id) := by
  have hstate : ∀ {trace w}, Run (Step cfg julian) w₀ trace w →
      (Inv w ∧ id ∈ w.issued) ∧ Managed w := by
    intro trace w hprefix
    refine Run.invariant (fun w => (Inv w ∧ id ∈ w.issued) ∧ Managed w)
      ⟨⟨hinv, hmanaged.issued id issued hrecord⟩, hmanaged⟩ ?_ hprefix
    rintro w label w' ⟨⟨hinv, hissued⟩, hmanaged⟩ hstep
    exact ⟨⟨hstep.inv hinv, ((hstep.advance hinv).issued id).mpr (Or.inl hissued)⟩,
      hstep.managed hinv hmanaged⟩
  refine Run.history_invariant (fun trace w => Told w.clock issued (ends trace id) (w.record id))
    ?_ ?_ hrun
  · rw [hrecord]
    exact ⟨rfl, rfl, fun _ => hopen⟩
  · intro trace w label w' hprefix hpast hstep
    obtain ⟨⟨hinv, hissued⟩, hmanaged⟩ := hstate hprefix
    have hadvance := hstep.advance hinv
    rw [ends_snoc]
    refine hpast.step (hmanaged.agree id) ((hstep.records hinv hmanaged.unique).records id)
      hadvance.clock ?_
    exact fun hcreated => (hadvance.fresh id hcreated).1 hissued

/-- A recorded outcome stays, for as long as the record does. -/
theorem outcome_of_run {m : ManagementRow} {outcome : ManagementOutcome} (hinv : Inv w₀)
    (hmanaged : Managed w₀) (hrecord : w₀.record id = some m) (houtcome : m.outcome = some outcome)
    (hrun : Run (Step cfg julian) w₀ trace w) :
    ∀ m', w.record id = some m' → m'.outcome = some outcome := by
  refine Run.stable (fun w => (Inv w ∧ id ∈ w.issued) ∧ Managed w)
    (fun w => ∀ m', w.record id = some m' → m'.outcome = some outcome)
    ⟨⟨hinv, hmanaged.issued id m hrecord⟩, hmanaged⟩ ?_ ?_ ?_ hrun
  · rintro w label w' ⟨⟨hinv, hissued⟩, hmanaged⟩ hstep
    exact ⟨⟨hstep.inv hinv, ((hstep.advance hinv).issued id).mpr (Or.inl hissued)⟩,
      hstep.managed hinv hmanaged⟩
  · intro m' hm'
    rw [hrecord] at hm'
    rwa [← Option.some.inj hm']
  · rintro w label w' ⟨⟨hinv, hissued⟩, hmanaged⟩ hkept hstep m' hm'
    have hrecords := (hstep.records hinv hmanaged.unique).records id
    have hfresh := (hstep.advance hinv).fresh id
    generalize w.record id = record at hrecords hkept
    generalize label.event id = event at hrecords hfresh
    rw [hm'] at hrecords
    generalize hafter : some m' = record' at hrecords
    cases hrecords with
    | kept | lapsed => exact hkept m' hafter.symm
    | created => exact absurd hissued (hfresh rfl).1
    | purged => cases hafter
    | closed _ t =>
      obtain ⟨m, rfl, rfl⟩ := Option.map_eq_some_iff.mp hafter.symm
      rw [ManagementRow.close_outcome, hkept m rfl]
      rfl

end

/-! ### The status page -/

section

variable {cfg : Config} {now : Nat} {id token : String} {raw : Bytes} {db : DB} {m : ManagementRow}

/-- The page with the right token, before the record expires. -/
theorem management_early (htoken : tokenBytes token = some raw)
    (hrecord : Table.lookup ManagementRow.secretID id db.management = some m)
    (hhash : m.tokenHash = cfg.sha256 raw) (hearly : now < m.expiresAt) {status : Status}
    (hlive : liveStatus cfg now m (Table.lookup SecretRow.id id db.secrets) = .ok status) :
    management cfg now id token db = .ok ⟨id, status, m.expiresAt,
      decide (status = .active) || decide (status = .pendingUpload)⟩ := by
  unfold management
  simp only [htoken, hrecord]
  rw [if_neg (by simp [hhash]), if_neg (Nat.not_le_of_lt hearly)]
  simp only [hlive]

theorem management_late
    (h : ∀ m, Table.lookup ManagementRow.secretID id db.management = some m → m.expiresAt ≤ now) :
    management cfg now id token db = .error .managementUnavailable := by
  rcases management_cases cfg now id token db with hrefused | ⟨m, hrecord, hearly, -⟩
  · exact hrefused
  · exact absurd (h m hrecord) (Nat.not_le_of_lt hearly)

end

/-- The status of a secret that ended as in `past` is what happened to it. -/
structure Truthful (cfg : Config) (now : Nat) (id : String) (past : List Terminal) (w : World)
    (status : Status) : Prop where
  opened : status = .recorded .opened ↔ .opened ∈ past
  locked : status = .recorded .locked ↔ .locked ∈ past
  cancelled : status = .recorded .cancelled ↔ .cancelled ∈ past
  unavailable : status = .recorded .unavailable ↔ .reclaimed ∈ past ∨
    ∃ row, w.row id = some row ∧ row.state = .pendingUpload ∧ row.createdAt + cfg.pendingTTL ≤ now
  active : status = .active ↔
    ∃ row, w.row id = some row ∧ row.state = .active ∧ row.consumedAt = none
  pendingUpload : status = .pendingUpload ↔
    ∃ row, w.row id = some row ∧ row.state = .pendingUpload ∧ now < row.createdAt + cfg.pendingTTL

section

variable {cfg : Config} {now : Nat} {id : String} {w : World} {m : ManagementRow}

/-- A secret that has not ended shows the state of its row. -/
theorem truthful_live (hagree : Agree w.clock (w.row id) (w.record id))
    (hrecord : w.record id = some m) (hopen : m.outcome = none) (hclock : w.clock ≤ now)
    (hearly : now < m.expiresAt) :
    ∃ status, liveStatus cfg now m (w.row id) = .ok status ∧ Truthful cfg now id [] w status := by
  obtain ⟨row, hrow, hunconsumed⟩ := hagree.live m hrecord hopen (Nat.lt_of_le_of_lt hclock hearly)
  have hthe : ∀ {P : SecretRow → Prop}, (∃ r, w.row id = some r ∧ P r) ↔ P row := by
    intro P
    rw [hrow]
    simp
  simp only [liveStatus, hopen, hrow]
  cases hstate : row.state with
  | active =>
    refine ⟨.active, rfl, ?_, ?_, ?_, ?_, ?_, ?_⟩ <;> simp [hthe, hstate, hunconsumed]
  | pendingUpload =>
    dsimp only
    by_cases hlate : row.createdAt + cfg.pendingTTL ≤ now
    · rw [if_pos hlate]
      refine ⟨.recorded .unavailable, rfl, ?_, ?_, ?_, ?_, ?_, ?_⟩ <;> simp [hthe, hstate, hlate]
    · rw [if_neg hlate]
      refine ⟨.pendingUpload, rfl, ?_, ?_, ?_, ?_, ?_, ?_⟩ <;>
        simp [hthe, hstate, hlate, Nat.lt_of_not_le hlate]

/-- A secret that has ended shows how. -/
theorem truthful_ended (hinv : Inv w) (hagree : Agree w.clock (w.row id) (w.record id))
    (hrecord : w.record id = some m) {t : Terminal} (hended : m.outcome = some t.outcome) :
    ∃ status, liveStatus cfg now m (w.row id) = .ok status ∧ Truthful cfg now id [t] w status := by
  -- no live row is left that could speak for itself
  have hdead : ∀ row, w.row id = some row → row.consumedAt ≠ none := by
    intro row hrow hunconsumed
    rw [hagree.unended row m hrow hrecord hunconsumed] at hended
    cases hended
  have hnotPending : ∀ row, w.row id = some row → row.state ≠ .pendingUpload := by
    intro row hrow hpending
    exact hdead row hrow ((hinv.rows id row hrow).pending hpending)
  refine ⟨.recorded t.outcome, by simp [liveStatus, hended], ?_, ?_, ?_, ?_, ?_, ?_⟩
  · cases t <;> simp [Terminal.outcome]
  · cases t <;> simp [Terminal.outcome]
  · cases t <;> simp [Terminal.outcome]
  · have hnone : ¬ ∃ row, w.row id = some row ∧ row.state = .pendingUpload ∧
        row.createdAt + cfg.pendingTTL ≤ now :=
      fun ⟨row, hrow, hpending, _⟩ => hnotPending row hrow hpending
    cases t <;> simp [Terminal.outcome, hnone]
  · refine ⟨nofun, ?_⟩
    rintro ⟨row, hrow, -, hunconsumed⟩
    exact absurd hunconsumed (hdead row hrow)
  · refine ⟨nofun, ?_⟩
    rintro ⟨row, hrow, hpending, -⟩
    exact absurd hpending (hnotPending row hrow)

end

/-! ### Cancellation -/

section

variable {cfg : Config} {id token : String} {w : World} {draws : Draws} {now : Nat}
  {row : SecretRow} {status : ManagementStatus} {err : Err} {db : DB}

/-- A page that offers to cancel is about a live row. -/
theorem row_of_canCancel (hmanaged : Managed w) (hclock : w.clock ≤ now)
    (h : management cfg now id token w.db = .ok status) (hcan : status.canCancel = true) :
    ∃ row, w.row id = some row ∧ row.consumedAt = none := by
  obtain ⟨m, live, hrecord, hearly, hlive, rfl⟩ := management_ok h
  cases hopen : m.outcome with
  | none => exact (hmanaged.agree id).live m hrecord hopen (Nat.lt_of_le_of_lt hclock hearly)
  | some outcome =>
    simp only [liveStatus, hopen] at hlive
    cases hlive
    simp at hcan

/-- The cancelling delete finds that row. -/
theorem affected_cancellable (hinv : Inv w) (hrow : w.row id = some row)
    (hunconsumed : row.consumedAt = none) :
    Table.affected (SecretRow.cancellable id) w.db.secrets = 1 := by
  have hcond : SecretRow.cancellable id = fun row =>
      decide (row.id = id) && (row.consumedAt.isNone && row.reclaimEnqueuedAt.isNone) := by
    funext row
    rw [SecretRow.cancellable, Bool.and_assoc]
  have hunclaimed := (hinv.rows id row hrow).unclaimed
  rw [World.row] at hrow
  rw [hcond, Table.affected_key hinv.unique id
    fun row => row.consumedAt.isNone && row.reclaimEnqueuedAt.isNone, hrow]
  simp [hunconsumed, hunclaimed]

theorem blank_objectKey (id : String) : blank (objectKey id) = false := by
  rw [blank, objectKey, String.toList_append, List.all_append]
  have hroot : Area.secrets.root.toList.all isSpace = false := by decide +kernel
  rw [hroot, Bool.false_and]

theorem enqueueCancellation_succeeds {now : Nat} {draws : Draws} {row : SecretRow} {db : DB}
    (houtbox : cfg.outbox = true) (hnow : 0 < now)
    (hkey : row.storageBackend = .s3Object → row.storageKey = objectKey row.id)
    (husable : row.storageBackend = .s3Object →
      draws.Usable cfg.codec 0
      (fun jobID => objectEvent jobID row.storageKey .manual now) db.outbox) :
    ∃ db', enqueueCancellation cfg (fun _ => now) draws row db = .ok db' := by
  unfold enqueueCancellation
  by_cases hbackend : row.storageBackend = .s3Object
  · obtain ⟨jobID, text, hdrawn, hjobID, hfree, hencode⟩ := husable hbackend
    have hvalid : (objectEvent jobID row.storageKey .manual now).validate = .ok () := by
      have hzero : now ≠ 0 := Nat.ne_of_gt hnow
      have hblank : blank row.storageKey = false := hkey hbackend ▸ blank_objectKey row.id
      simp [JobEvent.validate, objectEvent, hjobID, hblank, hzero, JobEvent.validateReason,
        validReason]
    obtain ⟨outbox, henqueue⟩ := enqueueTx_succeeds cfg.subject now hvalid hfree hencode
    rw [if_neg (not_not.mpr hbackend), houtbox, if_neg (by decide), enqueueObject, hdrawn]
    simp only [henqueue]
    exact ⟨_, rfl⟩
  · rw [if_pos hbackend]
    exact ⟨db, rfl⟩

/-- **A revocation at an instant the page offers it succeeds.** -/
theorem revoke_succeeds (hinv : Inv w) (hmanaged : Managed w) (hclock : w.clock ≤ now)
    (h : management cfg now id token w.db = .ok status) (hcan : status.canCancel = true)
    (houtbox : cfg.outbox = true) (hnow : 0 < now)
    (husable : ∀ row, w.row id = some row → row.storageBackend = .s3Object →
      draws.Usable cfg.codec 0 (fun jobID => objectEvent jobID row.storageKey .manual now)
        w.db.outbox) :
    ∃ db, revoke cfg (fun _ => now) draws id token w.db =
      .commit db (.ok { status with status := .recorded .cancelled, canCancel := false }) := by
  obtain ⟨row, hrow, hunconsumed⟩ := row_of_canCancel hmanaged hclock h hcan
  have hnotCancelled : status.status ≠ .recorded .cancelled := by
    obtain ⟨m, live, -, -, -, rfl⟩ := management_ok h
    rintro rfl
    simp at hcan
  have hlookup : Table.lookup SecretRow.id id w.db.secrets = some row := hrow
  unfold revoke
  simp only [h]
  rw [if_neg hnotCancelled, if_neg (by simp [hcan])]
  simp only [hlookup]
  rw [if_neg (by simp [hcan]), if_neg (by simp [affected_cancellable hinv hrow hunconsumed])]
  have hsucceeds : ∃ db, enqueueCancellation cfg (fun _ => now) draws row
      { deleteSecrets (SecretRow.cancellable id) w.db with
        management := recordManagementOutcomeTx id .cancelled w.db.management } = .ok db :=
    enqueueCancellation_succeeds houtbox hnow (hinv.rows id row hrow).key (husable row hrow)
  obtain ⟨db, henqueue⟩ := hsucceeds
  have hmanagement : (deleteSecrets (SecretRow.cancellable id) w.db).management =
    w.db.management := rfl
  simp only [hmanagement, henqueue]
  exact ⟨_, rfl⟩

/-- No status page fails: the outcome of a secret whose row is gone is recorded. -/
theorem management_ne_other (hmanaged : Managed w) (hclock : w.clock ≤ now) (text : String) :
    management cfg now id token w.db ≠ .error (.other text) := by
  intro h
  rcases management_cases cfg now id token w.db with hrefused | ⟨m, hrecord, hearly, hpage⟩
  · rw [hrefused] at h
    cases h
  · rw [hpage] at h
    cases hopen : m.outcome with
    | some outcome =>
      simp only [liveStatus, hopen] at h
      cases h
    | none =>
      have hlate := Nat.lt_of_le_of_lt hclock hearly
      obtain ⟨row, hrow, -⟩ := (hmanaged.agree id).live m hrecord hopen hlate
      rw [World.row] at hrow
      simp only [liveStatus, hopen, hrow] at h
      split at h
      · cases h
      split at h <;> cases h

theorem enqueueCancellation_error {now : Nat → Nat}
    (h : enqueueCancellation cfg now draws row db = .error err) :
    err ∈ [Err.other "cancellation outbox is required", .other "",
      .other "enqueue cancellation cleanup"] := by
  unfold enqueueCancellation enqueueObject at h
  grind

/-- The errors of a cancellation with a defect behind them do not occur. -/
theorem revoke_ne_defect (hinv : Inv w) (hmanaged : Managed w) {now : Nat → Nat}
    (hclock : ∀ i, w.clock ≤ now i) (h : revoke cfg now draws id token w.db = .rollback err) :
    err ≠ .other "management outcome missing" ∧
      err ≠ .other "cancellation did not claim a live delivery" := by
  unfold revoke at h
  split at h
  · rename_i merr hmanagement
    cases h
    refine ⟨?_, ?_⟩ <;>
      exact fun heq => management_ne_other hmanaged (hclock 0) _ (heq ▸ hmanagement)
  · split at h
    · cases h
    split at h
    · cases h
      exact ⟨by simp, by simp⟩
    · split at h
      · cases h
        exact ⟨by decide +kernel, by decide +kernel⟩
      · split at h
        · rename_i merr hmanagement
          cases h
          refine ⟨?_, ?_⟩ <;>
            exact fun heq => management_ne_other hmanaged (hclock 1) _ (heq ▸ hmanagement)
        · rename_i status hmanagement
          split at h
          · cases h
            exact ⟨by simp, by simp⟩
          · rename_i hcan
            obtain ⟨row, hrow, hunconsumed⟩ := row_of_canCancel hmanaged (hclock 1) hmanagement
              (by simpa using hcan)
            split at h
            · rename_i haffected
              exact absurd (affected_cancellable hinv hrow hunconsumed) haffected
            · dsimp only at h
              split at h
              · rename_i enqueueErr henqueue
                cases h
                have hmem := enqueueCancellation_error henqueue
                simp only [List.mem_cons, List.not_mem_nil, or_false] at hmem
                rcases hmem with rfl | rfl | rfl <;> exact ⟨by decide +kernel, by decide +kernel⟩
              · cases h

end

/-! ### Runs -/

section

variable {cfg : Config} {julian : JulianDay} {clock : Nat} {w : World}
  {trace : List (Label × World)} {id : String}

theorem event_locked {label : Label} (h : label.event id = .terminal .locked) :
    label.denies id = true := by
  cases label with
  | locked denied =>
    simp only [Label.event, eventAt] at h
    split at h
    · rename_i heq
      exact decide_eq_true heq.symm
    · cases h
  | other | refused => simp [Label.event] at h
  | created | activated | opened | cancelled =>
    simp only [Label.event, eventAt] at h
    split at h <;> cases h
  | reclaimed ids =>
    simp only [Label.event] at h
    split at h <;> cases h

theorem ends_le_one (hrun : Run (Step cfg julian) (World.start clock) trace w) (id : String) :
    (ends trace id).length ≤ 1 := by
  have hlife := terminals_le_one (life_of_run (Inv.start clock) hrun id)
  rwa [labels_life, List.flatMap_map] at hlife

/-- The fifth wrong proof is the one that locks. -/
theorem locked_iff_fifth (hrun : Run (Step cfg julian) (World.start clock) trace w) (id : String) :
    .locked ∈ ends trace id ↔ denials trace id = maxFailedAccessAttempts := by
  refine Run.history_invariant
    (fun trace _ => .locked ∈ ends trace id ↔ denials trace id = maxFailedAccessAttempts)
    (by simp [ends, denials, maxFailedAccessAttempts]) ?_ hrun
  intro trace w label w' hprefix hpast hstep
  have hinv := inv_of_run hprefix
  have hcounted := counted_of_run hprefix id
  rw [ends_snoc, List.mem_append, hpast, denials_snoc]
  cases hdenies : label.denies id with
  | false =>
    have hquiet : ¬ .locked ∈ (label.event id).terminals := by
      intro hmem
      cases hevent : label.event id with
      | silent | created | activated =>
        rw [hevent] at hmem
        cases hmem
      | terminal t =>
        rw [hevent, Event.terminals, List.mem_singleton] at hmem
        rw [← hmem] at hevent
        rw [event_locked hevent] at hdenies
        cases hdenies
    simp [hquiet]
  | true =>
    obtain ⟨row, now, -, -, hrefused⟩ := hstep.denied hinv hdenies
    have hfew : denials trace id ≠ maxFailedAccessAttempts := fun hfive =>
      not_ended_of_unconsumed hrefused.found hrefused.unconsumed (hcounted.shut hfive)
    have hbound := hcounted.bound
    have hevent : label.event id = refusedEvent row :=
      hstep.denied_event hinv hdenies hrefused.found
    have hcount := hcounted.count row hrefused.found
    rw [hevent, refusedEvent, hcount, if_pos rfl]
    split
    · simp only [Event.terminals, List.mem_singleton, or_true, true_iff]
      omega
    · simp only [Event.terminals, List.not_mem_nil, or_false]
      omega

/-- Nothing ends a secret before it is created. -/
theorem ends_of_unissued (hrun : Run (Step cfg julian) (World.start clock) trace w) :
    id ∉ w.issued → ends trace id = [] := by
  refine Run.history_invariant (fun trace w => id ∉ w.issued → ends trace id = []) (fun _ => rfl)
    ?_ hrun
  intro trace w label w' hprefix hpast hstep hunissued
  have hinv := inv_of_run hprefix
  have hadvance := hstep.advance hinv
  rw [hadvance.issued id, not_or] at hunissued
  have hrow : w.row id = none := by
    by_contra hsome
    obtain ⟨row, hrow⟩ := Option.ne_none_iff_exists'.mp hsome
    exact hunissued.1 (hinv.issued id row hrow)
  have hstill := hadvance.rows id
  rw [hrow] at hstill
  rw [ends_snoc, hpast hunissued.1, List.nil_append]
  generalize label.event id = event at hstill
  generalize w'.row id = found at hstill
  cases hstill <;> rfl

/-- The record of a secret over its whole run. -/
theorem told_of_issued {issued : ManagementRow} {row₀ : SecretRow}
    {front back : List (Label × World)} {after : World} (hid : row₀.id = id)
    (hrecord : after.record id = some issued) (hopen : issued.outcome = none)
    (hrun : Run (Step cfg julian) (World.start clock) (front ++ (.created row₀, after) :: back) w) :
    Told w.clock issued (ends (front ++ (.created row₀, after) :: back) id) (w.record id) := by
  obtain ⟨before, hfront, hstep, hback⟩ := hrun.split
  have hnew := (hstep.advance (inv_of_run hfront)).fresh id
  have hcreated : Label.event (.created row₀) id = .created := by
    simp [Label.event, eventAt, hid]
  have hends : ends (front ++ (.created row₀, after) :: back) id = ends back id := by
    have hbefore : ends front id = [] := ends_of_unissued hfront (hnew hcreated).1
    rw [ends] at hbefore
    rw [ends, labels_append, labels_cons, List.flatMap_append, List.flatMap_cons, hbefore, hcreated]
    rfl
  have hcreation := Run.snoc hfront hstep
  rw [hends]
  exact told_of_run (inv_of_run hcreation) (managed_of_run hcreation) hrecord hopen hback

end

/-- **Sender status.**  In every state of every run the two error branches of a defect are
unreachable: no status page and no cancellation answers that an outcome is missing or
that a live delivery could not be claimed.  And for every secret created with a record, the
page with its token says after the expiry that there is nothing, and before it what
happened: how the secret ended, and else the live state; the fifth wrong proof is what
`locked` means; a recorded outcome stays; and a cancellation succeeds at any instant the
page offers it. -/
theorem sender_status_truthful {cfg : Config} {julian : JulianDay} {clock : Nat}
    {trace : List (Label × World)} {w : World}
    (hrun : Run (Step cfg julian) (World.start clock) trace w) :
    (∀ now id token text, w.clock ≤ now →
      management cfg now id token w.db ≠ .error (.other text)) ∧
    (∀ now draws id token err, (∀ i, w.clock ≤ now i) →
      revoke cfg now draws id token w.db = .rollback err →
      err ≠ .other "management outcome missing" ∧
        err ≠ .other "cancellation did not claim a live delivery") ∧
    ∀ front before token row₀ after back, trace = front ++ (.created row₀, after) :: back →
      Run (Step cfg julian) (World.start clock) front before → Issued cfg before row₀ token after →
      (∀ now, w.clock ≤ now → row₀.expiresAt ≤ now →
        management cfg now row₀.id token w.db = .error .managementUnavailable) ∧
      (∀ now, w.clock ≤ now → now < row₀.expiresAt →
        ∃ status, management cfg now row₀.id token w.db = .ok ⟨row₀.id, status, row₀.expiresAt,
            decide (status = .active) || decide (status = .pendingUpload)⟩ ∧
          Truthful cfg now row₀.id (ends trace row₀.id) w status) ∧
      (.locked ∈ ends trace row₀.id ↔ denials trace row₀.id = 5) ∧
      (∀ later final record record' outcome, Run (Step cfg julian) w later final →
        w.record row₀.id = some record → record.outcome = some outcome →
        final.record row₀.id = some record' → record'.outcome = some outcome) ∧
      (∀ now draws status, w.clock ≤ now → management cfg now row₀.id token w.db = .ok status →
        status.canCancel = true → cfg.outbox = true → 0 < now →
        (∀ row, w.row row₀.id = some row → row.storageBackend = .s3Object →
          draws.Usable cfg.codec 0 (fun jobID => objectEvent jobID row.storageKey .manual now)
            w.db.outbox) →
        ∃ db, revoke cfg (fun _ => now) draws row₀.id token w.db =
          .commit db (.ok { status with status := .recorded .cancelled, canCancel := false })) := by
  have hinv := inv_of_run hrun
  have hmanaged := managed_of_run hrun
  refine ⟨fun _ _ _ text hclock => management_ne_other hmanaged hclock text, ?_, ?_⟩
  · exact fun _ _ _ _ _ hclock hrevoke => revoke_ne_defect hinv hmanaged hclock hrevoke
  intro front before token row₀ after back htrace hfront hissued
  obtain ⟨raw, htoken, hrecord⟩ := hissued.record
  have htold : Told w.clock ⟨row₀.id, cfg.sha256 raw, row₀.expiresAt, none⟩ (ends trace row₀.id)
      (w.record row₀.id) := by
    subst htrace
    exact told_of_issued rfl hrecord rfl hrun
  have hone := ends_le_one hrun row₀.id
  refine ⟨?_, ?_, locked_iff_fifth hrun row₀.id, ?_, ?_⟩
  · intro now hclock hlate
    apply management_late
    intro m hm
    have hm' : w.record row₀.id = some m := hm
    rw [hm'] at htold
    exact Nat.le_trans (Nat.le_of_eq htold.2.1) hlate
  · intro now hclock hearly
    cases hm : w.record row₀.id with
    | none =>
      rw [hm] at htold
      exact absurd (Nat.lt_of_le_of_lt hclock hearly) (Nat.not_lt_of_le htold)
    | some m =>
      rw [hm] at htold
      obtain ⟨hhash, hexpires, houtcome⟩ := htold
      have hbefore : now < m.expiresAt := hexpires.symm ▸ hearly
      have hsaid := houtcome (Nat.lt_of_le_of_lt hclock hbefore)
      have hpage : ∃ status, liveStatus cfg now m (w.row row₀.id) = .ok status ∧
          Truthful cfg now row₀.id (ends trace row₀.id) w status := by
        -- a secret ends at most once
        match hends : ends trace row₀.id with
        | [] =>
          rw [hends] at hsaid
          exact truthful_live (hmanaged.agree row₀.id) hm hsaid hclock hbefore
        | [t] =>
          rw [hends] at hsaid
          exact truthful_ended hinv (hmanaged.agree row₀.id) hm hsaid
        | _ :: _ :: _ =>
          rw [hends] at hone
          simp at hone
      obtain ⟨status, hlive, htruthful⟩ := hpage
      refine ⟨status, ?_, htruthful⟩
      rw [management_early htoken hm hhash hbefore hlive, hexpires]
  · intro later final record record' outcome hlater hrecord houtcome hrecord'
    exact outcome_of_run hinv hmanaged hrecord houtcome hlater record' hrecord'
  · intro now draws status hclock hstatus hcan houtbox hnow husable
    exact revoke_succeeds hinv hmanaged hclock hstatus hcan houtbox hnow husable

def sampleManagementToken : Bytes := List.replicate 32 1

/-- The page of a new text offers to cancel it, and the cancellation succeeds. -/
theorem sender_status_truthful_text :
    ∃ w status db, Run (Step guardedConfig instantDay) (World.start 1)
        [(.created guardedRow, w)] w ∧
      management guardedConfig 1 "a" (rawURLEncoding.encodeToString sampleManagementToken) w.db =
        .ok status ∧
      status.status = .active ∧
      revoke guardedConfig (fun _ => 1) sampleDraws "a"
        (rawURLEncoding.encodeToString sampleManagementToken) w.db =
        .commit db (.ok { status with status := .recorded .cancelled, canCancel := false }) := by
  have hcreate : create guardedConfig 1 "a" sampleManagementToken guardedInput (World.start 1).db =
    .ok (_, rawURLEncoding.encodeToString sampleManagementToken) := rfl
  have hrun : Run (Step guardedConfig instantDay) (World.start 1) [(.created guardedRow, _)] _ :=
    Run.snoc Run.nil (Step.create 1 "a" sampleManagementToken guardedInput (Nat.le_refl 1)
      ⟨by simp [World.start], by simp [World.start]⟩ hcreate)
  have hissued : Issued guardedConfig (World.start 1) guardedRow
      (rawURLEncoding.encodeToString sampleManagementToken) _ :=
    Issued.create (by rfl) (by rfl) hcreate rfl
  have hcancel := ((sender_status_truthful hrun).2.2 [] _ _ _ _ [] rfl Run.nil hissued).2.2.2.2 1
    sampleDraws ⟨"a", .active, guardedRow.expiresAt, true⟩ (Nat.le_refl 1) rfl rfl rfl (by decide)
    (fun row hrow hobject => by cases hrow; cases hobject)
  obtain ⟨db, hrevoke⟩ := hcancel
  exact ⟨_, ⟨"a", .active, guardedRow.expiresAt, true⟩, db, hrun, rfl, rfl, hrevoke⟩

end Secrets
end FlickDrop
