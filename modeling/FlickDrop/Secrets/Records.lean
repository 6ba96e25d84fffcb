import FlickDrop.Secrets.OneTime

/-!
# The management records

The outcome of a secret lives in a table of its own, without a foreign key to the row it
is about.  A `RecordStep` says what one step does to the record of one secret, in terms of
the same event that `RowStep` gives to its row; that every step is both is what keeps the
two tables in agreement (`Agree`).
-/

namespace FlickDrop
namespace Secrets

open Foundations Events

/-- The outcome that goes with an end. -/
def Terminal.outcome : Terminal → ManagementOutcome
  | .opened => .opened
  | .locked => .locked
  | .cancelled => .cancelled
  | .reclaimed => .unavailable

/-- The record after an outcome: the first one stays. -/
def ManagementRow.close (outcome : ManagementOutcome) (record : ManagementRow) : ManagementRow :=
  if record.outcome = none then { record with outcome := some outcome } else record

section

variable (outcome : ManagementOutcome) (record : ManagementRow)

theorem ManagementRow.close_eq :
    record.close outcome = { record with outcome := record.outcome.or (some outcome) } := by
  unfold ManagementRow.close
  split
  · rename_i hnone
    rw [hnone]
    rfl
  · rename_i hsome
    obtain ⟨first, hfirst⟩ := Option.ne_none_iff_exists'.mp hsome
    obtain ⟨id, hash, expires, recorded⟩ := record
    cases hfirst
    rfl

@[simp] theorem ManagementRow.close_expiresAt :
    (record.close outcome).expiresAt = record.expiresAt := by
  rw [ManagementRow.close_eq]

@[simp] theorem ManagementRow.close_tokenHash :
    (record.close outcome).tokenHash = record.tokenHash := by
  rw [ManagementRow.close_eq]

@[simp] theorem ManagementRow.close_outcome :
    (record.close outcome).outcome = record.outcome.or (some outcome) := by
  rw [ManagementRow.close_eq]

theorem ManagementRow.close_close :
    (record.close outcome).close outcome = record.close outcome := by
  simp only [ManagementRow.close_eq]
  cases record.outcome <;> rfl

end

/-- The record of a secret. -/
def World.record (w : World) (id : String) : Option ManagementRow :=
  Table.lookup ManagementRow.secretID id w.db.management

/-- What a step may do to the record of one secret; `row` and `row'` are the secret's rows
before and after it, `after` is the clock it leaves. -/
inductive RecordStep (after : Nat) (row row' : Option SecretRow) :
    Option ManagementRow → Event → Option ManagementRow → Prop
  | kept (found : Option ManagementRow) {event : Event}
      (hevent : event = .silent ∨ event = .activated) : RecordStep after row row' found event found
  | created (record : ManagementRow) (inserted : SecretRow) (hopen : record.outcome = none)
      (hrow : row' = some inserted) (hexpires : record.expiresAt = inserted.expiresAt) :
      RecordStep after row row' none .created (some record)
  | closed (found : Option ManagementRow) (t : Terminal) :
      RecordStep after row row' found (.terminal t) (found.map (ManagementRow.close t.outcome))
  /-- a row that is reclaimed because it expired leaves the record as it is -/
  | lapsed (found : Option ManagementRow) (expired : SecretRow) (hrow : row = some expired)
      (hexpired : expired.expiresAt ≤ after) :
      RecordStep after row row' found (.terminal .reclaimed) found
  | purged (record : ManagementRow) {event : Event}
      (hevent : event = .silent ∨ event = .terminal .reclaimed)
      (hexpired : record.expiresAt ≤ after) :
      RecordStep after row row' (some record) event none

/-! ### One transaction -/

section

variable {rows : List ManagementRow} {db : DB}

theorem lookup_recordManagementOutcomeTx (id : String) (outcome : ManagementOutcome)
    (rows : List ManagementRow) (other : String) :
    Table.lookup ManagementRow.secretID other (recordManagementOutcomeTx id outcome rows) =
      if other = id then
        (Table.lookup ManagementRow.secretID other rows).map (ManagementRow.close outcome)
      else Table.lookup ManagementRow.secretID other rows := by
  have hid : ∀ row : ManagementRow,
      ({ row with outcome := some outcome } : ManagementRow).secretID = row.secretID := fun _ => rfl
  rw [recordManagementOutcomeTx, Table.lookup_update hid]
  cases hfound : Table.lookup ManagementRow.secretID other rows with
  | none => simp
  | some record =>
    have hkey : record.secretID = other := Table.lookup_key hfound
    by_cases heq : other = id
    · simp [ManagementRow.close, hkey, heq]
    · simp [hkey, heq]

theorem recordManagementOutcomeTx_unique {id : String} {outcome : ManagementOutcome}
    (hunique : Table.UniqueKey ManagementRow.secretID rows) :
    Table.UniqueKey ManagementRow.secretID (recordManagementOutcomeTx id outcome rows) :=
  hunique.update fun _ => rfl

/-- The records after the loop over a batch: those of its pending uploads are closed. -/
theorem reclaimRows_management {cfg : Config} {now : Nat → Nat} {draws : Draws} {i : Nat}
    {batch : List SecretRow} {db' : DB} (h : reclaimRows cfg now draws i batch db = .ok db')
    (hunique : Table.UniqueKey ManagementRow.secretID db.management) :
    Table.UniqueKey ManagementRow.secretID db'.management ∧
      ∀ id, Table.lookup ManagementRow.secretID id db'.management =
        if batch.any fun c => decide (c.id = id) && decide (c.state = .pendingUpload) then
          (Table.lookup ManagementRow.secretID id db.management).map
            (ManagementRow.close .unavailable)
        else Table.lookup ManagementRow.secretID id db.management := by
  induction batch generalizing i db with
  | nil =>
    cases h
    exact ⟨hunique, by simp⟩
  | cons c rest ih =>
    rw [reclaimRows] at h
    split at h
    · cases h
    rename_i mid hmid
    obtain ⟨-, hmanagement, -⟩ := reclaimRow_ok hmid
    have hmidUnique : Table.UniqueKey ManagementRow.secretID mid.management := by
      rw [hmanagement]
      split
      · exact recordManagementOutcomeTx_unique hunique
      · exact hunique
    have hlookup : ∀ id, Table.lookup ManagementRow.secretID id mid.management =
        if c.id = id ∧ c.state = .pendingUpload then
          (Table.lookup ManagementRow.secretID id db.management).map
            (ManagementRow.close .unavailable)
        else Table.lookup ManagementRow.secretID id db.management := by
      intro id
      rw [hmanagement]
      by_cases hpending : c.state = .pendingUpload
      · rw [if_pos hpending, lookup_recordManagementOutcomeTx]
        simp only [hpending, and_true, eq_comm]
      · rw [if_neg hpending, if_neg fun hboth => hpending hboth.2]
    obtain ⟨hunique', hrest⟩ := ih h hmidUnique
    refine ⟨hunique', fun id => ?_⟩
    rw [hrest id, hlookup id, List.any_cons]
    -- a second close by the same outcome changes nothing
    by_cases hhead : c.id = id ∧ c.state = .pendingUpload
    · simp only [hhead, and_self, if_true, decide_true, Bool.and_self, Bool.true_or,
        Option.map_map]
      split
      · congr 1
        funext record
        exact ManagementRow.close_close _ record
      · rfl
    · have hfalse : (decide (c.id = id) && decide (c.state = .pendingUpload)) = false := by
        simpa using hhead
      rw [if_neg hhead, hfalse, Bool.false_or]

theorem expired_of_purged {julian : JulianDay} {now limit : Nat}
    (hunique : Table.UniqueKey ManagementRow.secretID db.management) {record : ManagementRow}
    (hrecord : record ∈ db.management)
    (h : record.secretID ∈ expiredManagement julian now limit db) :
    record.expiresAt ≤ now := by
  unfold expiredManagement at h
  obtain ⟨m, hm, hmid⟩ := List.mem_map.mp h
  have hsorted := List.mem_of_mem_take hm
  rw [List.mem_mergeSort, List.mem_filter, Bool.and_eq_true, decide_eq_true_eq] at hsorted
  have hsame : some m = some record := by
    rw [← Table.lookup_of_mem hunique hsorted.1, ← Table.lookup_of_mem hunique hrecord, hmid]
  rw [← Option.some.inj hsame]
  exact hsorted.2.1

/-- The purge keeps a record or drops it after its expiry. -/
theorem purge_record (julian : JulianDay) (now limit : Nat)
    (hunique : Table.UniqueKey ManagementRow.secretID db.management) (id : String) :
    Table.lookup ManagementRow.secretID id (purgeManagementTx julian now limit db).management =
        Table.lookup ManagementRow.secretID id db.management ∨
      ∃ record, Table.lookup ManagementRow.secretID id db.management = some record ∧
        record.expiresAt ≤ now ∧
        Table.lookup ManagementRow.secretID id
          (purgeManagementTx julian now limit db).management = none := by
  unfold purgeManagementTx
  dsimp only
  generalize hdb : deleteSecrets _ db = remaining
  have hmanagement : remaining.management = db.management := by rw [← hdb]; rfl
  have hremaining : Table.UniqueKey ManagementRow.secretID remaining.management := by
    rw [hmanagement]
    exact hunique
  rw [Table.lookup_delete hremaining, hmanagement]
  cases hfound : Table.lookup ManagementRow.secretID id db.management with
  | none => exact Or.inl rfl
  | some record =>
    by_cases hpurged : record.secretID ∈ expiredManagement julian now limit remaining
    · refine Or.inr ⟨record, rfl, ?_, by simp [Option.filter, hpurged]⟩
      exact expired_of_purged hremaining (hmanagement ▸ Table.lookup_mem hfound) hpurged
    · exact Or.inl (by simp [Option.filter, hpurged])

end

/-! ### One step -/

/-- What a step does to the records. -/
structure Records (w : World) (label : Label) (w' : World) : Prop where
  unique : Table.UniqueKey ManagementRow.secretID w'.db.management
  records : ∀ id, RecordStep w'.clock (w.row id) (w'.row id) (w.record id) (label.event id)
    (w'.record id)

section

variable {w w' : World} {label : Label} {cfg : Config} {after now : Nat} {batch : List SecretRow}
  {julian : JulianDay} {db : DB} {id : String}

/-- A step that leaves the table alone and ends no secret. -/
theorem Records.same (hunique : Table.UniqueKey ManagementRow.secretID w.db.management)
    (hmanagement : w'.db.management = w.db.management)
    (hevent : ∀ id, label.event id = .silent ∨ label.event id = .activated) :
    Records w label w' := by
  refine ⟨hmanagement ▸ hunique, fun id => ?_⟩
  have hrecord : w'.record id = w.record id := by rw [World.record, hmanagement, World.record]
  rw [hrecord]
  exact RecordStep.kept _ (hevent id)

/-- A step that records the end of one secret. -/
theorem Records.close (hunique : Table.UniqueKey ManagementRow.secretID w.db.management)
    (t : Terminal)
    (hmanagement : w'.db.management = recordManagementOutcomeTx id t.outcome w.db.management)
    (hevent : label.event = eventAt id (.terminal t)) : Records w label w' := by
  refine ⟨hmanagement ▸ recordManagementOutcomeTx_unique hunique, fun other => ?_⟩
  rw [World.record, World.record, hmanagement, lookup_recordManagementOutcomeTx, hevent, eventAt]
  split
  · exact RecordStep.closed _ t
  · exact RecordStep.kept _ (Or.inl rfl)

/-- A creation. -/
theorem Records.create {row : SecretRow} {raw : Bytes} {token : String}
    (hunique : Table.UniqueKey ManagementRow.secretID w.db.management)
    (hrecorded : Recorded cfg row.id row.expiresAt raw token w.db db)
    (hrow : (w.issue row.id db).row row.id = some row) :
    Records w (.created row) (w.issue row.id db) := by
  have hmanagement : (w.issue row.id db).db.management =
      w.db.management ++ [⟨row.id, cfg.sha256 raw, row.expiresAt, none⟩] := hrecorded.management
  refine ⟨?_, fun other => ?_⟩
  · rw [hmanagement]
    exact hunique.append (Table.lookup_eq_none.mp hrecorded.free)
  · rw [World.record, World.record, hmanagement, Table.lookup_append, Label.event, eventAt]
    by_cases heq : other = row.id
    · subst heq
      rw [hrecorded.free, if_pos rfl, if_pos rfl]
      exact RecordStep.created _ row rfl hrow rfl
    · rw [if_neg heq, if_neg (fun h => heq h.symm), Option.or_none]
      exact RecordStep.kept _ (Or.inl rfl)

/-- The record of a secret after the loop of a tick. -/
theorem reclaimed_record {pendingTTL : Nat} {mid : Option ManagementRow} {row' : Option SecretRow}
    (hinv : Inv w) (hnow : now ≤ after)
    (hbatch : ∀ c ∈ batch, c ∈ w.db.secrets ∧ c.reclaimable pendingTTL now = true)
    (hmid : mid = if batch.any fun c => decide (c.id = id) && decide (c.state = .pendingUpload) then
      (w.record id).map (ManagementRow.close .unavailable) else w.record id) :
    RecordStep after (w.row id) row' (w.record id)
      (Label.event (.reclaimed (batch.map SecretRow.id)) id) mid := by
  subst hmid
  dsimp only [Label.event]
  by_cases hmem : id ∈ batch.map SecretRow.id
  · rw [if_pos hmem]
    split
    · exact RecordStep.closed _ .reclaimed
    · rename_i hany
      obtain ⟨c, hc, rfl⟩ := List.mem_map.mp hmem
      obtain ⟨hthere, hdead⟩ := hbatch c hc
      have hactive : c.state ≠ .pendingUpload := by
        intro hpending
        exact hany (List.any_eq_true.mpr ⟨c, hc, by simp [hpending]⟩)
      -- an active row is reclaimed for its expiry only
      simp only [SecretRow.reclaimable, Bool.and_eq_true, Bool.or_eq_true, decide_eq_true_eq,
        hactive, false_and, or_false] at hdead
      have hrow : w.row c.id = some c := Table.lookup_of_mem hinv.unique hthere
      exact RecordStep.lapsed _ c hrow (hdead.2.trans hnow)
  · rw [if_neg hmem, if_neg]
    · exact RecordStep.kept _ (Or.inl rfl)
    · intro hany
      obtain ⟨c, hc, hpending⟩ := List.any_eq_true.mp hany
      simp only [Bool.and_eq_true, decide_eq_true_eq] at hpending
      exact hmem (hpending.1 ▸ List.mem_map_of_mem hc)

/-- What remains to be purged of a record that a tick may have closed. -/
theorem RecordStep.purge {row row' : Option SecretRow} {ids : List String}
    {found mid out : Option ManagementRow} (hnow : now ≤ after)
    (h : RecordStep after row row' found (Label.event (.reclaimed ids) id) mid)
    (hpurge : out = mid ∨ ∃ record, mid = some record ∧ record.expiresAt ≤ now ∧ out = none) :
    RecordStep after row row' found (Label.event (.reclaimed ids) id) out := by
  rcases hpurge with rfl | ⟨record, rfl, hexpired, rfl⟩
  · exact h
  · have hevent : Label.event (.reclaimed ids) id = .silent ∨
        Label.event (.reclaimed ids) id = .terminal .reclaimed := by
      dsimp only [Label.event]
      split
      · exact Or.inr rfl
      · exact Or.inl rfl
    generalize Label.event (.reclaimed ids) id = event at h hevent
    generalize hclosed : some record = closed at h
    cases h with
    | kept | lapsed =>
      subst hclosed
      exact RecordStep.purged record hevent (hexpired.trans hnow)
    | created => rcases hevent with h | h <;> cases h
    | purged => cases hclosed
    | closed found t =>
      obtain ⟨old, rfl, rfl⟩ := Option.map_eq_some_iff.mp hclosed.symm
      rw [ManagementRow.close_expiresAt] at hexpired
      exact RecordStep.purged old hevent (hexpired.trans hnow)

/-- A tick of the reaper: it closes the records of the pending uploads it reclaims, and
purges expired ones. -/
theorem Records.sweep {batchSize : Nat} {now : Nat → Nat} {draws : Draws}
    {purgeRequests : List OutboxRow → Except Unit (List OutboxRow)} (hinv : Inv w)
    (hunique : Table.UniqueKey ManagementRow.secretID w.db.management) (hnow : now 0 ≤ after)
    (h : claimExpired cfg julian batchSize now draws purgeRequests w.db = .ok (db, batch)) :
    Records w (.reclaimed (batch.map SecretRow.id)) (w.setDB after db) := by
  obtain ⟨hbatch, reclaimed, outbox, hreclaim, -, rfl⟩ := claimExpired_cases h
  obtain ⟨hmidUnique, hmid⟩ := reclaimRows_management hreclaim hunique
  refine ⟨hmidUnique.delete _, fun id => ?_⟩
  have hdead : ∀ c ∈ batch, c ∈ w.db.secrets ∧ c.reclaimable cfg.pendingTTL (now 0) = true := by
    intro c hc
    rw [hbatch] at hc
    exact mem_claimReclaimable hc
  refine RecordStep.purge hnow ?_ (purge_record julian (now 0) batchSize hmidUnique id)
  exact reclaimed_record hinv hnow hdead (hmid id)

/-- **Step lemma for the records.** -/
theorem Step.records (hinv : Inv w)
    (hunique : Table.UniqueKey ManagementRow.secretID w.db.management)
    (hstep : Step cfg julian w label w') : Records w label w' := by
  have hrow : ∀ row, label = .created row → w'.row row.id = some row :=
    fun _ => hstep.created_row hinv
  cases hstep with
  | create now id raw input hnow hfresh hcreate =>
    exact Records.create hunique (create_ok hcreate).2.2.2 (hrow _ rfl)
  | createLarge now id raw presign input hnow hfresh hcreate =>
    exact Records.create hunique (createLarge_ok hcreate).2.2.2 (hrow _ rfl)
  | opened pid readings draws object id accessProofHash hfree hopen =>
    rcases openAndEnqueueCleanup_commit hinv.unique hopen with ⟨_, row, -, h⟩ | ⟨_, herr, -⟩
    · exact Records.close hunique .opened h.management rfl
    · cases herr
  | refused readings draws object id accessProofHash hopen =>
    rcases openAndEnqueueCleanup_commit hinv.unique hopen with ⟨_, _, hok, -⟩ | ⟨row, -, h⟩
    · cases hok
    · have hevent := refusedLabel_event h
      have hmanagement := h.management
      rw [refusedEvent] at hevent
      split at hmanagement
      · rename_i hmany
        rw [if_pos hmany] at hevent
        exact Records.close hunique .locked hmanagement hevent
      · rename_i hfew
        rw [if_neg hfew] at hevent
        refine Records.same hunique hmanagement fun other => Or.inl ?_
        rw [hevent]
        simp [eventAt]
  | revoke readings draws id token hrevoke =>
    rcases revokedLabel_event julian w.clock w.clock hinv.unique hrevoke with
      ⟨hother, rfl⟩ | ⟨hcancelled, -, hmanagement, -⟩
    · rw [hother]
      exact Records.same hunique rfl fun _ => Or.inl rfl
    · rw [hcancelled]
      exact Records.close hunique .cancelled hmanagement rfl
  | claimExpired batchSize now draws purgeRequests hclock hnow hforeign hclaim =>
    exact Records.sweep hinv hunique (hnow 0) hclaim
  | finalizeEnd pid head hat hactivate =>
    obtain rfl := finalizeActivate_ok hactivate
    refine Records.same hunique rfl fun other => ?_
    simp only [Label.event, eventAt]
    split
    · exact Or.inr rfl
    · exact Or.inl rfl
  | cleanup id hcleanup =>
    exact Records.same hunique (cleanup_ok hcleanup).1 fun _ => Or.inl rfl
  | streamCleanup pid readings draws hat henqueue =>
    exact Records.same hunique (scheduled_enqueueObject henqueue).2.1 fun _ => Or.inl rfl
  | tick | put | objectGone | outbox | finalizeBegin | finalizeFail | streamEnd | streamLost
  | scanBegin | scanListed | scanReset | scanCommit | scanEnd | acknowledge =>
    exact Records.same hunique rfl fun _ => Or.inl rfl

end

/-! ### The two tables agree -/

section

variable {julian : JulianDay} {clock after : Nat} {row row' : Option SecretRow}
  {record record' : Option ManagementRow} {event : Event}

/-- A step that neither creates nor ends a secret keeps its row, unless it had ended. -/
theorem RowStep.quiet (h : RowStep julian clock after row event row')
    (hevent : event = .silent ∨ event = .activated) :
    (∀ r', row' = some r' → ∃ r, row = some r ∧ r'.expiresAt = r.expiresAt ∧
      r'.consumedAt = r.consumedAt) ∧
    ∀ r, row = some r → r.consumedAt = none → ∃ r', row' = some r' ∧ r'.consumedAt = none := by
  cases h with
  | kept => exact ⟨fun r' hr' => ⟨r', hr', rfl, rfl⟩, fun r hr hnone => ⟨r, hr, hnone⟩⟩
  | touched r now | activated r now =>
    refine ⟨?_, ?_⟩
    · rintro _ ⟨⟩
      exact ⟨r, rfl, rfl, rfl⟩
    · rintro _ ⟨⟩ hnone
      exact ⟨_, rfl, hnone⟩
  | refused r now hactive hunconsumed hfew =>
    have hsame : (r.countFailure now).consumedAt = r.consumedAt :=
      if_neg (Nat.not_le_of_lt hfew)
    refine ⟨?_, ?_⟩
    · rintro _ ⟨⟩
      exact ⟨r, rfl, rfl, hsame⟩
    · rintro _ ⟨⟩ hnone
      exact ⟨_, rfl, hsame.trans hnone⟩
  | purged r now hconsumed =>
    refine ⟨(fun _ hr => by cases hr), ?_⟩
    rintro _ ⟨⟩ hnone
    rw [hnone] at hconsumed
    cases hconsumed
  | created | opened | locked | cancelled | reclaimed => rcases hevent with h | h <;> cases h

/-- An end leaves no live row. -/
theorem RowStep.ended {t : Terminal} (h : RowStep julian clock after row event row')
    (hevent : event = .terminal t) {r' : SecretRow} (hr' : row' = some r') :
    r'.consumedAt.isSome := by
  cases h with
  | kept | touched | refused | purged | created | activated => cases hevent
  | cancelled | reclaimed => cases hr'
  | opened r now => cases hr'; rfl
  | locked r now hactive hunconsumed hmany =>
    cases hr'
    rw [SecretRow.countFailure, if_pos hmany]
    rfl

theorem RowStep.none_of_reclaimed (h : RowStep julian clock after row event row')
    (hevent : event = .terminal .reclaimed) : row' = none := by
  cases h with
  | reclaimed => rfl
  | kept | touched | refused | purged | created | activated | opened | locked | cancelled =>
    cases hevent

/-- A record that is there after a step was created by it or was there before. -/
theorem RecordStep.origin (h : RecordStep after row row' record event record') {m' : ManagementRow}
    (hm' : record' = some m') :
    record = none ∧ event = .created ∨
      ∃ m, record = some m ∧ m'.tokenHash = m.tokenHash ∧ m'.expiresAt = m.expiresAt := by
  cases h with
  | kept => exact Or.inr ⟨m', hm', rfl, rfl⟩
  | lapsed => exact Or.inr ⟨m', hm', rfl, rfl⟩
  | created => exact Or.inl ⟨rfl, rfl⟩
  | purged => cases hm'
  | closed found t =>
    obtain ⟨m, rfl, rfl⟩ := Option.map_eq_some_iff.mp hm'
    exact Or.inr ⟨m, rfl, by simp, by simp⟩

/-- The row and the record of one secret agree at the instant `clock`.  Nothing is said
of a record after its expiry, when the reaper may drop it before the row or after it. -/
structure Agree (clock : Nat) (row : Option SecretRow) (record : Option ManagementRow) : Prop where
  expiry : ∀ r m, row = some r → record = some m → m.expiresAt = r.expiresAt
  live : ∀ m, record = some m → m.outcome = none → clock < m.expiresAt →
    ∃ r, row = some r ∧ r.consumedAt = none
  present : ∀ r, row = some r → clock < r.expiresAt → ∃ m, record = some m
  unended : ∀ r m, row = some r → record = some m → r.consumedAt = none → m.outcome = none

/-- The agreement survives whatever a step does to both. -/
theorem Agree.step (h : Agree clock row record) (hrow : RowStep julian clock after row event row')
    (hrecord : RecordStep after row row' record event record') (hclock : clock ≤ after) :
    Agree after row' record' := by
  have horigin : event ≠ .created → ∀ r', row' = some r' →
      ∃ r, row = some r ∧ r'.expiresAt = r.expiresAt := by
    intro hne r' hr'
    rcases hrow.origin hr' with ⟨-, hcreated⟩ | ⟨r, hr, hsame⟩
    · exact absurd hcreated hne
    · exact ⟨r, hr, hsame.expiresAt⟩
  -- what happened to the record decides; the row follows from the event
  cases hrecord with
  | kept _ hevent =>
    obtain ⟨hback, hforth⟩ := hrow.quiet hevent
    refine ⟨?_, ?_, ?_, ?_⟩
    · intro r' m hr' hm
      obtain ⟨r, hr, hexpires, -⟩ := hback r' hr'
      rw [hexpires]
      exact h.expiry r m hr hm
    · intro m hm hopen hlate
      obtain ⟨r, hr, hnone⟩ := h.live m hm hopen (Nat.lt_of_le_of_lt hclock hlate)
      exact hforth r hr hnone
    · intro r' hr' hlate
      obtain ⟨r, hr, hexpires, -⟩ := hback r' hr'
      exact h.present r hr (hexpires ▸ Nat.lt_of_le_of_lt hclock hlate)
    · intro r' m hr' hm hnone
      obtain ⟨r, hr, -, hconsumed⟩ := hback r' hr'
      exact h.unended r m hr hm (hconsumed ▸ hnone)
  | created m inserted hopen hinserted hexpires =>
    cases hrow with
    | created r hunconsumed =>
      obtain rfl := Option.some.inj hinserted
      refine ⟨?_, ?_, fun _ _ _ => ⟨m, rfl⟩, ?_⟩
      · rintro _ _ ⟨⟩ ⟨⟩
        exact hexpires
      · rintro _ ⟨⟩ _ _
        exact ⟨r, rfl, hunconsumed⟩
      · rintro _ _ ⟨⟩ ⟨⟩ _
        exact hopen
  | closed _ t =>
    have horigin' := horigin (by simp)
    refine ⟨?_, ?_, ?_, ?_⟩
    · intro r' m' hr' hm'
      obtain ⟨r, hr, hexpires⟩ := horigin' r' hr'
      obtain ⟨m, hm, rfl⟩ := Option.map_eq_some_iff.mp hm'
      rw [ManagementRow.close_expiresAt, hexpires]
      exact h.expiry r m hr hm
    · intro m' hm' hopen
      obtain ⟨m, hm, rfl⟩ := Option.map_eq_some_iff.mp hm'
      simp at hopen
    · intro r' hr' hlate
      obtain ⟨r, hr, hexpires⟩ := horigin' r' hr'
      obtain ⟨m, hm⟩ := h.present r hr (hexpires ▸ Nat.lt_of_le_of_lt hclock hlate)
      exact ⟨_, by rw [hm]; rfl⟩
    · intro r' m' hr' _ hnone
      have hsome := hrow.ended rfl hr'
      rw [hnone] at hsome
      cases hsome
  | lapsed _ expired hexpiredRow hexpired =>
    obtain rfl := hrow.none_of_reclaimed rfl
    refine ⟨(fun _ _ hr => by cases hr), ?_, (fun _ hr => by cases hr),
      (fun _ _ hr => by cases hr)⟩
    intro m hm _ hlate
    rw [h.expiry expired m hexpiredRow hm] at hlate
    exact absurd hexpired (Nat.not_le_of_lt hlate)
  | purged m hevent hexpired =>
    refine ⟨(fun _ _ _ hm => by cases hm), (fun _ hm => by cases hm), ?_,
      (fun _ _ _ hm => by cases hm)⟩
    intro r' hr' hlate
    obtain ⟨r, hr, hexpires⟩ := horigin (by rcases hevent with rfl | rfl <;> simp) r' hr'
    rw [hexpires, ← h.expiry r m hr rfl] at hlate
    exact absurd hexpired (Nat.not_le_of_lt hlate)

end

/-- The records of every state. -/
structure Managed (w : World) : Prop where
  unique : Table.UniqueKey ManagementRow.secretID w.db.management
  agree : ∀ id, Agree w.clock (w.row id) (w.record id)
  issued : ∀ id m, w.record id = some m → id ∈ w.issued

theorem Managed.start (clock : Nat) : Managed (World.start clock) := by
  refine ⟨List.nodup_nil, fun id => ⟨?_, ?_, ?_, ?_⟩, ?_⟩
  · intro r m hr
    cases hr
  · intro m hm
    cases hm
  · intro r hr
    cases hr
  · intro r m hr
    cases hr
  · intro id m hm
    cases hm

theorem Step.managed {cfg : Config} {julian : JulianDay} {w w' : World} {label : Label}
    (hinv : Inv w) (hmanaged : Managed w) (hstep : Step cfg julian w label w') : Managed w' := by
  have hadvance := hstep.advance hinv
  have hrecords := hstep.records hinv hmanaged.unique
  refine ⟨hrecords.unique, ?_, ?_⟩
  · intro id
    exact (hmanaged.agree id).step (hadvance.rows id) (hrecords.records id) hadvance.clock
  · intro id m' hm'
    rw [hadvance.issued id]
    rcases (hrecords.records id).origin hm' with ⟨-, hcreated⟩ | ⟨m, hm, -⟩
    · exact Or.inr hcreated
    · exact Or.inl (hmanaged.issued id m hm)

theorem managed_of_run {cfg : Config} {julian : JulianDay} {clock : Nat}
    {trace : List (Label × World)} {w : World}
    (hrun : Run (Step cfg julian) (World.start clock) trace w) : Managed w :=
  Run.stable Inv Managed (Inv.start clock) (fun _ _ _ hinv hstep => hstep.inv hinv)
    (Managed.start clock) (fun _ _ _ hinv hmanaged hstep => hstep.managed hinv hmanaged) hrun

end Secrets
end FlickDrop
