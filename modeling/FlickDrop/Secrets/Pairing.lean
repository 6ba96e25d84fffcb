import FlickDrop.Secrets.Lockout

/-!
# Secrets and their records are purged in pairs

`purgeManagementTx` runs two deletes, and each evaluates the subquery of the expired records
for itself; between the two the table of secrets has changed.  The rows that the first
delete takes are rows whose body no longer streams, and only streaming rows keep a record
out of the subquery, so both select the same ids.

From that follows the pairing of the two tables over whole runs: a consumed row keeps its
record.  A row without a record has expired and can no longer be consumed.
-/

namespace FlickDrop
namespace Secrets

open Foundations Events

/-! ### The two evaluations -/

section

variable {julian : JulianDay} {now limit : Nat} {db : DB} {record : ManagementRow} {id : String}

/-- **Both evaluations select the same ids.** -/
theorem expiredManagement_again (julian : JulianDay) (now limit : Nat) (db : DB) :
    expiredManagement julian now limit (deleteSecrets (fun row => row.consumedAt.isSome &&
      decide (row.id ∈ expiredManagement julian now limit db)) db) =
    expiredManagement julian now limit db := by
  -- a row that keeps a record out of the subquery is streaming, and is not deleted
  have hstreams : ∀ m : ManagementRow,
      ((deleteSecrets (fun row => row.consumedAt.isSome &&
        decide (row.id ∈ expiredManagement julian now limit db)) db).secrets.any fun row =>
          decide (row.id = m.secretID) && row.streaming julian now) =
      db.secrets.any fun row => decide (row.id = m.secretID) && row.streaming julian now := by
    intro m
    rw [Bool.eq_iff_iff, List.any_eq_true, List.any_eq_true]
    constructor
    · rintro ⟨row, hrow, hstreaming⟩
      exact ⟨row, Table.delete_subset _ _ hrow, hstreaming⟩
    · rintro ⟨row, hrow, hstreaming⟩
      refine ⟨row, List.mem_filter.mpr ⟨hrow, ?_⟩, hstreaming⟩
      rw [Bool.and_eq_true] at hstreaming
      rw [Bool.not_eq_true', Bool.and_eq_false_iff]
      refine Or.inr (decide_eq_false fun hmem => ?_)
      rw [mem_expiredManagement hmem hrow rfl] at hstreaming
      cases hstreaming.2
  show (((db.management.filter fun m => _).mergeSort _).take _).map _ = _
  simp only [hstreams]
  rfl

/-- A record the purge takes has expired, and no consumed row of its secret stays behind. -/
theorem purged_pair (hunique : Table.UniqueKey SecretRow.id db.secrets)
    (hrecords : Table.UniqueKey ManagementRow.secretID db.management)
    (hrecord : Table.lookup ManagementRow.secretID id db.management = some record)
    (hgone : Table.lookup ManagementRow.secretID id
      (purgeManagementTx julian now limit db).management = none) :
    record.expiresAt ≤ now ∧ ∀ row, Table.lookup SecretRow.id id
      (purgeManagementTx julian now limit db).secrets = some row → row.consumedAt = none := by
  have hpurged : id ∈ expiredManagement julian now limit db := by
    by_contra hkept
    rw [← expiredManagement_again] at hkept
    have hstays : Table.lookup ManagementRow.secretID id
        (purgeManagementTx julian now limit db).management = some record := by
      show Table.lookup ManagementRow.secretID id (Table.delete _ db.management) = some record
      rw [Table.lookup_delete hrecords, hrecord, Option.filter_some, if_pos]
      simpa [Table.lookup_key hrecord] using hkept
    rw [hstays] at hgone
    cases hgone
  refine ⟨?_, ?_⟩
  · have hkey := Table.lookup_key hrecord
    exact expired_of_purged hrecords (Table.lookup_mem hrecord) (hkey ▸ hpurged)
  · intro row hrow
    have hleft : Table.lookup SecretRow.id id (Table.delete (fun row => row.consumedAt.isSome &&
        decide (row.id ∈ expiredManagement julian now limit db)) db.secrets) = some row := hrow
    rw [Table.lookup_delete hunique, Option.filter_eq_some_iff] at hleft
    have hkept := hleft.2
    rw [Table.lookup_key hrow] at hkept
    simpa [hpurged] using hkept

/-- Once its record has expired and its body no longer streams, a consumed row goes with the
next purge that reaches it. -/
theorem purged_of_expired (hunique : Table.UniqueKey SecretRow.id db.secrets) {row : SecretRow}
    {consumed : Nat} (hrow : Table.lookup SecretRow.id id db.secrets = some row)
    (hconsumed : row.consumedAt = some consumed)
    (hrecord : Table.lookup ManagementRow.secretID id db.management = some record)
    (hexpired : record.expiresAt ≤ now) (hquiet : consumed + openObjectGrace ≤ now)
    (hlimit : db.management.length ≤ limit) :
    Table.lookup SecretRow.id id (purgeManagementTx julian now limit db).secrets = none := by
  have hstill : row.streaming julian now = false := by
    rw [SecretRow.streaming, hconsumed, Bool.and_eq_false_iff]
    refine Or.inr (decide_eq_false (Int.not_lt.mpr (julian.mono _ _ ?_)))
    omega
  have hpurged : id ∈ expiredManagement julian now limit db := by
    refine List.mem_map.mpr ⟨record, ?_, Table.lookup_key hrecord⟩
    rw [List.take_of_length_le]
    · rw [List.mem_mergeSort, List.mem_filter, Bool.and_eq_true, Bool.not_eq_true',
        List.any_eq_false]
      refine ⟨Table.lookup_mem hrecord, decide_eq_true hexpired, ?_⟩
      intro other hother hstreams
      rw [Bool.and_eq_true, decide_eq_true_eq, Table.lookup_key hrecord] at hstreams
      -- the key is unique, so the row that streams would be this one
      have hsame := Table.lookup_of_mem hunique hother
      rw [hstreams.1, hrow] at hsame
      cases hsame
      rw [hstill] at hstreams
      cases hstreams.2
    · rw [List.length_mergeSort]
      exact Nat.le_trans (List.length_filter_le _ _) hlimit
  show Table.lookup SecretRow.id id (Table.delete _ db.secrets) = none
  rw [Table.lookup_delete hunique, hrow, Option.filter_some, if_neg]
  simp [hconsumed, Table.lookup_key hrow, hpurged]

end

/-! ### Records over one step -/

/-- What a step other than a tick of the reaper does to the table of records. -/
inductive RecordsKept (before : List ManagementRow) : List ManagementRow → Prop
  | same : RecordsKept before before
  | closed (id : String) (outcome : ManagementOutcome) :
      RecordsKept before (recordManagementOutcomeTx id outcome before)
  | inserted (record : ManagementRow) : RecordsKept before (before ++ [record])

theorem RecordsKept.present {before after : List ManagementRow} (h : RecordsKept before after)
    {id : String} {record : ManagementRow}
    (hrecord : Table.lookup ManagementRow.secretID id before = some record) :
    ∃ record', Table.lookup ManagementRow.secretID id after = some record' := by
  cases h with
  | same => exact ⟨record, hrecord⟩
  | closed other outcome =>
    rw [lookup_recordManagementOutcomeTx, hrecord]
    split
    · exact ⟨_, rfl⟩
    · exact ⟨_, rfl⟩
  | inserted new =>
    rw [Table.lookup_append, hrecord]
    exact ⟨record, rfl⟩

section

variable {cfg : Config} {julian : JulianDay} {w w' : World} {label : Label} {id : String}

/-- A record that a step takes has expired, and no consumed row of its secret stays behind. -/
theorem Step.purged_pair (hinv : Inv w)
    (hunique : Table.UniqueKey ManagementRow.secretID w.db.management)
    (hstep : Step cfg julian w label w') {record : ManagementRow}
    (hrecord : w.record id = some record) (hgone : w'.record id = none) :
    record.expiresAt ≤ w'.clock ∧ ∀ row, w'.row id = some row → row.consumedAt = none := by
  have hkeeps : ∀ {after : List ManagementRow}, w'.db.management = after →
      RecordsKept w.db.management after →
      record.expiresAt ≤ w'.clock ∧ ∀ row, w'.row id = some row → row.consumedAt = none := by
    rintro _ rfl hkept
    obtain ⟨record', hpresent⟩ := hkept.present hrecord
    rw [World.record, hpresent] at hgone
    cases hgone
  cases hstep with
  | claimExpired batchSize now draws purgeRequests hclock hnow hforeign hclaim =>
    obtain ⟨-, reclaimed, outbox, hreclaim, -, rfl⟩ := claimExpired_cases hclaim
    obtain ⟨hmidUnique, hmid⟩ := reclaimRows_management hreclaim hunique
    -- the loop over the batch leaves the record there
    have hthere : ∃ mid, Table.lookup ManagementRow.secretID id reclaimed.management = some mid ∧
        mid.expiresAt = record.expiresAt := by
      have hbefore : Table.lookup ManagementRow.secretID id w.db.management = some record := hrecord
      rw [hmid id]
      split
      · exact ⟨_, by rw [hbefore]; rfl, ManagementRow.close_expiresAt _ _⟩
      · exact ⟨record, hbefore, rfl⟩
    obtain ⟨mid, hlookup, hexpires⟩ := hthere
    have hid : ∀ row, (SecretRow.claim (now 0) row).id = row.id := fun _ => rfl
    have hrows := (reclaimRows_ok (hinv.unique.update hid) hreclaim).1
    obtain ⟨hexpired, hleft⟩ := FlickDrop.Secrets.purged_pair hrows hmidUnique hlookup hgone
    exact ⟨hexpires ▸ Nat.le_trans hexpired (hnow 0), hleft⟩
  | create now id raw input hnow hfresh hcreate =>
    exact hkeeps (create_ok hcreate).2.2.2.management (.inserted _)
  | createLarge now id raw presign input hnow hfresh hcreate =>
    exact hkeeps (createLarge_ok hcreate).2.2.2.management (.inserted _)
  | opened pid readings draws object id accessProofHash hfree hopen =>
    rcases openAndEnqueueCleanup_commit hinv.unique hopen with ⟨_, row, -, h⟩ | ⟨_, herr, -⟩
    · exact hkeeps h.management (.closed _ _)
    · cases herr
  | refused readings draws object id accessProofHash hopen =>
    rcases openAndEnqueueCleanup_commit hinv.unique hopen with ⟨_, _, hok, -⟩ | ⟨row, -, h⟩
    · cases hok
    · have hmanagement := h.management
      split at hmanagement
      · exact hkeeps hmanagement (.closed _ _)
      · exact hkeeps hmanagement .same
  | revoke readings draws id token hrevoke =>
    rcases revokedLabel_event julian w.clock w.clock hinv.unique hrevoke with
      ⟨-, rfl⟩ | ⟨-, -, hmanagement, -⟩
    · exact hkeeps rfl .same
    · exact hkeeps hmanagement (.closed _ _)
  | finalizeEnd pid head hat hactivate =>
    obtain rfl := finalizeActivate_ok hactivate
    exact hkeeps rfl .same
  | cleanup id hcleanup => exact hkeeps (cleanup_ok hcleanup).1 .same
  | streamCleanup pid readings draws hat henqueue =>
    exact hkeeps (scheduled_enqueueObject henqueue).2.1 .same
  | tick | put | objectGone | outbox | finalizeBegin | finalizeFail | streamEnd | streamLost
  | scanBegin | scanListed | scanReset | scanCommit | scanEnd | acknowledge =>
    exact hkeeps rfl .same

/-! ### Rows without a record -/

/-- The secret was issued, and its row, if it is still there, is unconsumed and has expired. -/
def Lapsed (id : String) (w : World) : Prop :=
  id ∈ w.issued ∧ ∀ row, w.row id = some row → row.consumedAt = none ∧ row.expiresAt ≤ w.clock

/-- A row that has expired stays unconsumed, whatever a transaction does to it. -/
theorem RowStep.lapsed {clock after : Nat} {found found' : Option SecretRow} {event : Event}
    (h : RowStep julian clock after found event found') (hcreated : event ≠ .created)
    (hlocked : event ≠ .terminal .locked) (hclock : clock ≤ after)
    (hbefore : ∀ row, found = some row → row.consumedAt = none ∧ row.expiresAt ≤ clock) :
    ∀ row', found' = some row' → row'.consumedAt = none ∧ row'.expiresAt ≤ after := by
  cases h with
  | kept =>
    intro row hrow
    exact ⟨(hbefore row hrow).1, Nat.le_trans (hbefore row hrow).2 hclock⟩
  | touched row now | activated row now =>
    rintro _ ⟨⟩
    exact ⟨(hbefore row rfl).1, Nat.le_trans (hbefore row rfl).2 hclock⟩
  | refused row now hactive hunconsumed hfew =>
    rintro _ ⟨⟩
    refine ⟨?_, Nat.le_trans (hbefore row rfl).2 hclock⟩
    show (if _ then _ else row.consumedAt) = none
    rw [if_neg (Nat.not_le_of_lt hfew), hunconsumed]
  | opened row now hactive hunconsumed hnow hearly =>
    -- an open reads the clock before the expiry
    have hexpired := (hbefore row rfl).2
    omega
  | created => exact absurd rfl hcreated
  | locked => exact absurd rfl hlocked
  | purged | cancelled | reclaimed =>
    rintro _ ⟨⟩

/-- A step that locks a secret comes before its expiry. -/
theorem Step.locked_early (hinv : Inv w) (hstep : Step cfg julian w label w')
    (hevent : label.event id = .terminal .locked) :
    ∃ row, w.row id = some row ∧ w.clock < row.expiresAt := by
  have hdenies : label.denies id = true := by
    cases label with
    | locked other =>
      simp only [Label.event, eventAt] at hevent
      split at hevent
      · rename_i heq
        simp [Label.denies, heq]
      · cases hevent
    | reclaimed ids =>
      simp only [Label.event] at hevent
      split at hevent <;> cases hevent
    | other | refused => cases hevent
    | created row | activated other | opened other proof now secret | cancelled other =>
      simp only [Label.event, eventAt] at hevent
      split at hevent <;> cases hevent
  obtain ⟨row, now, -, hclock, hrefused⟩ := hstep.denied hinv hdenies
  exact ⟨row, hrefused.found, Nat.lt_of_le_of_lt hclock hrefused.early⟩

/-- **Step lemma**: an expired row is never consumed. -/
theorem Lapsed.step (h : Lapsed id w) (hinv : Inv w) (hstep : Step cfg julian w label w') :
    Lapsed id w' := by
  have hadvance := hstep.advance hinv
  refine ⟨(hadvance.issued id).mpr (Or.inl h.1), ?_⟩
  refine (hadvance.rows id).lapsed ?_ ?_ hadvance.clock h.2
  · intro hcreated
    exact (hadvance.fresh id hcreated).1 h.1
  · intro hlocked
    obtain ⟨row, hrow, hearly⟩ := hstep.locked_early hinv hlocked
    exact absurd (h.2 row hrow).2 (Nat.not_le_of_lt hearly)

/-- An unconsumed row without a record has expired. -/
theorem Managed.lapsed (hmanaged : Managed w) (hinv : Inv w) {id : String} {row : SecretRow}
    (hrow : w.row id = some row) (hunconsumed : row.consumedAt = none)
    (hgone : w.record id = none) :
    Lapsed id w := by
  refine ⟨hinv.issued id row hrow, ?_⟩
  intro row' hrow'
  rw [hrow] at hrow'
  cases hrow'
  refine ⟨hunconsumed, ?_⟩
  by_contra hearly
  obtain ⟨record, hrecord⟩ := (hmanaged.agree id).present row hrow (Nat.lt_of_not_le hearly)
  rw [hgone] at hrecord
  cases hrecord

/-- Every consumed row has a record. -/
def Paired (w : World) : Prop :=
  ∀ id row, w.row id = some row → row.consumedAt.isSome → ∃ record, w.record id = some record

/-- **Step lemma** for the pairing. -/
theorem Step.paired (hinv : Inv w) (hmanaged : Managed w) (h : Paired w)
    (hstep : Step cfg julian w label w') : Paired w' := by
  intro id row' hrow' hconsumed
  cases hgone : w'.record id with
  | some record => exact ⟨record, rfl⟩
  | none =>
    exfalso
    have hunconsumed : row'.consumedAt = none := by
      cases hrecord : w.record id with
      | some record => exact (hstep.purged_pair hinv hmanaged.unique hrecord hgone).2 row' hrow'
      | none =>
        -- without a record the row was unconsumed already, so it has expired
        cases hrow : w.row id with
        | none =>
          have hstepRow := (hstep.advance hinv).rows id
          rw [hrow, hrow'] at hstepRow
          generalize label.event id = event at hstepRow
          cases hstepRow with
          | created _ hunconsumed => exact hunconsumed
        | some row =>
          have hlive : row.consumedAt = none := by
            by_contra hsome
            obtain ⟨record, hthere⟩ := h id row hrow (Option.isSome_iff_ne_none.mpr hsome)
            rw [hrecord] at hthere
            cases hthere
          have hlapsed := hmanaged.lapsed hinv hrow hlive hrecord
          exact ((hlapsed.step hinv hstep).2 row' hrow').1
    rw [hunconsumed] at hconsumed
    cases hconsumed

end

/-- **Purging keeps the two tables paired.**  For every database, instant and limit the two
evaluations of the subquery select the same ids.  In every reachable state a consumed row
has a record, so from some instant on a purge that reaches it takes it; a record that a
step takes has expired; and an unconsumed row without a record is never consumed later. -/
theorem purge_keeps_pairing {cfg : Config} {julian : JulianDay} {clock : Nat}
    {trace : List (Label × World)} {w : World}
    (hrun : Run (Step cfg julian) (World.start clock) trace w) :
    (∀ db now limit, expiredManagement julian now limit (deleteSecrets (fun row =>
      row.consumedAt.isSome && decide (row.id ∈ expiredManagement julian now limit db)) db) =
        expiredManagement julian now limit db) ∧
    (∀ id row, w.row id = some row → row.consumedAt.isSome →
      (∃ record, w.record id = some record) ∧
      ∃ start, ∀ now limit, start ≤ now → w.db.management.length ≤ limit →
        Table.lookup SecretRow.id id (purgeManagementTx julian now limit w.db).secrets = none) ∧
    (∀ id record label w', w.record id = some record → Step cfg julian w label w' →
      w'.record id = none → record.expiresAt ≤ w'.clock) ∧
    (∀ id row later w', w.row id = some row → row.consumedAt = none → w.record id = none →
      Run (Step cfg julian) w later w' → ∀ row', w'.row id = some row' →
        row'.consumedAt = none) := by
  have hinv := inv_of_run hrun
  have hmanaged := managed_of_run hrun
  have hpaired : Paired w := by
    refine Run.stable (fun w => Inv w ∧ Managed w) Paired ⟨Inv.start clock, Managed.start clock⟩
      ?_ ?_ ?_ hrun
    · exact fun _ _ _ h hstep => ⟨hstep.inv h.1, hstep.managed h.1 h.2⟩
    · intro id row hrow
      cases hrow
    · exact fun _ _ _ h hpaired hstep => hstep.paired h.1 h.2 hpaired
  refine ⟨fun db now limit => expiredManagement_again julian now limit db, ?_, ?_, ?_⟩
  · intro id row hrow hconsumed
    obtain ⟨record, hrecord⟩ := hpaired id row hrow hconsumed
    obtain ⟨consumed, hat⟩ := Option.isSome_iff_exists.mp hconsumed
    refine ⟨⟨record, hrecord⟩, max record.expiresAt (consumed + openObjectGrace), ?_⟩
    intro now limit hstart hlimit
    exact purged_of_expired hinv.unique hrow hat hrecord (Nat.le_trans (Nat.le_max_left _ _) hstart)
      (Nat.le_trans (Nat.le_max_right _ _) hstart) hlimit
  · intro id record label w' hrecord hstep hgone
    exact (hstep.purged_pair hinv hmanaged.unique hrecord hgone).1
  · intro id row later w' hrow hunconsumed hgone hlater
    have hlapsed : Lapsed id w' :=
      Run.stable Inv (Lapsed id) hinv (fun _ _ _ hinv hstep => hstep.inv hinv)
        (hmanaged.lapsed hinv hrow hunconsumed hgone)
        (fun _ _ _ hinv hlapsed hstep => hlapsed.step hinv hstep) hlater
    exact fun row' hrow' => (hlapsed.2 row' hrow').1

/-- A text that was created and opened. -/
theorem purge_keeps_pairing_text :
    ∃ (trace : List (Label × World)) (w : World) (row : SecretRow) (record : ManagementRow),
      Run (Step (sampleConfig (secretEvent "job" "a" 1)) instantDay) (World.start 1) trace w ∧
      w.row "a" = some row ∧ row.consumedAt = some 1 ∧ w.record "a" = some record := by
  have hrun : Run (Step (sampleConfig (secretEvent "job" "a" 1)) instantDay) (World.start 1) _ _ :=
    (Run.nil.snoc (.create 1 "a" [] sampleInput (Nat.le_refl _)
      ⟨by simp [World.start], by simp [World.start]⟩ rfl)).snoc
      (.opened 0 (Readings.still 1) sampleDraws none "a" "" rfl rfl)
  obtain ⟨record, hrecord⟩ := ((purge_keeps_pairing hrun).2.1 "a" _ rfl rfl).1
  exact ⟨_, _, _, record, hrun, rfl, rfl, hrecord⟩

end Secrets
end FlickDrop
