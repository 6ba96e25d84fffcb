import FlickDrop.Requests.Rows

/-!
# The purge of expired requests

`PurgeExpiredTx` works on many rows in one transaction.  Its first loop ends elapsed
reservations of requests that are not expired, the second deletes expired requests, so no
row goes through both.
-/

namespace FlickDrop
namespace Requests

open Foundations Events

section

variable {cfg : Config} {env : Env} {fresh : String → String → Prop} {new : String → Prop}
  {clock after now i limit : Nat} {db db' : DB} {row : RequestRow} {batch : List RequestRow}

/-- What the first loop did to one row. -/
inductive EndedRow (batch : List RequestRow) (id : String) :
    Option RequestRow → Option RequestRow → Prop
  | kept (found : Option RequestRow) : EndedRow batch id found found
  | ended (row : RequestRow) (hmem : id ∈ batch.map RequestRow.id)
      (huploading : row.state = .uploading) :
      EndedRow batch id (some row) (some (row.endReservation row.generation))

theorem endReservation_not_uploading {generation : Int} :
    (row.endReservation generation).state ≠ .uploading := by
  unfold RequestRow.endReservation
  dsimp only
  split <;> decide

theorem endReservations_ok (hunique : Table.UniqueKey RequestRow.id db.requests)
    (h : endReservations cfg env now i batch db = .ok db') :
    Table.UniqueKey RequestRow.id db'.requests ∧
    (∀ id, EndedRow batch id (Table.lookup RequestRow.id id db.requests)
      (Table.lookup RequestRow.id id db'.requests)) ∧
    ∀ key, Scheduled cfg.codec db'.outbox key → Scheduled cfg.codec db.outbox key ∨
      Area.requests.owns key = true ∧
        ∃ id row, Table.lookup RequestRow.id id db.requests = some row ∧ row.holds key ∧
          ∀ row', Table.lookup RequestRow.id id db'.requests = some row' → ¬ row'.holds key := by
  induction batch generalizing i db with
  | nil =>
    cases h
    exact ⟨hunique, fun id => EndedRow.kept _, fun key hs => Or.inl hs⟩
  | cons c rest ih =>
    unfold endReservations at h
    split at h
    · cases h
    rename_i mid hend
    obtain ⟨row, huploading, hgeneration, hupdates, hjobs⟩ := endReservationTx_ok hunique hend
    obtain ⟨hunique', hrows, hlater⟩ := ih hupdates.unique h
    -- the row of this pass is not uploading any more, so the rest leaves it alone
    have hself : Table.lookup RequestRow.id c.id db'.requests =
        some (row.endReservation c.generation) := by
      have hrow := hrows c.id
      rw [hupdates.self] at hrow
      generalize Table.lookup RequestRow.id c.id db'.requests = found' at hrow
      cases hrow with
      | kept => rfl
      | ended _ _ hstate => exact absurd hstate endReservation_not_uploading
    refine ⟨hunique', ?_, ?_⟩
    · intro id
      by_cases heq : id = c.id
      · rw [heq, hupdates.found, hself, ← hgeneration]
        exact EndedRow.ended row List.mem_cons_self huploading
      · have hrow := hrows id
        rw [hupdates.lookup id, if_neg heq] at hrow
        generalize Table.lookup RequestRow.id id db.requests = found at hrow ⊢
        generalize Table.lookup RequestRow.id id db'.requests = found' at hrow ⊢
        cases hrow with
        | kept => exact EndedRow.kept _
        | ended row hmem hstate =>
          exact EndedRow.ended row (List.mem_cons_of_mem _ hmem) hstate
    · intro key hs
      rcases hlater key hs with hmid | ⟨howns, id, found, hfound, hholds, hgone⟩
      · refine (hjobs key hmid).imp_right ?_
        rintro ⟨howns, hholds⟩
        refine ⟨howns, c.id, row, hupdates.found, hholds, ?_⟩
        intro row' hrow'
        rw [hself] at hrow'
        obtain rfl := Option.some.inj hrow'
        exact not_holds rfl rfl
      · refine Or.inr ⟨howns, id, found, ?_, hholds, hgone⟩
        rw [hupdates.lookup id] at hfound
        split at hfound
        · obtain rfl := Option.some.inj hfound
          exact absurd hholds (not_holds rfl rfl)
        · exact hfound

theorem lookup_deleteRequest (hunique : Table.UniqueKey RequestRow.id db.requests)
    (id other : String) :
    Table.lookup RequestRow.id other (deleteRequest id db).requests =
      if other = id then none else Table.lookup RequestRow.id other db.requests := by
  show Table.lookup RequestRow.id other (Table.delete _ db.requests) = _
  rw [Table.lookup_delete hunique]
  cases hfound : Table.lookup RequestRow.id other db.requests with
  | none => simp
  | some row =>
    have hid := Table.lookup_key hfound
    by_cases heq : other = id
    · simp [Option.filter, hid, heq]
    · simp [Option.filter, hid, heq]

theorem purgeRequests_ok (hunique : Table.UniqueKey RequestRow.id db.requests)
    (h : purgeRequests cfg env now i batch db = .ok db') :
    Table.UniqueKey RequestRow.id db'.requests ∧
    (∀ id, Table.lookup RequestRow.id id db'.requests =
      if id ∈ batch.map RequestRow.id then none else Table.lookup RequestRow.id id db.requests) ∧
    ∀ key, Scheduled cfg.codec db'.outbox key → Scheduled cfg.codec db.outbox key ∨
      Area.requests.owns key = true ∧
        ∃ id row, Table.lookup RequestRow.id id db.requests = some row ∧ row.holds key ∧
          Table.lookup RequestRow.id id db'.requests = none := by
  induction batch generalizing i db with
  | nil =>
    cases h
    exact ⟨hunique, fun id => by simp, fun key hs => Or.inl hs⟩
  | cons c rest ih =>
    unfold purgeRequests at h
    split at h
    · cases h
    rename_i outbox henqueue
    obtain ⟨row, hfound, hjobs⟩ := enqueueRequestKeysTx_ok henqueue
    have hlookup : ∀ other, Table.lookup RequestRow.id other
        (deleteRequest c.id { db with outbox := outbox }).requests =
          if other = c.id then none else Table.lookup RequestRow.id other db.requests :=
      lookup_deleteRequest hunique c.id
    obtain ⟨hunique', hrows, hlater⟩ := ih (hunique.delete _) h
    have hself : Table.lookup RequestRow.id c.id db'.requests = none := by
      rw [hrows c.id, hlookup c.id, if_pos rfl, ite_self]
    refine ⟨hunique', ?_, ?_⟩
    · intro id
      rw [hrows id, hlookup id, List.map_cons]
      by_cases heq : id = c.id
      · simp [heq]
      · simp [heq]
    · intro key hs
      rcases hlater key hs with hmid | ⟨howns, id, found, hfound', hholds, hgone⟩
      · refine (hjobs key hmid).imp_right ?_
        exact fun hheld => ⟨hheld.1, c.id, row, hfound, hheld.2, hself⟩
      · refine Or.inr ⟨howns, id, found, ?_, hholds, hgone⟩
        rw [hlookup id] at hfound'
        split at hfound'
        · cases hfound'
        exact hfound'

theorem mem_take_mergeSort_filter {cond : RequestRow → Bool} {le : RequestRow → RequestRow → Bool}
    {rows : List RequestRow} (h : row ∈ ((rows.filter cond).mergeSort le).take limit) :
    row ∈ rows ∧ cond row = true :=
  List.mem_filter.mp (List.mem_mergeSort.mp (List.mem_of_mem_take h))

theorem purgeable_expired (h : row.purgeable now = true) : row.expiresAt ≤ now := by
  rw [RequestRow.purgeable, Bool.and_eq_true, decide_eq_true_eq] at h
  exact h.1

/-- The two loops of a purge that committed. -/
theorem purgeExpiredTx_cases (h : purgeExpiredTx cfg env now limit db = .ok db') :
    ∃ pending mid expired, (∀ row ∈ pending, row ∈ db.requests ∧ row.elapsed now = true) ∧
      endReservations cfg env now 0 pending db = .ok mid ∧
      (∀ row ∈ expired, row ∈ mid.requests ∧ row.purgeable now = true) ∧
      purgeRequests cfg env now (2 * pending.length) expired mid = .ok db' := by
  unfold purgeExpiredTx at h
  dsimp only at h
  split at h
  · cases h
  rename_i mid hends
  exact ⟨_, mid, _, fun _ hrow => mem_take_mergeSort_filter hrow, hends,
    fun _ hrow => mem_take_mergeSort_filter hrow, h⟩

/-- **The purge**, as one transaction. -/
theorem purgeExpiredTx_effect (hunique : Table.UniqueKey RequestRow.id db.requests)
    (hnow : now ≤ after) (h : purgeExpiredTx cfg env now limit db = .ok db') :
    Effect cfg fresh new clock after db db' := by
  obtain ⟨pending, mid, expired, helapsed, hends, hexpired, h⟩ := purgeExpiredTx_cases h
  obtain ⟨huniqueMid, hended, hendJobs⟩ := endReservations_ok hunique hends
  obtain ⟨hunique', hpurged, hpurgeJobs⟩ := purgeRequests_ok huniqueMid h
  refine ⟨?_, hunique', ?_⟩
  · intro id
    rw [hpurged id]
    split
    · rename_i hmem
      obtain ⟨c, hc, rfl⟩ := List.mem_map.mp hmem
      obtain ⟨hcMem, hcPurgeable⟩ := hexpired c hc
      have hcFound := Table.lookup_of_mem huniqueMid hcMem
      have hrow := hended c.id
      rw [hcFound] at hrow
      generalize hfound : Table.lookup RequestRow.id c.id db.requests = found at hrow ⊢
      generalize hc' : some c = found' at hrow
      cases hrow with
      | kept =>
        subst hc'
        exact RowStep.purged c now hnow hcPurgeable
      | ended row hpending =>
        -- an elapsed reservation belongs to a request that is not expired
        obtain rfl := Option.some.inj hc'
        obtain ⟨p, hp, hpid⟩ := List.mem_map.mp hpending
        obtain ⟨hpMem, hpElapsed⟩ := helapsed p hp
        have hpFound := Table.lookup_of_mem hunique hpMem
        rw [hpid, hfound] at hpFound
        obtain rfl := Option.some.inj hpFound
        simp only [RequestRow.elapsed, Bool.and_eq_true, decide_eq_true_eq] at hpElapsed
        have hlate : (row.endReservation row.generation).expiresAt ≤ now :=
          purgeable_expired hcPurgeable
        exact absurd hlate (Nat.not_le_of_lt hpElapsed.2)
    · have hrow := hended id
      generalize Table.lookup RequestRow.id id db.requests = found at hrow ⊢
      generalize Table.lookup RequestRow.id id mid.requests = found' at hrow ⊢
      cases hrow with
      | kept => exact RowStep.kept _
      | ended row _ huploading => exact RowStep.ended row huploading
  · intro key hs
    rcases hpurgeJobs key hs with hmid | ⟨howns, id, row, hfound, hholds, hgone⟩
    · refine (hendJobs key hmid).imp_right ?_
      rintro ⟨howns, id, row, hfound, hholds, hgone⟩
      refine ⟨howns, id, row, hfound, hholds, ?_⟩
      intro row' hrow'
      rw [hpurged id] at hrow'
      split at hrow'
      · cases hrow'
      exact hgone row' hrow'
    · refine Or.inr ⟨howns, id, row, ?_, hholds, fun row' hrow' => ?_⟩
      · have hrow := hended id
        generalize Table.lookup RequestRow.id id db.requests = found at hrow ⊢
        generalize Table.lookup RequestRow.id id mid.requests = found' at hrow hfound
        cases hrow with
        | kept => exact hfound
        | ended old =>
          obtain rfl := Option.some.inj hfound
          exact absurd hholds (not_holds rfl rfl)
      · rw [hgone] at hrow'
        cases hrow'

end

end Requests
end FlickDrop
