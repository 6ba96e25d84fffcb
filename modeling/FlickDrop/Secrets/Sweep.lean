import FlickDrop.Secrets.Rows

/-!
# What a tick of the reaper does to the rows

`claimExpired` ends the rows of its batch, and the purge of management records takes
the metadata of secrets that ended earlier; every other row it leaves alone.
-/

namespace FlickDrop
namespace Secrets

open Foundations Events

section

variable {cfg : Config} {julian : JulianDay} {clock after batchSize limit i : Nat} {now : Nat → Nat}
  {draws : Draws} {db db' : DB} {batch : List SecretRow} {c : SecretRow}
  {purgeRequests : List OutboxRow → Except Unit (List OutboxRow)} {id : String}

/-- A claimed row is a dead row of the table. -/
theorem mem_claimReclaimable {pendingTTL now : Nat} {rows : List SecretRow}
    (h : c ∈ (claimReclaimable pendingTTL now limit rows).1) :
    c ∈ rows ∧ c.reclaimable pendingTTL now = true := by
  have hsorted := List.mem_of_mem_take h
  rw [List.mem_mergeSort] at hsorted
  exact List.mem_filter.mp hsorted

theorem reclaimTx_ok (h : reclaimTx id db = .ok db') :
    db'.secrets = Table.delete (fun row => decide (row.id = id) && row.reclaimEnqueuedAt.isSome)
      db.secrets ∧ db'.outbox = db.outbox ∧ db'.management = db.management := by
  unfold reclaimTx at h
  split at h
  · cases h
  cases h
  exact ⟨rfl, rfl, rfl⟩

theorem reclaimRow_ok (h : reclaimRow cfg now draws i c db = .ok db') :
    db'.secrets = Table.delete (fun row => decide (row.id = c.id) && row.reclaimEnqueuedAt.isSome)
      db.secrets ∧
    db'.management = (if c.state = .pendingUpload then
      recordManagementOutcomeTx c.id .unavailable db.management else db.management) ∧
      ∀ key, Scheduled cfg.codec db'.outbox key → Scheduled cfg.codec db.outbox key ∨
        c.storageBackend = .s3Object ∧ c.storageKey = key := by
  unfold reclaimRow at h
  dsimp only at h
  split at h
  · cases h
  rename_i reclaimed hreclaim
  obtain ⟨hsecrets, houtbox, hmanagement⟩ := reclaimTx_ok hreclaim
  have hsame : ∀ recorded : DB, recorded = (if c.state = .pendingUpload then
      { db with management := recordManagementOutcomeTx c.id .unavailable db.management }
      else db) → recorded.secrets = db.secrets ∧ recorded.outbox = db.outbox ∧
        recorded.management = (if c.state = .pendingUpload then
          recordManagementOutcomeTx c.id .unavailable db.management else db.management) := by
    rintro recorded rfl
    split <;> exact ⟨rfl, rfl, rfl⟩
  obtain ⟨hsecrets', houtbox', hmanagement'⟩ := hsame _ rfl
  rw [hsecrets'] at hsecrets
  rw [houtbox'] at houtbox
  rw [hmanagement'] at hmanagement
  split at h
  · cases h
    exact ⟨hsecrets, hmanagement, fun key hs => Or.inl (houtbox ▸ hs)⟩
  · rename_i hbackend
    obtain ⟨hkept, hkept', hjobs⟩ := scheduled_enqueueObject h
    refine ⟨hkept.trans hsecrets, hkept'.trans hmanagement, fun key hs => ?_⟩
    rcases hjobs key hs with hold | hkey
    · exact Or.inl (houtbox ▸ hold)
    · exact Or.inr ⟨not_not.mp hbackend, hkey⟩

/-- The loop over the batch takes out the claimed rows of the batch. -/
theorem reclaimRows_ok (hunique : Table.UniqueKey SecretRow.id db.secrets)
    (h : reclaimRows cfg now draws i batch db = .ok db') :
    Table.UniqueKey SecretRow.id db'.secrets ∧
      (∀ id, Table.lookup SecretRow.id id db'.secrets =
        if id ∈ batch.map SecretRow.id then
          (Table.lookup SecretRow.id id db.secrets).filter fun row => row.reclaimEnqueuedAt.isNone
        else Table.lookup SecretRow.id id db.secrets) ∧
      ∀ key, Scheduled cfg.codec db'.outbox key → Scheduled cfg.codec db.outbox key ∨
        ∃ c ∈ batch, c.storageBackend = .s3Object ∧ c.storageKey = key := by
  induction batch generalizing i db with
  | nil =>
    cases h
    exact ⟨hunique, by simp, fun key => Or.inl⟩
  | cons c rest ih =>
    rw [reclaimRows] at h
    split at h
    · cases h
    rename_i mid hmid
    obtain ⟨hsecrets, -, hjobs⟩ := reclaimRow_ok hmid
    have hlookup : ∀ id, Table.lookup SecretRow.id id mid.secrets =
        if id = c.id then (Table.lookup SecretRow.id id db.secrets).filter
          fun row => row.reclaimEnqueuedAt.isNone
        else Table.lookup SecretRow.id id db.secrets := by
      intro id
      rw [hsecrets, Table.lookup_delete hunique]
      cases hfound : Table.lookup SecretRow.id id db.secrets with
      | none => simp [Option.filter]
      | some row =>
        have hid : row.id = id := Table.lookup_key hfound
        by_cases heq : id = c.id
        · simp [Option.filter, hid, heq]
        · simp [Option.filter, hid, heq]
    obtain ⟨hunique', hrows, hjobs'⟩ := ih (hsecrets ▸ hunique.delete _) h
    refine ⟨hunique', ?_, ?_⟩
    · intro id
      rw [hrows id, hlookup id, List.map_cons]
      by_cases heq : id = c.id
      · simp only [heq, List.mem_cons, true_or, if_true]
        split
        · cases Table.lookup SecretRow.id c.id db.secrets with
          | none => rfl
          | some row =>
            by_cases hnone : row.reclaimEnqueuedAt.isNone <;> simp [Option.filter, hnone]
        · rfl
      · simp [heq]
    · intro key hs
      rcases hjobs' key hs with hold | ⟨c', hc', hjob⟩
      · rcases hjobs key hold with hold | hjob
        · exact Or.inl hold
        · exact Or.inr ⟨c, List.mem_cons_self, hjob⟩
      · exact Or.inr ⟨c', List.mem_cons_of_mem _ hc', hjob⟩

/-- A purged id has no row whose body may be streaming. -/
theorem mem_expiredManagement {now : Nat} {row : SecretRow}
    (h : id ∈ expiredManagement julian now limit db) (hrow : row ∈ db.secrets) (hid : row.id = id) :
    row.streaming julian now = false := by
  unfold expiredManagement at h
  obtain ⟨m, hm, hmid⟩ := List.mem_map.mp h
  have hsorted := List.mem_of_mem_take hm
  rw [List.mem_mergeSort, List.mem_filter] at hsorted
  by_contra hstreaming
  rw [Bool.not_eq_false] at hstreaming
  have hnone := hsorted.2
  rw [Bool.and_eq_true, Bool.not_eq_true', List.any_eq_false] at hnone
  exact hnone.2 row hrow (by simp [hid, hmid, hstreaming])

/-- The purge acts on one row: it stays, or it goes because its secret ended and no body
streams. -/
theorem purge_rowStep {now : Nat} (hunique : Table.UniqueKey SecretRow.id db.secrets)
    (hnow : now ≤ after) (id : String) :
    RowStep julian clock after (Table.lookup SecretRow.id id db.secrets) .silent
      (Table.lookup SecretRow.id id (purgeManagementTx julian now limit db).secrets) := by
  have hsecrets : (purgeManagementTx julian now limit db).secrets =
      Table.delete (fun row => row.consumedAt.isSome &&
        decide (row.id ∈ expiredManagement julian now limit db)) db.secrets := rfl
  rw [hsecrets, Table.lookup_delete hunique]
  cases hfound : Table.lookup SecretRow.id id db.secrets with
  | none => exact RowStep.kept none
  | some row =>
    by_cases hpurged : row.consumedAt.isSome ∧ row.id ∈ expiredManagement julian now limit db
    · have hquiet := mem_expiredManagement hpurged.2 (Table.lookup_mem hfound) rfl
      simpa [Option.filter, hpurged.1, hpurged.2] using
        RowStep.purged row now hpurged.1 hquiet hnow
    · rw [Option.filter, if_pos]
      · exact RowStep.kept (some row)
      · by_contra hcontra
        simp only [Bool.not_eq_true, Bool.not_eq_false', Bool.and_eq_true,
          decide_eq_true_eq] at hcontra
        exact hpurged hcontra

/-- The claim and the loop over it: the rows of the batch were dead and are gone, the
others are as they were. -/
theorem claimed_rows (hunique : Table.UniqueKey SecretRow.id db.secrets)
    (h : reclaimRows cfg now draws 0
      (claimReclaimable cfg.pendingTTL (now 0) batchSize db.secrets).1
      { db with secrets := (claimReclaimable cfg.pendingTTL (now 0) batchSize db.secrets).2 } =
        .ok db') (id : String) :
    if id ∈ (claimReclaimable cfg.pendingTTL (now 0) batchSize db.secrets).1.map SecretRow.id then
      (∃ row, Table.lookup SecretRow.id id db.secrets = some row ∧ row.consumedAt = none) ∧
        Table.lookup SecretRow.id id db'.secrets = none
    else Table.lookup SecretRow.id id db'.secrets = Table.lookup SecretRow.id id db.secrets := by
  have hid : ∀ row, (SecretRow.claim (now 0) row).id = row.id := fun _ => rfl
  obtain ⟨-, hrows, -⟩ := reclaimRows_ok (hunique.update hid) h
  have hclaimed : Table.lookup SecretRow.id id
      (claimReclaimable cfg.pendingTTL (now 0) batchSize db.secrets).2 =
      (Table.lookup SecretRow.id id db.secrets).map fun row =>
        if row.id ∈ (claimReclaimable cfg.pendingTTL
          (now 0) batchSize db.secrets).1.map SecretRow.id
        then SecretRow.claim (now 0) row else row := by
    rw [claimReclaimable, Table.lookup_update hid]
    simp
  split
  · rename_i hmem
    obtain ⟨row, hrow, hrowID⟩ := List.mem_map.mp hmem
    obtain ⟨hthere, hdead⟩ := mem_claimReclaimable hrow
    have hfound : Table.lookup SecretRow.id id db.secrets = some row := by
      rw [← hrowID]
      exact Table.lookup_of_mem hunique hthere
    simp only [SecretRow.reclaimable, Bool.and_eq_true, Option.isNone_iff_eq_none] at hdead
    refine ⟨⟨row, hfound, hdead.1.2⟩, ?_⟩
    rw [hrows id, if_pos hmem, hclaimed, hfound, Option.map_some, hrowID, if_pos hmem]
    rfl
  · rename_i hmem
    rw [hrows id, if_neg hmem, hclaimed]
    cases hfound : Table.lookup SecretRow.id id db.secrets with
    | none => rfl
    | some row => rw [Option.map_some, Table.lookup_key hfound, if_neg hmem]

/-- The parts of a tick that committed. -/
theorem claimExpired_cases
    (h : claimExpired cfg julian batchSize now draws purgeRequests db = .ok (db', batch)) :
    batch = (claimReclaimable cfg.pendingTTL (now 0) batchSize db.secrets).1 ∧
    ∃ reclaimed outbox, reclaimRows cfg now draws 0 batch
        { db with secrets := (claimReclaimable cfg.pendingTTL (now 0) batchSize db.secrets).2 } =
          .ok reclaimed ∧
      purgeRequests (purgeManagementTx julian (now 0) batchSize reclaimed).outbox = .ok outbox ∧
      db' = { purgeManagementTx julian (now 0) batchSize reclaimed with outbox := outbox } := by
  unfold claimExpired at h
  dsimp only at h
  split at h
  · cases h
  rename_i reclaimed hreclaim
  split at h
  · cases h
  rename_i outbox hpurge
  cases h
  exact ⟨rfl, reclaimed, outbox, hreclaim, hpurge, rfl⟩

theorem claimExpired_effect (hunique : Table.UniqueKey SecretRow.id db.secrets)
    (hnow : now 0 ≤ after)
    (hforeign : ∀ rows rows', purgeRequests rows = .ok rows' →
      Foreign cfg.codec .secrets rows rows')
    (h : claimExpired cfg julian batchSize now draws purgeRequests db = .ok (db', batch)) :
    Effect cfg julian clock after db
      (fun id => if id ∈ batch.map SecretRow.id then .terminal .reclaimed else .silent) db' := by
  obtain ⟨rfl, reclaimed, outbox, hreclaim, hpurge, rfl⟩ := claimExpired_cases h
  have hid : ∀ row, (SecretRow.claim (now 0) row).id = row.id := fun _ => rfl
  obtain ⟨hunique', -, hjobs⟩ := reclaimRows_ok (hunique.update hid) hreclaim
  refine ⟨?_, hunique'.delete _, ?_⟩
  · intro id
    have hclaimed := claimed_rows hunique hreclaim id
    have hpurged : RowStep julian clock after (Table.lookup SecretRow.id id reclaimed.secrets)
        .silent (Table.lookup SecretRow.id id
          (purgeManagementTx julian (now 0) batchSize reclaimed).secrets) :=
      purge_rowStep hunique' hnow id
    split at hclaimed
    · rename_i hmem
      obtain ⟨⟨row, hfound, hunconsumed⟩, hgone⟩ := hclaimed
      rw [hgone] at hpurged
      have hnone : Table.lookup SecretRow.id id
          (purgeManagementTx julian (now 0) batchSize reclaimed).secrets = none :=
        hpurged.of_none
      rw [if_pos hmem, hfound, hnone]
      exact RowStep.reclaimed row hunconsumed
    · rename_i hmem
      rw [if_neg hmem, ← hclaimed]
      exact hpurged
  · intro key howns hs
    rcases hjobs key (hforeign _ _ hpurge key howns hs) with hold | ⟨c, hc, hbackend, hkey⟩
    · exact Or.inl hold
    · obtain ⟨hthere, -⟩ := mem_claimReclaimable hc
      refine Or.inr ⟨c.id, c, Table.lookup_of_mem hunique hthere, hbackend, hkey, ?_⟩
      exact Or.inr (Or.inr (if_pos (List.mem_map_of_mem hc)))

end

end Secrets
end FlickDrop
