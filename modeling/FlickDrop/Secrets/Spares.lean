import FlickDrop.Secrets.Sweep

/-!
# What the transactions leave alone

No transaction of the secrets service touches the tables of reconciliation, and none but
`Create` adds a payload.
-/

namespace FlickDrop
namespace Secrets

open Foundations Events

structure Spares (db db' : DB) : Prop where
  book : db'.book = db.book
  payloads : db'.payloads ⊆ db.payloads

section

variable {cfg : Config} {julian : JulianDay} {now : Nat → Nat} {draws : Draws}
  {id key token : String} {db mid db' : DB} {instant i enqueueNow : Nat} {batch : List SecretRow}
  {raw : Bytes}

theorem Spares.refl (db : DB) : Spares db db :=
  ⟨rfl, List.Subset.refl _⟩

theorem Spares.trans (h : Spares db mid) (h' : Spares mid db') : Spares db db' :=
  ⟨h'.book.trans h.book, List.Subset.trans h'.payloads h.payloads⟩

theorem deleteSecrets_spares (cond : SecretRow → Bool) (db : DB) :
    Spares db (deleteSecrets cond db) :=
  ⟨rfl, Table.delete_subset _ _⟩

theorem enqueueObject_spares {now : Nat} {drawText enqueueText : String} {reason : Reason}
    (h : enqueueObject cfg draws i enqueueNow key reason now drawText enqueueText db = .ok db') :
    Spares db db' := by
  obtain ⟨_, _, -, rfl⟩ := enqueueObject_ok h
  exact ⟨rfl, List.Subset.refl _⟩

theorem createManagementTx_book {expires : Nat}
    (h : createManagementTx cfg id expires raw db = .ok (db', token)) :
    db'.book = db.book ∧ db'.payloads = db.payloads := by
  unfold createManagementTx at h
  split at h
  · cases h
  cases h
  exact ⟨rfl, rfl⟩

theorem createLarge_spares {presign : Option String} {input : CreateLargeInput} {upload : String}
    (h : createLarge cfg instant id raw presign input db = .ok (db', token, upload)) :
    Spares db db' := by
  obtain ⟨_, -, -, -, hmanagement⟩ := createLarge_cases h
  obtain ⟨hbook, hpayloads⟩ := createManagementTx_book hmanagement
  exact ⟨hbook, fun p hp => hpayloads ▸ hp⟩

theorem recordFailedAccessTx_spares {backend : Backend}
    (h : recordFailedAccessTx cfg draws enqueueNow id backend key instant db = .ok db') :
    Spares db db' := by
  unfold recordFailedAccessTx at h
  split at h
  · cases h
  dsimp only at h
  split at h
  · cases h
  split at h
  · unfold purgeLocked at h
    split at h
    · cases h
      exact ⟨rfl, Table.delete_subset _ _⟩
    · split at h
      · have hspares := enqueueObject_spares h
        exact ⟨hspares.book, hspares.payloads⟩
      · cases h
        exact ⟨rfl, List.Subset.refl _⟩
  · cases h
    exact ⟨rfl, List.Subset.refl _⟩

theorem consumeTx_spares (h : consumeTx instant id db = .ok db') : Spares db db' := by
  unfold consumeTx at h
  split at h
  · cases h
  cases h
  exact ⟨rfl, List.Subset.refl _⟩

theorem openTx_spares (object : Option (Bytes × Int)) (accessProofHash : String) :
    Spares db (openTx cfg now draws object id accessProofHash db).1 := by
  unfold openTx
  split
  · exact Spares.refl db
  · split
    · exact Spares.refl db
    · split
      · exact Spares.refl db
      · split
        · split
          · exact Spares.refl db
          · rename_i recorded hrecorded
            exact recordFailedAccessTx_spares hrecorded
        · split
          · exact Spares.refl db
          · split
            · exact Spares.refl db
            · split
              · exact Spares.refl db
              · rename_i consumed hconsume
                exact consumeTx_spares hconsume

theorem openAndEnqueueCleanup_spares {object : Option (Bytes × Int)} {accessProofHash : String}
    {answer : Except Err Secret}
    (h : openAndEnqueueCleanup cfg now draws object id accessProofHash db = .commit db' answer) :
    Spares db db' := by
  have hspares := @openTx_spares cfg now draws id db object accessProofHash
  rcases openAndEnqueueCleanup_cases h with
    ⟨hopen, -⟩ | ⟨_, opened, outbox, secret, hopen, -, rfl, -⟩
  · rw [hopen] at hspares
    exact hspares
  · rw [hopen] at hspares
    exact ⟨hspares.book, hspares.payloads⟩

theorem enqueueCancellation_spares {row : SecretRow}
    (h : enqueueCancellation cfg now draws row db = .ok db') : Spares db db' := by
  unfold enqueueCancellation at h
  split at h
  · cases h
    exact Spares.refl _
  · split at h
    · cases h
    exact enqueueObject_spares h

theorem revoke_spares {answer : Except Err ManagementStatus}
    (h : revoke cfg now draws id token db = .commit db' answer) : Spares db db' := by
  obtain ⟨_, -, ⟨-, rfl⟩ | ⟨-, row, _, -, -, -, -, henqueue⟩⟩ := revoke_cases h
  · exact Spares.refl _
  · have hcancelled : Spares db
        { deleteSecrets (SecretRow.cancellable id) db with
          management := recordManagementOutcomeTx id .cancelled db.management } :=
      ⟨rfl, Table.delete_subset _ _⟩
    exact hcancelled.trans (enqueueCancellation_spares henqueue)

theorem cleanup_spares {deleted : Bool} (h : cleanup instant id db = .ok (db', deleted)) :
    Spares db db' := by
  unfold cleanup at h
  split at h
  · cases h
  split at h
  · cases h
    exact ⟨rfl, Table.delete_subset _ _⟩
  · cases h
    exact Spares.refl _

theorem reclaimRow_spares {c : SecretRow} (h : reclaimRow cfg now draws i c db = .ok db') :
    Spares (deleteSecrets (fun row => decide (row.id = c.id) && row.reclaimEnqueuedAt.isSome) db)
      db' := by
  unfold reclaimRow at h
  dsimp only at h
  split at h
  · cases h
  rename_i reclaimed hreclaim
  have hreclaimed : Spares (deleteSecrets
      (fun row => decide (row.id = c.id) && row.reclaimEnqueuedAt.isSome) db) reclaimed := by
    unfold reclaimTx at hreclaim
    split at hreclaim
    · cases hreclaim
    cases hreclaim
    split <;> exact ⟨rfl, List.filter_subset _ (Table.delete_subset _ _)⟩
  split at h
  · cases h
    exact hreclaimed
  · exact hreclaimed.trans (enqueueObject_spares h)

/-- What each row of the batch keeps, the loop keeps. -/
theorem reclaimRows_keeps {P : DB → Prop}
    (hrow : ∀ i c db db', P db → reclaimRow cfg now draws i c db = .ok db' → P db') (hP : P db)
    (h : reclaimRows cfg now draws i batch db = .ok db') : P db' := by
  induction batch generalizing i db with
  | nil =>
    cases h
    exact hP
  | cons c rest ih =>
    rw [reclaimRows] at h
    split at h
    · cases h
    rename_i mid hmid
    exact ih (hrow _ _ _ _ hP hmid) h

theorem reclaimRows_spares (h : reclaimRows cfg now draws i batch db = .ok db') : Spares db db' :=
  reclaimRows_keeps (fun _ _ _ _ hold hrow =>
    (hold.trans (deleteSecrets_spares _ _)).trans (reclaimRow_spares hrow)) (Spares.refl db) h

theorem claimExpired_spares {batchSize : Nat}
    {purgeRequests : List OutboxRow → Except Unit (List OutboxRow)}
    (h : claimExpired cfg julian batchSize now draws purgeRequests db = .ok (db', batch)) :
    Spares db db' := by
  obtain ⟨-, reclaimed, outbox, hreclaim, -, rfl⟩ := claimExpired_cases h
  have hreclaimed := reclaimRows_spares hreclaim
  exact ⟨hreclaimed.book, List.Subset.trans (Table.delete_subset _ _) hreclaimed.payloads⟩

end

end Secrets
end FlickDrop
