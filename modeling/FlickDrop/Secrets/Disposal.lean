import FlickDrop.Secrets.Lockout
import FlickDrop.Secrets.Spares

/-!
# What becomes of the body of a secret

An inline body is a row of the payload table.  A secret that is locked, cancelled or reclaimed
loses it in the commit that ends it, and so does a consumed one whose row is purged.  An open
leaves it to the worker's `Cleanup`.
-/

namespace FlickDrop
namespace Secrets

open Foundations Events

/-- A row that may have a payload: its body is inline and it was not locked. -/
def SecretRow.Holds (row : SecretRow) : Prop :=
  row.storageBackend ≠ .s3Object ∧ row.failedAccessCount < maxFailedAccessAttempts

/-- Every payload is held by the row of its secret. -/
def DB.Owned (db : DB) : Prop :=
  ∀ p ∈ db.payloads, ∃ row ∈ db.secrets, row.id = p.secretID ∧ row.Holds

section

variable {cfg : Config} {julian : JulianDay} {now : Nat → Nat} {draws : Draws} {id token : String}
  {row : SecretRow} {db db' : DB} {i : Nat}

theorem DB.Owned.same (h : db.Owned) (hsecrets : db'.secrets = db.secrets)
    (hpayloads : db'.payloads ⊆ db.payloads) : db'.Owned := by
  intro p hp
  rw [hsecrets]
  exact h p (hpayloads hp)

theorem DB.Owned.update (h : db.Owned) {cond : SecretRow → Bool} {change : SecretRow → SecretRow}
    (hsecrets : db'.secrets = Table.update cond change db.secrets)
    (hpayloads : db'.payloads ⊆ db.payloads) (hid : ∀ row, (change row).id = row.id)
    (hholds : ∀ row ∈ db.secrets, cond row = true → row.Holds →
      ∀ p ∈ db'.payloads, p.secretID = row.id → (change row).Holds) : db'.Owned := by
  intro p hp
  obtain ⟨row, hrow, howner, hrowHolds⟩ := h p (hpayloads hp)
  refine ⟨if cond row then change row else row, ?_, ?_⟩
  · rw [hsecrets]
    exact List.mem_map_of_mem hrow
  · split
    · rename_i hcond
      exact ⟨(hid row).trans howner, hholds row hrow hcond hrowHolds p hp howner.symm⟩
    · exact ⟨howner, hrowHolds⟩

/-- The payloads of deleted rows go with them. -/
theorem DB.Owned.delete (h : db.Owned) (cond : SecretRow → Bool) :
    (deleteSecrets cond db).Owned := by
  intro p hp
  obtain ⟨hold, hkept⟩ := List.mem_filter.mp hp
  obtain ⟨row, hrow, howner, hholds⟩ := h p hold
  refine ⟨row, List.mem_filter.mpr ⟨hrow, ?_⟩, howner, hholds⟩
  simp only [Bool.not_eq_true', List.any_eq_false, Bool.and_eq_true, decide_eq_true_eq] at hkept
  simpa using fun hcond => hkept row hrow ⟨hcond, howner⟩

theorem create_owned {instant : Nat} {raw : Bytes} {input : CreateInput} (h : db.Owned)
    (hcreate : create cfg instant id raw input db = .ok (db', token)) : db'.Owned := by
  obtain ⟨row, rfl, -, -, hmanagement⟩ := create_cases hcreate
  intro p hp
  rw [(createManagementTx_book hmanagement).2] at hp
  rw [(createManagementTx_ok hmanagement).1]
  rcases List.mem_append.mp hp with hp | hp
  · obtain ⟨row, hrow, howner⟩ := h p hp
    exact ⟨row, List.mem_append_left _ hrow, howner⟩
  · rw [List.mem_singleton.mp hp]
    exact ⟨_, List.mem_append_right _ (List.mem_singleton_self _), rfl, Backend.noConfusion,
      Nat.zero_lt_succ _⟩

/-- A lockout leaves no payload to the row it locks. -/
theorem Refused.owned (h : Refused cfg now id db db' row) (howned : db.Owned)
    (hunique : Table.UniqueKey SecretRow.id db.secrets) (hpayloads : db'.payloads ⊆ db.payloads) :
    db'.Owned := by
  refine howned.update h.secrets hpayloads (fun _ => rfl) ?_
  intro other hother hcond hholds p hp howner
  have hid : other.id = id := by
    simp only [SecretRow.unconsumed, Bool.and_eq_true, decide_eq_true_eq] at hcond
    exact hcond.1
  have hlookup := Table.lookup_of_mem hunique hother
  rw [hid, h.found] at hlookup
  obtain rfl := Option.some.inj hlookup
  refine ⟨hholds.1, Nat.lt_of_not_le fun hmany => ?_⟩
  have hpurged := h.purged hmany
  rw [Purged, if_neg hholds.1] at hpurged
  rw [hpurged] at hp
  have hkept := (List.mem_filter.mp hp).2
  simp [howner, hid] at hkept

/-- **Step lemma.** -/
theorem Step.owned {w w' : World} {label : Label} (hinv : Inv w) (h : w.db.Owned)
    (hstep : Step cfg julian w label w') : w'.db.Owned := by
  cases hstep with
  | create now id raw input hnow hfresh hcreate => exact create_owned h hcreate
  | createLarge now id raw presign input hnow hfresh hcreate =>
    obtain ⟨_, -, -, -, hmanagement⟩ := createLarge_cases hcreate
    intro p hp
    obtain ⟨row, hrow, howner⟩ := h p ((createLarge_spares hcreate).payloads hp)
    exact ⟨row, (createManagementTx_ok hmanagement).1 ▸ List.mem_append_left _ hrow, howner⟩
  | finalizeEnd pid head hat hactivate =>
    rw [finalizeActivate_ok hactivate]
    exact h.update rfl (List.Subset.refl _) (fun _ => rfl) fun _ _ _ hholds _ _ _ => hholds
  | opened pid readings draws object id accessProofHash hfree hopen =>
    rcases openAndEnqueueCleanup_commit hinv.unique hopen with ⟨_, row, -, hrow⟩ | ⟨_, herr, -⟩
    · exact h.update hrow.secrets (openAndEnqueueCleanup_spares hopen).payloads (fun _ => rfl)
        fun _ _ _ hholds _ _ _ => hholds
    · cases herr
  | refused readings draws object id accessProofHash hopen =>
    rcases openAndEnqueueCleanup_commit hinv.unique hopen with ⟨_, _, hok, -⟩ | ⟨row, -, hrow⟩
    · cases hok
    · exact hrow.owned h hinv.unique (openAndEnqueueCleanup_spares hopen).payloads
  | streamCleanup pid readings draws hat henqueue =>
    exact h.same (scheduled_enqueueObject henqueue).1 (enqueueObject_spares henqueue).payloads
  | revoke readings draws id token hrevoke =>
    obtain ⟨-, -, ⟨-, rfl⟩ | ⟨-, row, -, -, -, -, -, henqueue⟩⟩ := revoke_cases hrevoke
    · exact h
    · exact (h.delete (SecretRow.cancellable id)).same (enqueueCancellation_ok henqueue).1
        (enqueueCancellation_spares henqueue).payloads
  | cleanup id hcleanup =>
    have hpayloads := (cleanup_spares hcleanup).payloads
    rcases (cleanup_ok hcleanup).2 with hsame | htouched
    · exact h.same hsame hpayloads
    · exact h.update htouched hpayloads (fun _ => rfl) fun _ _ _ hholds _ _ _ => hholds
  | claimExpired batchSize now draws purgeRequests hclock hnow hforeign hclaim =>
    obtain ⟨-, reclaimed, outbox, hreclaim, -, rfl⟩ := claimExpired_cases hclaim
    have hclaimed : DB.Owned { w.db with
        secrets := (claimReclaimable cfg.pendingTTL (now 0) batchSize w.db.secrets).2 } :=
      h.update rfl (List.Subset.refl _) (fun _ => rfl) fun _ _ _ hholds _ _ _ => hholds
    refine (reclaimRows_keeps (fun _ _ _ _ h hrow => ?_) hclaimed hreclaim).delete _
    exact (h.delete _).same (reclaimRow_ok hrow).1 (reclaimRow_spares hrow).payloads
  | tick | put | objectGone | outbox | finalizeBegin | finalizeFail | streamEnd | streamLost
  | scanBegin | scanListed | scanReset | scanCommit | scanEnd | acknowledge => exact h

end

/-- **No ciphertext outlives its secret.**  In every state of every run a stored payload is that
of a row in the table, inline and not locked: the commits that lock, cancel, reclaim or purge
a secret leave none of it. -/
theorem payloads_owned {cfg : Config} {julian : JulianDay} {clock : Nat}
    {trace : List (Label × World)} {w : World}
    (hrun : Run (Step cfg julian) (World.start clock) trace w) :
    ∀ p ∈ w.db.payloads, ∃ row, w.row p.secretID = some row ∧ row.Holds := by
  have howned : w.db.Owned :=
    Run.stable Inv (fun w => w.db.Owned) (Inv.start clock) (fun _ _ _ hinv hstep => hstep.inv hinv)
      (fun _ hp => by cases hp) (fun _ _ _ hinv h hstep => hstep.owned hinv h) hrun
  intro p hp
  obtain ⟨row, hrow, howner, hholds⟩ := howned p hp
  exact ⟨row, howner ▸ Table.lookup_of_mem (inv_of_run hrun).unique hrow, hholds⟩

/-- A text behind a passphrase, after one wrong proof. -/
theorem payloads_owned_text :
    ∃ trace w, Run (Step guardedConfig instantDay) (World.start 1) trace w ∧ w.db.payloads ≠ [] ∧
      ∃ row, w.row "a" = some row ∧ row.Holds := by
  have hrun : Run (Step guardedConfig instantDay) (World.start 1) _ _ :=
    (Run.nil.snoc guarded_created).snoc (guarded_refused (by decide))
  exact ⟨_, _, hrun, by decide, payloads_owned hrun _ (List.mem_singleton_self _)⟩

end Secrets
end FlickDrop
