import FlickDrop.Worker.JobLife

/-!
# The receipt store refines the life of a job

`start` and `finishAttempt` are taken apart once (`start_cases`, `finishAttempt_cases`);
then each group of statements is followed through the view of every job.  The result
is `Moved`: a call changes nothing, or it is one `JobStep` of one job and leaves the
view of every other job alone.
-/

namespace FlickDrop
namespace Worker

open Foundations

/-- What the tables hold about one job. -/
def DB.view (jobID : String) (db : DB) : JobView where
  receipt := loadReceipt jobID db
  attempts := db.attempts.filter fun a => decide (a.jobID = jobID)
  letter := loadDeadLetter jobID db

theorem failureCount_eq_counted (jobID : String) (db : DB) :
    failureCount jobID db = counted (db.view jobID).attempts := by
  simp only [failureCount, counted, DB.view, List.filter_filter]
  congr 2
  funext a
  exact Bool.and_comm _ _

/-! ### Case analysis of the two transactions -/

/-- Everything `start` can do. -/
inductive Started (now : Nat → Nat) (jobID kind payloadJSON : String) (maxFailures : Nat)
    (db : DB) : Outcome DB Err StartResult → Prop
  | refused (err : Err)
      (hinvalid : err = .invalidJob →
        (jobID = "" ∨ kind = "" ∨ payloadJSON = "" ∨ maxFailures < 1) ∨
          ∃ r, loadReceipt jobID db = some r ∧ r.kind ≠ kind)
      (hdead : err = .jobDead → ∃ r, loadReceipt jobID db = some r ∧ r.state = .dead) :
      Started now jobID kind payloadJSON maxFailures db (.rollback err)
  | done (r : Receipt) (hload : loadReceipt jobID db = some r) (hstate : r.state = .succeeded) :
      Started now jobID kind payloadJSON maxFailures db (.commit db (.ok .alreadySucceeded))
  | first (r : Receipt) (hload : loadReceipt jobID db = none) (hid : r.jobID = jobID)
      (hkind : r.kind = kind) (hnew : r.attempts = 0) :
      Started now jobID kind payloadJSON maxFailures db
        (.commit (DB.claim r (now 1) { db with receipts := db.receipts ++ [r] })
          (.ok (.claimed (r.nextAttempt (db.lastAttemptID + 1) (now 1)))))
  | retry (r : Receipt) (hload : loadReceipt jobID db = some r) (hstate : r.state = .failed)
      (hbudget : failureCount jobID db < maxFailures) :
      Started now jobID kind payloadJSON maxFailures db
        (.commit (db.claim r (now 1))
          (.ok (.claimed (r.nextAttempt (db.lastAttemptID + 1) (now 1)))))
  | recover (r : Receipt) (hload : loadReceipt jobID db = some r)
      (hstate : r.state = .processing) (hlapsed : r.updatedAt + processingLease ≤ now 1)
      (hbudget : failureCount jobID (recoverInterrupted jobID (now 1) db) < maxFailures) :
      Started now jobID kind payloadJSON maxFailures db
        (.commit ((recoverInterrupted jobID (now 1) db).claim r (now 1))
          (.ok (.claimed (r.nextAttempt (db.lastAttemptID + 1) (now 1)))))
  | exhausted (r : Receipt) (base : DB) (jobError : String)
      (hload : loadReceipt jobID db = some r)
      (hbase : (r.state = .failed ∧ base = db) ∨
        (r.state = .processing ∧ base = recoverInterrupted jobID (now 1) db))
      (hbudget : maxFailures ≤ failureCount jobID base) :
      Started now jobID kind payloadJSON maxFailures db
        (.commit (base.bury r payloadJSON jobError (now 1)) (.error .jobDead))

theorem claimAttempt_cases (r : Receipt) (now : Nat) (db : DB) :
    claimAttempt r now db = .rollback .notFound ∨
      claimAttempt r now db = .commit (db.claim r now)
        (.ok (.claimed (r.nextAttempt (db.lastAttemptID + 1) now))) := by
  unfold claimAttempt
  split
  · exact Or.inl rfl
  · exact Or.inr rfl

theorem deadLetter_cases (r : Receipt) (payloadJSON jobError : String) (now : Nat) (db : DB) :
    deadLetter r payloadJSON jobError now db = .error .notFound ∨
      deadLetter r payloadJSON jobError now db = .ok (db.bury r payloadJSON jobError now) := by
  unfold deadLetter
  split
  · exact Or.inl rfl
  · exact Or.inr rfl

theorem resume_cases (r : Receipt) (payloadJSON : String) (maxFailures : Nat) (now : Nat)
    (db : DB) :
    resume r payloadJSON maxFailures now db = .rollback .notFound ∨
      (failureCount r.jobID db < maxFailures ∧
        resume r payloadJSON maxFailures now db = .commit (db.claim r now)
          (.ok (.claimed (r.nextAttempt (db.lastAttemptID + 1) now)))) ∨
      (maxFailures ≤ failureCount r.jobID db ∧ ∃ jobError,
        resume r payloadJSON maxFailures now db =
          .commit (db.bury r payloadJSON jobError now) (.error .jobDead)) := by
  unfold resume
  split
  · rename_i hspent
    cases lastFailure r.jobID db with
    | none => exact Or.inl rfl
    | some failure =>
      rcases deadLetter_cases r payloadJSON (failure.error.getD "") now db with h | h
      · simp [h]
      · exact Or.inr (Or.inr ⟨hspent, failure.error.getD "", by simp [h]⟩)
  · rename_i hwithin
    rcases claimAttempt_cases r now db with h | h
    · exact Or.inl h
    · exact Or.inr (Or.inl ⟨by omega, h⟩)

theorem start_cases (now : Nat → Nat) (jobID kind payloadJSON : String) (maxFailures : Nat)
    (db : DB) :
    Started now jobID kind payloadJSON maxFailures db
      (start now jobID kind payloadJSON maxFailures db) := by
  unfold start
  split
  · rename_i hblank
    exact .refused _ (fun _ => Or.inl hblank) (by simp)
  · cases hload : loadReceipt jobID db with
    | none =>
      dsimp only
      rcases claimAttempt_cases _ (now 1) { db with receipts := db.receipts ++ [_] } with h | h
      · rw [h]
        exact .refused _ (by simp) (by simp)
      · rw [h]
        exact .first _ hload rfl rfl rfl
    | some r =>
      have hid : r.jobID = jobID := Table.lookup_key hload
      dsimp only
      split
      · rename_i hkind
        exact .refused _ (fun _ => Or.inr ⟨r, hload, hkind⟩) (by simp)
      · cases hstate : r.state with
        | succeeded => exact .done r hload hstate
        | dead => exact .refused _ (by simp) (fun _ => ⟨r, hload, hstate⟩)
        | processing =>
          dsimp only
          split
          · exact .refused _ (by simp) (by simp)
          · rename_i hlapsed
            rcases resume_cases r payloadJSON maxFailures (now 1)
                (recoverInterrupted jobID (now 1) db) with h | ⟨hbudget, h⟩ |
                ⟨hbudget, jobError, h⟩
            · rw [h]
              exact .refused _ (by simp) (by simp)
            · rw [h]
              rw [hid] at hbudget
              exact .recover r hload hstate (by omega) hbudget
            · rw [h]
              rw [hid] at hbudget
              exact .exhausted r _ jobError hload (Or.inr ⟨hstate, rfl⟩) hbudget
        | failed =>
          dsimp only
          rcases resume_cases r payloadJSON maxFailures (now 1) db with h | ⟨hbudget, h⟩ |
              ⟨hbudget, jobError, h⟩
          · rw [h]
            exact .refused _ (by simp) (by simp)
          · rw [h]
            rw [hid] at hbudget
            exact .retry r hload hstate hbudget
          · rw [h]
            rw [hid] at hbudget
            exact .exhausted r db jobError hload (Or.inl ⟨hstate, rfl⟩) hbudget

/-- Everything `finishAttempt` can do. -/
inductive Finished (now : Nat → Nat) (attemptID : Nat) (finish : Finish) (db : DB) :
    Outcome DB Err Bool → Prop
  | refused (err : Err) (herr : err = .notFound ∨ err = .staleAttempt) :
      Finished now attemptID finish db (.rollback err)
  | done (attempt : Attempt) (r : Receipt) (hattempt : loadAttempt attemptID db = some attempt)
      (hrunning : attempt.result = .running) (hload : loadReceipt attempt.jobID db = some r)
      (hstate : r.state = .processing) (hnumber : r.attempts = attempt.attempt)
      (hbudget : finish = .succeeded ∨ ∃ jobErr payloadJSON maxFailures,
        finish = .failed jobErr payloadJSON maxFailures ∧
          failureCount attempt.jobID (db.finish attempt finish (now 0)) < maxFailures) :
      Finished now attemptID finish db (.commit (db.finish attempt finish (now 0)) (.ok false))
  | dead (attempt : Attempt) (r : Receipt) (jobErr payloadJSON : String) (maxFailures : Nat)
      (hattempt : loadAttempt attemptID db = some attempt)
      (hrunning : attempt.result = .running) (hload : loadReceipt attempt.jobID db = some r)
      (hstate : r.state = .processing) (hnumber : r.attempts = attempt.attempt)
      (hfailed : finish = .failed jobErr payloadJSON maxFailures)
      (hbudget : maxFailures ≤ failureCount attempt.jobID (db.finish attempt finish (now 0))) :
      Finished now attemptID finish db
        (.commit ((db.finish attempt finish (now 0)).bury { r with state := .failed }
          payloadJSON jobErr (now 0)) (.ok true))

theorem finishAttempt_cases (now : Nat → Nat) (attemptID : Nat) (finish : Finish) (db : DB) :
    Finished now attemptID finish db (finishAttempt now attemptID finish db) := by
  unfold finishAttempt
  cases hattempt : loadAttempt attemptID db with
  | none => exact .refused _ (Or.inl rfl)
  | some attempt =>
    dsimp only
    split
    · exact .refused _ (Or.inr rfl)
    · rename_i hrunning
      rw [not_not] at hrunning
      cases hload : loadReceipt attempt.jobID db with
      | none => exact .refused _ (Or.inl rfl)
      | some r =>
        dsimp only
        split
        · exact .refused _ (Or.inr rfl)
        · rename_i hmatch
          rw [not_or, not_not, not_not] at hmatch
          obtain ⟨hstate, hnumber⟩ := hmatch
          split
          · exact .refused _ (Or.inl rfl)
          · split
            · exact .refused _ (Or.inr rfl)
            · cases finish with
              | succeeded =>
                exact .done attempt r hattempt hrunning hload hstate hnumber (Or.inl rfl)
              | failed jobErr payloadJSON maxFailures =>
                dsimp only
                split
                · rename_i hbudget
                  rcases deadLetter_cases { r with state := .failed } payloadJSON jobErr
                      (now 0) (db.finish attempt (.failed jobErr payloadJSON maxFailures)
                        (now 0)) with h | h
                  · rw [h]
                    exact .refused _ (Or.inl rfl)
                  · rw [h]
                    exact .dead attempt r jobErr payloadJSON maxFailures hattempt hrunning
                      hload hstate hnumber rfl hbudget
                · rename_i hbudget
                  exact .done attempt r hattempt hrunning hload hstate hnumber
                    (Or.inr ⟨jobErr, payloadJSON, maxFailures, rfl, by omega⟩)

/-! ### What each group of statements does to the views -/

section

variable {maxFailures clock after : Nat} {db db' : DB} {r : Receipt} {jobID : String}
  {attempt : Attempt}

theorem view_claim_self (hload : loadReceipt r.jobID db = some r) (now : Nat) :
    (db.claim r now).view r.jobID =
      ⟨some (r.claim now),
        (db.view r.jobID).attempts ++ [r.nextAttempt (db.lastAttemptID + 1) now],
        (db.view r.jobID).letter⟩ := by
  have hreceipt : loadReceipt r.jobID (db.claim r now) = some (r.claim now) := by
    unfold loadReceipt at hload ⊢
    rw [DB.claim, Table.lookup_update]
    · simp [hload, Receipt.claim]
    · exact fun _ => rfl
  simp only [DB.view, hreceipt, JobView.mk.injEq, true_and]
  refine ⟨?_, rfl⟩
  rw [DB.claim, List.filter_append]
  simp [Receipt.nextAttempt]

theorem view_claim_other (hne : jobID ≠ r.jobID) (now : Nat) :
    (db.claim r now).view jobID = db.view jobID := by
  have hreceipt : loadReceipt jobID (db.claim r now) = loadReceipt jobID db := by
    refine Table.lookup_update_other ?_ ?_ hne db.receipts
    · exact fun _ => rfl
    · simp
  simp only [DB.view, hreceipt, JobView.mk.injEq, true_and]
  refine ⟨?_, rfl⟩
  rw [DB.claim, List.filter_append]
  simp [Receipt.nextAttempt, Ne.symm hne]

theorem view_recover_self (jobID : String) (now : Nat) (db : DB) :
    (recoverInterrupted jobID now db).view jobID =
      ⟨loadReceipt jobID db, (db.view jobID).attempts.map (Attempt.interrupt now),
        loadDeadLetter jobID db⟩ := by
  simp only [DB.view, recoverInterrupted, loadReceipt, loadDeadLetter, JobView.mk.injEq, true_and,
    and_true]
  rw [Table.filter_update]
  · apply List.map_congr_left
    intro a ha
    have hid : a.jobID = jobID := by simpa using (List.mem_filter.mp ha).2
    simp [hid, Attempt.interrupt]
  · exact fun _ => rfl

theorem view_recover_other {other : String} (hne : other ≠ jobID) (now : Nat) (db : DB) :
    (recoverInterrupted jobID now db).view other = db.view other := by
  simp only [DB.view, recoverInterrupted, loadReceipt, loadDeadLetter, JobView.mk.injEq, true_and,
    and_true]
  rw [Table.filter_update]
  · apply Table.update_of_none
    intro a ha
    have hid : a.jobID = other := by simpa using (List.mem_filter.mp ha).2
    simp [hid, hne]
  · exact fun _ => rfl

theorem lookup_upsert_self (letter : DeadLetter) (letters : List DeadLetter) :
    (Table.lookup DeadLetter.jobID letter.jobID (upsertDeadLetter letter letters)) =
      some letter := by
  unfold upsertDeadLetter
  split
  · rename_i hpresent
    obtain ⟨old, hold⟩ := Option.isSome_iff_exists.mp hpresent
    have hfound := Table.lookup_key hold
    clear hpresent
    -- the update rewrites the key column only with the value it already has
    induction letters with
    | nil => simp at hold
    | cons head rest ih =>
      rw [Table.lookup_cons] at hold
      rw [Table.update, List.map_cons, Table.lookup_cons]
      by_cases h : head.jobID = letter.jobID
      · simp [h]
      · rw [if_neg h] at hold
        simp only [h, decide_false, Bool.false_eq_true, if_false]
        exact ih hold
  · rename_i habsent
    rw [Table.lookup_append]
    simp only [Bool.not_eq_true, Option.isSome_eq_false_iff, Option.isNone_iff_eq_none] at habsent
    simp [habsent]

theorem lookup_upsert_other (letter : DeadLetter) (hne : jobID ≠ letter.jobID)
    (letters : List DeadLetter) :
    Table.lookup DeadLetter.jobID jobID (upsertDeadLetter letter letters) =
      Table.lookup DeadLetter.jobID jobID letters := by
  unfold upsertDeadLetter
  split
  · rename_i hpresent
    clear hpresent
    induction letters with
    | nil => rfl
    | cons head rest ih =>
      rw [Table.update, List.map_cons, Table.lookup_cons, Table.lookup_cons]
      by_cases h : head.jobID = letter.jobID
      · simp only [h, decide_true, if_true, Ne.symm hne, if_false]
        exact ih
      · simp only [h, decide_false, Bool.false_eq_true, if_false]
        split
        · rfl
        · exact ih
  · rw [Table.lookup_append]
    simp [Ne.symm hne]

theorem view_bury_self {found : Receipt} (hload : loadReceipt r.jobID db = some found)
    (hstate : found.state = r.state) (hattempts : found.attempts = r.attempts)
    (payloadJSON jobError : String) (now : Nat) :
    (db.bury r payloadJSON jobError now).view r.jobID =
      ⟨some (found.bury jobError now), (db.view r.jobID).attempts,
        some ⟨r.jobID, r.kind, payloadJSON, jobError, now⟩⟩ := by
  have hid : found.jobID = r.jobID := Table.lookup_key hload
  have hreceipt : loadReceipt r.jobID (db.bury r payloadJSON jobError now) =
      some (found.bury jobError now) := by
    unfold loadReceipt at hload ⊢
    rw [DB.bury, Table.lookup_update]
    · simp [hload, hid, hstate, hattempts]
    · exact fun _ => rfl
  have hletter : loadDeadLetter r.jobID (db.bury r payloadJSON jobError now) =
      some ⟨r.jobID, r.kind, payloadJSON, jobError, now⟩ := by
    unfold loadDeadLetter
    exact lookup_upsert_self ⟨r.jobID, r.kind, payloadJSON, jobError, now⟩ db.deadLetters
  simp only [DB.view, hreceipt, hletter]
  rfl

theorem view_bury_other (hne : jobID ≠ r.jobID) (payloadJSON jobError : String) (now : Nat) :
    (db.bury r payloadJSON jobError now).view jobID = db.view jobID := by
  have hreceipt : loadReceipt jobID (db.bury r payloadJSON jobError now) =
      loadReceipt jobID db := by
    refine Table.lookup_update_other ?_ ?_ hne db.receipts
    · exact fun _ => rfl
    · intro row hguard
      simp only [Bool.and_eq_true, decide_eq_true_eq] at hguard
      exact hguard.1
  have hletter : loadDeadLetter jobID (db.bury r payloadJSON jobError now) =
      loadDeadLetter jobID db := by
    unfold loadDeadLetter
    exact lookup_upsert_other ⟨r.jobID, r.kind, payloadJSON, jobError, now⟩ hne db.deadLetters
  simp only [DB.view, hreceipt, hletter]
  rfl

/-- In a job that is being processed, the running attempts are one row. -/
theorem JobInv.running_unique {v : JobView} (h : JobInv maxFailures clock v)
    (hreceipt : v.receipt = some r) (hstate : r.state = .processing) {a b : Attempt}
    (ha : a ∈ v.attempts) (hb : b ∈ v.attempts) (harun : a.result = .running)
    (hbrun : b.result = .running) : a = b := by
  obtain ⟨front, last, hattempts, -, -, hfront⟩ := h.running r hreceipt hstate
  have hlast : ∀ c ∈ v.attempts, c.result = .running → c = last := by
    intro c hc hcrun
    rw [hattempts, List.mem_append, List.mem_singleton] at hc
    rcases hc with hc | hc
    · exact absurd hcrun (hfront c hc)
    · exact hc
  rw [hlast a ha harun, hlast b hb hbrun]

theorem view_finish_self (hinv : JobInv maxFailures clock (db.view attempt.jobID))
    (hmem : attempt ∈ db.attempts) (hrunning : attempt.result = .running)
    (hload : loadReceipt attempt.jobID db = some r) (hstate : r.state = .processing)
    (hnumber : r.attempts = attempt.attempt) (finish : Finish) (now : Nat) :
    (db.finish attempt finish now).view attempt.jobID =
      ⟨some (r.finish finish now), finishRunning finish now (db.view attempt.jobID).attempts,
        (db.view attempt.jobID).letter⟩ := by
  have hid : r.jobID = attempt.jobID := Table.lookup_key hload
  have hreceipt : loadReceipt attempt.jobID (db.finish attempt finish now) =
      some (r.finish finish now) := by
    unfold loadReceipt at hload ⊢
    rw [DB.finish, Table.lookup_update]
    · simp [hload, hid, hstate, hnumber]
    · exact fun _ => rfl
  simp only [DB.view, hreceipt, JobView.mk.injEq, true_and]
  refine ⟨?_, rfl⟩
  rw [DB.finish, Table.filter_update]
  · apply List.map_congr_left
    intro a ha
    -- the statement selects by id, the view by being the running attempt
    have hattempt : attempt ∈ (db.view attempt.jobID).attempts :=
      List.mem_filter.mpr ⟨hmem, by simp⟩
    by_cases harun : a.result = .running
    · have hsame : a = attempt :=
        hinv.running_unique hload hstate ha hattempt harun hrunning
      simp [hsame, hrunning]
    · simp [harun]
  · exact fun _ => rfl

theorem view_finish_other (hunique : Table.UniqueKey Attempt.id db.attempts)
    (hmem : attempt ∈ db.attempts) (hne : jobID ≠ attempt.jobID) (finish : Finish) (now : Nat) :
    (db.finish attempt finish now).view jobID = db.view jobID := by
  have hreceipt : loadReceipt jobID (db.finish attempt finish now) = loadReceipt jobID db := by
    refine Table.lookup_update_other ?_ ?_ hne db.receipts
    · exact fun _ => rfl
    · intro row hguard
      simp only [Bool.and_eq_true, decide_eq_true_eq] at hguard
      exact hguard.1
  simp only [DB.view, hreceipt, JobView.mk.injEq, true_and]
  refine ⟨?_, rfl⟩
  rw [DB.finish, Table.filter_update]
  · apply Table.update_of_none
    intro a ha
    obtain ⟨ha, hjob⟩ := List.mem_filter.mp ha
    have hid : a.id ≠ attempt.id := by
      intro heq
      have hsame : a = attempt := by
        have hfound := Table.lookup_of_mem hunique ha
        rw [heq, Table.lookup_of_mem hunique hmem] at hfound
        exact (Option.some.inj hfound).symm
      rw [hsame] at hjob
      exact hne (of_decide_eq_true hjob).symm
    simp [hid]
  · exact fun _ => rfl

/-! ### The store invariant and the refinement -/

/-- Attempt ids are the values the counter has given out. -/
structure AttemptIDs (db : DB) : Prop where
  unique : Table.UniqueKey Attempt.id db.attempts
  below : ∀ a ∈ db.attempts, a.id ≤ db.lastAttemptID

theorem AttemptIDs.claim (h : AttemptIDs db) (r : Receipt) (now : Nat) :
    AttemptIDs (db.claim r now) := by
  refine ⟨?_, ?_⟩
  · apply h.unique.append
    intro old hold
    have hle := h.below old hold
    show old.id ≠ db.lastAttemptID + 1
    omega
  · intro a ha
    rcases List.mem_append.mp ha with ha | ha
    · exact Nat.le_succ_of_le (h.below a ha)
    · rw [List.mem_singleton] at ha
      rw [ha]
      exact Nat.le_refl _

/-- Rewriting rows in place keeps the ids. -/
theorem AttemptIDs.rewrite (h : AttemptIDs db) {cond : Attempt → Bool} {change : Attempt → Attempt}
    (hattempts : db'.attempts = Table.update cond change db.attempts)
    (hid : ∀ a, (change a).id = a.id) (hlast : db'.lastAttemptID = db.lastAttemptID) :
    AttemptIDs db' := by
  refine ⟨hattempts ▸ h.unique.update hid, ?_⟩
  intro a ha
  rw [hattempts] at ha
  obtain ⟨old, hold, rfl⟩ := List.mem_map.mp ha
  have hsame : (if cond old then change old else old).id = old.id := by
    split
    · exact hid old
    · rfl
  rw [hsame, hlast]
  exact h.below old hold

theorem AttemptIDs.recover (h : AttemptIDs db) (jobID : String) (now : Nat) :
    AttemptIDs (recoverInterrupted jobID now db) :=
  h.rewrite rfl (fun _ => rfl) rfl

theorem AttemptIDs.finish (h : AttemptIDs db) (attempt : Attempt) (finish : Finish) (now : Nat) :
    AttemptIDs (db.finish attempt finish now) :=
  h.rewrite rfl (fun _ => rfl) rfl

theorem AttemptIDs.bury (h : AttemptIDs db) (r : Receipt) (payloadJSON jobError : String)
    (now : Nat) : AttemptIDs (db.bury r payloadJSON jobError now) :=
  ⟨h.unique, h.below⟩

/-- The invariant of the worker database. -/
structure StoreInv (maxFailures clock : Nat) (db : DB) : Prop where
  ids : AttemptIDs db
  jobs : ∀ jobID, JobInv maxFailures clock (db.view jobID)

/-- What one call does to the views: nothing, or one `JobStep` of one job. -/
inductive Moved (maxFailures now : Nat) (db db' : DB) : Prop
  | same (hsame : db' = db)
  | job (jobID : String) (hstep : JobStep maxFailures now (db.view jobID) (db'.view jobID))
      (hothers : ∀ other, other ≠ jobID → db'.view other = db.view other)

/-- A job no delivery has reached has an empty view. -/
theorem StoreInv.view_absent (h : StoreInv maxFailures clock db)
    (hload : loadReceipt jobID db = none) : db.view jobID = ⟨none, [], none⟩ := by
  obtain ⟨hattempts, hletter⟩ := (h.jobs jobID).absent hload
  show JobView.mk _ _ _ = _
  rw [hload]
  simp only [DB.view] at hattempts hletter
  rw [hattempts, hletter]

theorem view_present (hload : loadReceipt jobID db = some r) :
    db.view jobID = ⟨some r, (db.view jobID).attempts, (db.view jobID).letter⟩ := by
  simp only [DB.view, hload]

/-- The receipt row a first delivery inserts shows in the view of its own job only. -/
theorem view_insert_other (hne : jobID ≠ r.jobID) :
    DB.view jobID { db with receipts := db.receipts ++ [r] } = db.view jobID := by
  have hreceipt : loadReceipt jobID { db with receipts := db.receipts ++ [r] } =
      loadReceipt jobID db := by
    unfold loadReceipt
    rw [Table.lookup_append, if_neg (Ne.symm hne), Option.or_none]
  simp only [DB.view, hreceipt]
  rfl

theorem start_moved (h : StoreInv maxFailures clock db) (now : Nat → Nat)
    (jobID kind payloadJSON : String) :
    Moved maxFailures (now 1) db
      ((start now jobID kind payloadJSON maxFailures db).state db) := by
  have hcases := start_cases now jobID kind payloadJSON maxFailures db
  generalize start now jobID kind payloadJSON maxFailures db = outcome at hcases
  cases hcases with
  | refused err _ _ => exact .same rfl
  | done r _ _ => exact .same rfl
  | first r hload hid _ hnew =>
    subst hid
    have hinserted : loadReceipt r.jobID { db with receipts := db.receipts ++ [r] } = some r := by
      unfold loadReceipt at hload ⊢
      rw [Table.lookup_append, hload]
      simp
    refine .job r.jobID ?_ ?_
    · have hempty := h.view_absent hload
      rw [Outcome.state_commit, view_claim_self hinserted, hempty]
      have hattempts : (DB.view r.jobID { db with receipts := db.receipts ++ [r] }).attempts
          = [] := congrArg JobView.attempts hempty
      have hletter : (DB.view r.jobID { db with receipts := db.receipts ++ [r] }).letter
          = none := congrArg JobView.letter hempty
      rw [hattempts, hletter]
      exact JobStep.first r _ hnew
    · intro other hne
      rw [Outcome.state_commit, view_claim_other hne, view_insert_other hne]
  | retry r hload hstate hbudget =>
    obtain rfl : r.jobID = jobID := Table.lookup_key hload
    refine .job r.jobID ?_ fun other hne => view_claim_other hne _
    rw [failureCount_eq_counted] at hbudget
    rw [Outcome.state_commit, view_claim_self hload]
    rw [view_present hload] at hbudget ⊢
    exact JobStep.retry r _ _ _ hstate hbudget
  | recover r hload hstate hlapsed hbudget =>
    obtain rfl : r.jobID = jobID := Table.lookup_key hload
    have hrecovered : loadReceipt r.jobID (recoverInterrupted r.jobID (now 1) db) = some r :=
      hload
    refine .job r.jobID ?_ ?_
    · rw [failureCount_eq_counted, view_recover_self] at hbudget
      rw [Outcome.state_commit, view_claim_self hrecovered, view_recover_self]
      rw [view_present hload] at hbudget ⊢
      exact JobStep.recover r _ _ _ hstate hlapsed hbudget
    · intro other hne
      rw [Outcome.state_commit, view_claim_other hne, view_recover_other hne]
  | exhausted r base jobError hload hbase hbudget =>
    obtain rfl : r.jobID = jobID := Table.lookup_key hload
    rw [failureCount_eq_counted] at hbudget
    refine .job r.jobID ?_ ?_
    · have hbaseLoad : loadReceipt r.jobID base = some r := by
        rcases hbase with ⟨-, rfl⟩ | ⟨-, rfl⟩ <;> exact hload
      rw [Outcome.state_commit, view_bury_self hbaseLoad rfl rfl, view_present hload]
      refine JobStep.exhausted r _ _ _ jobError _ ?_ hbudget
      rcases hbase with ⟨hstate, rfl⟩ | ⟨hstate, rfl⟩
      · exact Or.inl ⟨hstate, rfl⟩
      · exact Or.inr ⟨hstate, by rw [view_recover_self]⟩
    · intro other hne
      rw [Outcome.state_commit, view_bury_other hne]
      rcases hbase with ⟨-, rfl⟩ | ⟨-, rfl⟩
      · rfl
      · exact view_recover_other hne _ _

/-- A finish with the machine's own failure budget. -/
def Finish.within (maxFailures : Nat) : Finish → Prop
  | .succeeded => True
  | .failed _ _ limit => limit = maxFailures

theorem finishAttempt_moved (h : StoreInv maxFailures clock db) (now : Nat → Nat) (attemptID : Nat)
    {finish : Finish} (hfinish : finish.within maxFailures) :
    Moved maxFailures (now 0) db ((finishAttempt now attemptID finish db).state db) := by
  have hcases := finishAttempt_cases now attemptID finish db
  generalize finishAttempt now attemptID finish db = outcome at hcases
  cases hcases with
  | refused err _ => exact .same rfl
  | done attempt r hattempt hrunning hload hstate hnumber hbudget =>
    have hmem := Table.lookup_mem hattempt
    refine .job attempt.jobID ?_ fun other hne => view_finish_other h.ids.unique hmem hne _ _
    have hview := view_finish_self (h.jobs attempt.jobID) hmem hrunning hload hstate hnumber
      finish (now 0)
    have hwithin : finish = .succeeded ∨
        counted (finishRunning finish (now 0) (db.view attempt.jobID).attempts)
          < maxFailures := by
      rcases hbudget with hsucceeded | ⟨jobErr, payloadJSON, limit, rfl, hcount⟩
      · exact Or.inl hsucceeded
      · obtain rfl : limit = maxFailures := hfinish
        rw [failureCount_eq_counted, hview] at hcount
        exact Or.inr hcount
    rw [Outcome.state_commit, hview, view_present hload]
    exact JobStep.finish r _ _ finish hstate hwithin
  | dead attempt r jobErr payloadJSON limit hattempt hrunning hload hstate hnumber hfailed
      hbudget =>
    subst hfailed
    obtain rfl : limit = maxFailures := hfinish
    have hmem := Table.lookup_mem hattempt
    have hid : r.jobID = attempt.jobID := Table.lookup_key hload
    have hview := view_finish_self (h.jobs attempt.jobID) hmem hrunning hload hstate hnumber
      (.failed jobErr payloadJSON limit) (now 0)
    rw [failureCount_eq_counted, hview] at hbudget
    refine .job attempt.jobID ?_ ?_
    · have hfinished : loadReceipt attempt.jobID
          (db.finish attempt (.failed jobErr payloadJSON limit) (now 0)) =
            some (r.finish (.failed jobErr payloadJSON limit) (now 0)) :=
        congrArg JobView.receipt hview
      rw [← hid] at hfinished hview hbudget ⊢
      have hburied := view_bury_self (r := { r with state := .failed }) hfinished rfl rfl
        payloadJSON jobErr (now 0)
      rw [Outcome.state_commit, hburied, hview]
      rw [← hid] at hload
      rw [view_present hload]
      exact JobStep.finishDead r _ _ _ jobErr _ hstate (by simp) hbudget
    · intro other hne
      rw [Outcome.state_commit, view_bury_other (by rw [hid]; exact hne)]
      exact view_finish_other h.ids.unique hmem hne _ _

/-- Both calls keep the attempt ids in order. -/
theorem AttemptIDs.start (h : AttemptIDs db) (now : Nat → Nat) (jobID kind payloadJSON : String)
    (maxFailures : Nat) :
    AttemptIDs ((Worker.start now jobID kind payloadJSON maxFailures db).state db) := by
  have hcases := start_cases now jobID kind payloadJSON maxFailures db
  generalize Worker.start now jobID kind payloadJSON maxFailures db = outcome at hcases
  cases hcases with
  | refused err _ _ => exact h
  | done r _ _ => exact h
  | first r _ _ _ _ =>
    have hinserted : AttemptIDs { db with receipts := db.receipts ++ [r] } :=
      ⟨h.unique, h.below⟩
    exact hinserted.claim r _
  | retry r _ _ _ => exact h.claim r _
  | recover r _ _ _ _ => exact (h.recover jobID _).claim r _
  | exhausted r base jobError _ hbase _ =>
    rcases hbase with ⟨-, rfl⟩ | ⟨-, rfl⟩
    · exact h.bury r _ _ _
    · exact (h.recover jobID _).bury r _ _ _

theorem AttemptIDs.finishAttempt (h : AttemptIDs db) (now : Nat → Nat) (attemptID : Nat)
    (finish : Finish) : AttemptIDs ((Worker.finishAttempt now attemptID finish db).state db) := by
  have hcases := finishAttempt_cases now attemptID finish db
  generalize Worker.finishAttempt now attemptID finish db = outcome at hcases
  cases hcases with
  | refused err _ => exact h
  | done attempt r _ _ _ _ _ _ => exact h.finish attempt finish _
  | dead attempt r _ _ _ _ _ _ _ _ _ _ => exact (h.finish attempt finish _).bury _ _ _ _

/-- A move made at `now` keeps the job invariants. -/
theorem Moved.jobs {now : Nat} (hclock : clock ≤ now) (hmax : 1 ≤ maxFailures)
    (h : StoreInv maxFailures clock db) (hmoved : Moved maxFailures now db db') (jobID : String) :
    JobInv maxFailures now (db'.view jobID) := by
  cases hmoved with
  | same hsame =>
    rw [hsame]
    exact (h.jobs jobID).mono hclock
  | job moved hstep hothers =>
    by_cases heq : jobID = moved
    · rw [heq]
      exact (h.jobs moved).step hclock hmax hstep
    · rw [hothers jobID heq]
      exact (h.jobs jobID).mono hclock

theorem StoreInv.empty (maxFailures clock : Nat) : StoreInv maxFailures clock DB.empty := by
  refine ⟨⟨List.nodup_nil, by simp [DB.empty]⟩, ?_⟩
  intro jobID
  refine ⟨fun _ => ⟨rfl, rfl⟩, ?_, ?_, ?_, ?_, List.Pairwise.nil, ?_, ?_⟩ <;>
    simp [DB.view, DB.empty, loadReceipt]

theorem StoreInv.start (h : StoreInv maxFailures clock db) (hmax : 1 ≤ maxFailures)
    (readings : Readings clock after) (jobID kind payloadJSON : String) :
    StoreInv maxFailures after
      ((Worker.start readings.now jobID kind payloadJSON maxFailures db).state db) := by
  refine ⟨h.ids.start _ _ _ _ _, fun job => ?_⟩
  have hmoved := start_moved h readings.now jobID kind payloadJSON
  exact (hmoved.jobs (readings.lower 1) hmax h job).mono (readings.upper 1)

theorem StoreInv.finishAttempt (h : StoreInv maxFailures clock db) (hmax : 1 ≤ maxFailures)
    (readings : Readings clock after) (attemptID : Nat) {finish : Finish}
    (hfinish : finish.within maxFailures) :
    StoreInv maxFailures after
      ((Worker.finishAttempt readings.now attemptID finish db).state db) := by
  refine ⟨h.ids.finishAttempt _ _ _, fun job => ?_⟩
  have hmoved := finishAttempt_moved h readings.now attemptID hfinish
  exact (hmoved.jobs (readings.lower 0) hmax h job).mono (readings.upper 0)

end

end Worker
end FlickDrop
