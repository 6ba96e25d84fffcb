import FlickDrop.Foundations.Runs
import FlickDrop.Worker.ReceiptRefinement

/-!
# The receipt state machine over whole runs

Any number of workers share the database and a clock that never goes back.  A step is
one call of `Start`, `MarkSucceeded` or `MarkFailed`, atomic as its transaction is, or
a call that dies before its commit.  What the store guarantees about one job holds in
every state such a run can reach.
-/

namespace FlickDrop
namespace Worker

open Foundations

structure Machine where
  clock : Nat
  db : DB

/-- One call as its caller sees it. -/
inductive Call where
  | start (jobID kind payloadJSON : String) (answer : Except Err StartResult)
  | markSucceeded (attemptID : Nat) (answer : Except Err Bool)
  | markFailed (attemptID : Nat) (jobErr : Option String) (payloadJSON : String)
      (answer : Except Err Bool)
  | crash

inductive Machine.Step (maxFailures : Nat) : Machine → Call → Machine → Prop
  | start {m : Machine} {after : Nat} (readings : Readings m.clock after)
      (jobID kind payloadJSON : String) :
      Machine.Step maxFailures m
        (.start jobID kind payloadJSON
          (Worker.start readings.now jobID kind payloadJSON maxFailures m.db).answer)
        ⟨after, (Worker.start readings.now jobID kind payloadJSON maxFailures m.db).state m.db⟩
  | markSucceeded {m : Machine} {after : Nat} (readings : Readings m.clock after)
      (attemptID : Nat) :
      Machine.Step maxFailures m
        (.markSucceeded attemptID (Worker.markSucceeded readings.now attemptID m.db).answer)
        ⟨after, (Worker.markSucceeded readings.now attemptID m.db).state m.db⟩
  | markFailed {m : Machine} {after : Nat} (readings : Readings m.clock after) (attemptID : Nat)
      (jobErr : Option String) (payloadJSON : String) :
      Machine.Step maxFailures m
        (.markFailed attemptID jobErr payloadJSON
          (Worker.markFailed readings.now attemptID jobErr payloadJSON maxFailures m.db).answer)
        ⟨after,
          (Worker.markFailed readings.now attemptID jobErr payloadJSON maxFailures m.db).state m.db⟩
  /-- a call that ends before its commit, and the passage of time -/
  | crash {m : Machine} {after : Nat} (hclock : m.clock ≤ after) :
      Machine.Step maxFailures m .crash ⟨after, m.db⟩

/-- `MarkFailed` either refuses its arguments or is a finish with the text of the
error. -/
theorem markFailed_cases (now : Nat → Nat) (attemptID : Nat) (jobErr : Option String)
    (payloadJSON : String) (maxFailures : Nat) (db : DB) :
    (∃ err, markFailed now attemptID jobErr payloadJSON maxFailures db = .rollback err) ∨
      ∃ text, jobErr = some text ∧
        markFailed now attemptID jobErr payloadJSON maxFailures db =
          finishAttempt now attemptID (.failed text payloadJSON maxFailures) db := by
  cases jobErr with
  | none => exact Or.inl ⟨_, rfl⟩
  | some text =>
    by_cases hblank : payloadJSON = "" ∨ maxFailures < 1
    · exact Or.inl ⟨.invalidJob, if_pos hblank⟩
    · exact Or.inr ⟨text, rfl, if_neg hblank⟩

theorem markFailed_eq_finishAttempt (now : Nat → Nat) (attemptID : Nat) (text : String)
    {payloadJSON : String} {maxFailures : Nat} (hpayload : payloadJSON ≠ "")
    (hmax : 1 ≤ maxFailures) (db : DB) :
    markFailed now attemptID (some text) payloadJSON maxFailures db =
      finishAttempt now attemptID (.failed text payloadJSON maxFailures) db := by
  refine if_neg ?_
  rintro (hempty | hlow)
  · exact hpayload hempty
  · omega

section

variable {maxFailures clock now : Nat} {m m' : Machine} {call : Call}
  {trace : List (Call × Machine)} {a attempt : Attempt} {db : DB} {jobID : String} {r : Receipt}

/-- What a step does to the views, at some instant of the step. -/
theorem Machine.Step.moved (h : StoreInv maxFailures m.clock m.db)
    (hstep : Machine.Step maxFailures m call m') :
    ∃ now, m.clock ≤ now ∧ now ≤ m'.clock ∧ Moved maxFailures now m.db m'.db := by
  cases hstep with
  | start readings jobID kind payloadJSON =>
    exact ⟨_, readings.lower 1, readings.upper 1, start_moved h _ _ _ _⟩
  | markSucceeded readings attemptID =>
    exact ⟨_, readings.lower 0, readings.upper 0, finishAttempt_moved h _ _ trivial⟩
  | markFailed readings attemptID jobErr payloadJSON =>
    refine ⟨_, readings.lower 0, readings.upper 0, ?_⟩
    rcases markFailed_cases readings.now attemptID jobErr payloadJSON maxFailures m.db with
      ⟨err, hrefused⟩ | ⟨text, -, hfinish⟩
    · rw [hrefused]
      exact .same rfl
    · rw [hfinish]
      exact finishAttempt_moved h _ _ rfl
  | crash hclock => exact ⟨_, hclock, Nat.le_refl _, .same rfl⟩

theorem Machine.Step.ids (h : AttemptIDs m.db) (hstep : Machine.Step maxFailures m call m') :
    AttemptIDs m'.db := by
  cases hstep with
  | start readings jobID kind payloadJSON => exact h.start _ _ _ _ _
  | markSucceeded readings attemptID => exact h.finishAttempt _ _ _
  | markFailed readings attemptID jobErr payloadJSON =>
    rcases markFailed_cases readings.now attemptID jobErr payloadJSON maxFailures m.db with
      ⟨err, hrefused⟩ | ⟨text, -, hfinish⟩
    · rw [hrefused]
      exact h
    · rw [hfinish]
      exact h.finishAttempt _ _ _
  | crash _ => exact h

/-- **Step lemma.**  Every call keeps the store invariant. -/
theorem Machine.Step.storeInv (hmax : 1 ≤ maxFailures) (h : StoreInv maxFailures m.clock m.db)
    (hstep : Machine.Step maxFailures m call m') : StoreInv maxFailures m'.clock m'.db := by
  obtain ⟨now, hlower, hupper, hmoved⟩ := hstep.moved h
  exact ⟨hstep.ids h.ids, fun jobID => (hmoved.jobs hlower hmax h jobID).mono hupper⟩

/-- **Run lemma.** -/
theorem storeInv_of_run (hmax : 1 ≤ maxFailures) {m₀ : Machine}
    (h : StoreInv maxFailures m₀.clock m₀.db) (hrun : Run (Machine.Step maxFailures) m₀ trace m) :
    StoreInv maxFailures m.clock m.db :=
  Run.invariant (fun m => StoreInv maxFailures m.clock m.db) h
    (fun _ _ _ hs hstep => hstep.storeInv hmax hs) hrun

/-! ### Terminal receipts -/

/-- A succeeded or dead receipt is left alone by every later move, with its attempts
and its letter. -/
theorem Moved.terminal {db' : DB} (hmoved : Moved maxFailures now db db')
    (hload : loadReceipt jobID db = some r) (hterminal : r.state = .succeeded ∨ r.state = .dead) :
    db'.view jobID = db.view jobID := by
  cases hmoved with
  | same hsame => rw [hsame]
  | job moved hstep hothers =>
    by_cases heq : jobID = moved
    · subst heq
      rcases hstep.alive hload with halive | halive <;> rcases hterminal with h | h <;>
        simp [halive] at h
    · exact hothers jobID heq

theorem view_stable (hmax : 1 ≤ maxFailures) {later : List (Call × Machine)}
    (h : StoreInv maxFailures m.clock m.db) (hrun : Run (Machine.Step maxFailures) m later m')
    (hload : loadReceipt jobID m.db = some r) (hterminal : r.state = .succeeded ∨ r.state = .dead) :
    m'.db.view jobID = m.db.view jobID := by
  refine Run.stable (fun n => StoreInv maxFailures n.clock n.db)
    (fun n => n.db.view jobID = m.db.view jobID) h
    (fun _ _ _ hs hstep => hstep.storeInv hmax hs) rfl ?_ hrun
  intro n call n' hinv hkept hstep
  obtain ⟨now, -, -, hmoved⟩ := hstep.moved hinv
  have hloadNow : loadReceipt jobID n.db = some r := by
    rw [← hload]
    exact congrArg JobView.receipt hkept
  rw [hmoved.terminal hloadNow hterminal, hkept]

/-! ### Which failures count -/

theorem Attempt.counts_iff (a : Attempt) :
    a.counts = true ↔ a.result = .failed ∧ a.error.isSome := by
  simp [Attempt.counts]

theorem not_running_of_counts (h : a.counts = true) : a.result ≠ .running := by
  rw [((a.counts_iff).mp h).1]
  simp

theorem mem_recoverInterrupted_of_counts (h : a.counts = true) (jobID : String) (now : Nat)
    (db : DB) : a ∈ (recoverInterrupted jobID now db).attempts ↔ a ∈ db.attempts := by
  constructor
  · intro ha
    obtain ⟨old, hold, heq⟩ := List.mem_map.mp ha
    split at heq
    · -- an interrupted row carries no error
      rw [← heq] at h
      simp [Attempt.counts] at h
    · rw [← heq]
      exact hold
  · intro ha
    refine List.mem_map.mpr ⟨a, ha, if_neg ?_⟩
    simp [not_running_of_counts h]

theorem mem_claim_of_counts (h : a.counts = true) (r : Receipt) (now : Nat) (db : DB) :
    a ∈ (db.claim r now).attempts ↔ a ∈ db.attempts := by
  have hnew : a ≠ r.nextAttempt (db.lastAttemptID + 1) now := by
    rintro rfl
    exact not_running_of_counts h rfl
  simp [DB.claim, hnew]

/-- `Start` neither adds nor removes a counted failure. -/
theorem mem_start_of_counts (h : a.counts = true) (now : Nat → Nat)
    (jobID kind payloadJSON : String) (maxFailures : Nat) (db : DB) :
    a ∈ ((start now jobID kind payloadJSON maxFailures db).state db).attempts ↔
      a ∈ db.attempts := by
  have hcases := start_cases now jobID kind payloadJSON maxFailures db
  generalize start now jobID kind payloadJSON maxFailures db = outcome at hcases
  cases hcases with
  | refused err _ _ => exact Iff.rfl
  | done r _ _ => exact Iff.rfl
  | first r _ _ _ _ => exact mem_claim_of_counts h r _ _
  | retry r _ _ _ => exact mem_claim_of_counts h r _ _
  | recover r _ _ _ _ =>
    rw [Outcome.state_commit, mem_claim_of_counts h]
    exact mem_recoverInterrupted_of_counts h _ _ _
  | exhausted r base jobError _ hbase _ =>
    rcases hbase with ⟨-, rfl⟩ | ⟨-, rfl⟩
    · exact Iff.rfl
    · exact mem_recoverInterrupted_of_counts h _ _ _

/-- A finish adds exactly the row it finishes, and only if that one failed. -/
theorem mem_finish_of_counts (h : a.counts = true) (finish : Finish) (now : Nat) (db : DB) :
    a ∈ (db.finish attempt finish now).attempts ↔
      a ∈ db.attempts ∨
        finish ≠ .succeeded ∧ ∃ old ∈ db.attempts,
          old.id = attempt.id ∧ old.result = .running ∧ a = old.finish finish now := by
  constructor
  · intro ha
    obtain ⟨old, hold, heq⟩ := List.mem_map.mp ha
    split at heq
    · rename_i hguard
      simp only [Bool.and_eq_true, decide_eq_true_eq] at hguard
      refine Or.inr ⟨?_, old, hold, hguard.1, hguard.2, heq.symm⟩
      rintro rfl
      rw [← heq] at h
      simp [Attempt.counts, Attempt.finish, Finish.result] at h
    · exact Or.inl (heq ▸ hold)
  · rintro (ha | ⟨-, old, hold, hid, hrunning, rfl⟩)
    · refine List.mem_map.mpr ⟨a, ha, if_neg ?_⟩
      simp [not_running_of_counts h]
    · exact List.mem_map.mpr ⟨old, hold, by simp [hid, hrunning]⟩

/-- The attempts after a finish call: as before if it refuses, and with the one
running row finished if it commits. -/
theorem finishAttempt_attempts (now : Nat → Nat) (attemptID : Nat) (finish : Finish) (db : DB) :
    (∃ err, finishAttempt now attemptID finish db = .rollback err) ∨
      ∃ attempt ∈ db.attempts, attempt.id = attemptID ∧ attempt.result = .running ∧
        ((finishAttempt now attemptID finish db).state db).attempts =
          (db.finish attempt finish (now 0)).attempts ∧
        ∃ dead, (finishAttempt now attemptID finish db).answer = .ok dead := by
  have hcases := finishAttempt_cases now attemptID finish db
  generalize finishAttempt now attemptID finish db = outcome at hcases
  cases hcases with
  | refused err _ => exact Or.inl ⟨err, rfl⟩
  | done attempt r hattempt hrunning _ _ _ _ =>
    exact Or.inr ⟨attempt, Table.lookup_mem hattempt, Table.lookup_key hattempt, hrunning, rfl,
      false, rfl⟩
  | dead attempt r _ _ _ hattempt hrunning _ _ _ _ _ =>
    exact Or.inr ⟨attempt, Table.lookup_mem hattempt, Table.lookup_key hattempt, hrunning, rfl,
      true, rfl⟩

/-- The same for `MarkFailed`. -/
theorem markFailed_attempts (now : Nat → Nat) (attemptID : Nat) (jobErr : Option String)
    (payloadJSON : String) (maxFailures : Nat) (db : DB) :
    (∃ err, markFailed now attemptID jobErr payloadJSON maxFailures db = .rollback err) ∨
      ∃ text, jobErr = some text ∧
        ∃ attempt ∈ db.attempts, attempt.id = attemptID ∧ attempt.result = .running ∧
          ((markFailed now attemptID jobErr payloadJSON maxFailures db).state db).attempts =
            (db.finish attempt (.failed text payloadJSON maxFailures) (now 0)).attempts ∧
          ∃ dead, (markFailed now attemptID jobErr payloadJSON maxFailures db).answer =
            .ok dead := by
  rcases markFailed_cases now attemptID jobErr payloadJSON maxFailures db with
    hrefused | ⟨text, htext, hfinish⟩
  · exact Or.inl hrefused
  · rw [hfinish]
    rcases finishAttempt_attempts now attemptID (.failed text payloadJSON maxFailures) db with
      hrefused | hcommitted
    · exact Or.inl hrefused
    · exact Or.inr ⟨text, htext, hcommitted⟩

/-- A committed `MarkFailed` of attempt `id`. -/
def Call.recordsFailure (id : Nat) : Call → Prop
  | .markFailed attemptID (some _) _ (.ok _) => attemptID = id
  | _ => False

/-- The counted failures are those a committed `MarkFailed` recorded. -/
def FailuresRecorded (trace : List (Call × Machine)) (m : Machine) : Prop :=
  (∀ a ∈ m.db.attempts, a.counts = true → ∃ call ∈ labels trace, call.recordsFailure a.id) ∧
    ∀ call ∈ labels trace, ∀ id, call.recordsFailure id →
      ∃ a ∈ m.db.attempts, a.id = id ∧ a.counts = true

/-- A step that keeps the counted rows and records no failure. -/
theorem FailuresRecorded.quiet (h : FailuresRecorded trace m)
    (hcall : ∀ id, ¬ call.recordsFailure id)
    (hrows : ∀ a : Attempt, a.counts = true → (a ∈ m'.db.attempts ↔ a ∈ m.db.attempts)) :
    FailuresRecorded (trace ++ [(call, m')]) m' := by
  refine ⟨?_, ?_⟩
  · intro a ha hcounts
    obtain ⟨old, hold, hrecords⟩ := h.1 a ((hrows a hcounts).mp ha) hcounts
    exact ⟨old, by simp [hold], hrecords⟩
  · intro old hold id hrecords
    simp only [labels_append, labels_cons, labels_nil, List.mem_append, List.mem_singleton] at hold
    rcases hold with hold | rfl
    · obtain ⟨a, ha, hid, hcounts⟩ := h.2 old hold id hrecords
      exact ⟨a, (hrows a hcounts).mpr ha, hid, hcounts⟩
    · exact absurd hrecords (hcall id)

/-- The step that does record one: the row of `attempt` is finished as failed. -/
theorem FailuresRecorded.record {text payloadJSON : String} {dead : Bool}
    (h : FailuresRecorded trace m) (hmem : attempt ∈ m.db.attempts)
    (hrunning : attempt.result = .running) (hattempts : m'.db.attempts =
      (m.db.finish attempt (.failed text payloadJSON maxFailures) now).attempts) :
    FailuresRecorded
      (trace ++ [(.markFailed attempt.id (some text) payloadJSON (.ok dead), m')]) m' := by
  refine ⟨?_, ?_⟩
  · intro a ha hcounts
    rw [hattempts, mem_finish_of_counts hcounts] at ha
    rcases ha with ha | ⟨-, old, -, hold, -, rfl⟩
    · obtain ⟨call, hcall, hrecords⟩ := h.1 a ha hcounts
      exact ⟨call, by simp [hcall], hrecords⟩
    · exact ⟨.markFailed attempt.id (some text) payloadJSON (.ok dead), by simp, hold.symm⟩
  · intro call hcall id hrecords
    simp only [labels_append, labels_cons, labels_nil, List.mem_append, List.mem_singleton] at hcall
    rw [hattempts]
    rcases hcall with hcall | rfl
    · obtain ⟨a, ha, hid, hcounts⟩ := h.2 call hcall id hrecords
      exact ⟨a, (mem_finish_of_counts hcounts _ _ _).mpr (Or.inl ha), hid, hcounts⟩
    · obtain rfl : attempt.id = id := hrecords
      have hcounts : (attempt.finish (.failed text payloadJSON maxFailures) now).counts = true :=
        rfl
      exact ⟨_, (mem_finish_of_counts hcounts _ _ _).mpr
        (Or.inr ⟨by simp, attempt, hmem, rfl, hrunning, rfl⟩), rfl, hcounts⟩

/-- **Step lemma.**  Recording is the only way to a counted failure. -/
theorem FailuresRecorded.step (h : FailuresRecorded trace m)
    (hstep : Machine.Step maxFailures m call m') : FailuresRecorded (trace ++ [(call, m')]) m' := by
  cases hstep with
  | start readings jobID kind payloadJSON =>
    exact h.quiet (fun _ hrecords => hrecords)
      (fun a hcounts => mem_start_of_counts hcounts _ _ _ _ _ _)
  | crash _ => exact h.quiet (fun _ hrecords => hrecords) (fun _ _ => Iff.rfl)
  | markSucceeded readings attemptID =>
    refine h.quiet (fun _ hrecords => hrecords) fun a hcounts => ?_
    rcases finishAttempt_attempts readings.now attemptID .succeeded m.db with
      ⟨err, hrefused⟩ | ⟨attempt, -, -, -, hattempts, -⟩
    · rw [markSucceeded, hrefused]
      rfl
    · rw [markSucceeded, hattempts, mem_finish_of_counts hcounts]
      simp
  | markFailed readings attemptID jobErr payloadJSON =>
    rcases markFailed_attempts readings.now attemptID jobErr payloadJSON maxFailures m.db with
      ⟨err, hrefused⟩ | ⟨text, rfl, attempt, hmem, rfl, hrunning, hattempts, dead, hanswer⟩
    · rw [hrefused]
      refine h.quiet ?_ fun _ _ => Iff.rfl
      intro id hrecords
      cases jobErr <;> exact hrecords
    · rw [hanswer]
      exact h.record hmem hrunning hattempts

theorem failuresRecorded_of_run (hrun : Run (Machine.Step maxFailures) ⟨clock, DB.empty⟩ trace m) :
    FailuresRecorded trace m := by
  refine Run.history_invariant FailuresRecorded ?_ (fun _ _ _ _ _ hpast hstep => hpast.step hstep)
    hrun
  exact ⟨by simp [DB.empty], by simp⟩

/-- With unique ids the record decides for each row. -/
theorem FailuresRecorded.counts_iff (h : FailuresRecorded trace m) (hids : AttemptIDs m.db)
    (ha : a ∈ m.db.attempts) :
    a.counts = true ↔ ∃ call ∈ labels trace, call.recordsFailure a.id := by
  refine ⟨h.1 a ha, ?_⟩
  rintro ⟨call, hcall, hrecords⟩
  obtain ⟨other, hother, hid, hcounts⟩ := h.2 call hcall a.id hrecords
  have hfound := Table.lookup_of_mem hids.unique hother
  rw [hid, Table.lookup_of_mem hids.unique ha] at hfound
  rw [Option.some.inj hfound]
  exact hcounts

/-! ### Late finishes -/

/-- An attempt that is finished, or no longer the receipt's current one, cannot be
finished. -/
theorem finishAttempt_stale (h : StoreInv maxFailures clock db) (ha : a ∈ db.attempts)
    (hlate : a.result ≠ .running ∨ ∃ r, loadReceipt a.jobID db = some r ∧ a.attempt ≠ r.attempts)
    (now : Nat → Nat) (finish : Finish) :
    finishAttempt now a.id finish db = .rollback .staleAttempt := by
  have hattempt : loadAttempt a.id db = some a := Table.lookup_of_mem h.ids.unique ha
  unfold finishAttempt
  rw [hattempt]
  dsimp only
  by_cases hrunning : a.result = .running
  · rw [if_neg (not_not_intro hrunning)]
    rcases hlate with hfinished | ⟨r, hload, hnumber⟩
    · exact absurd hrunning hfinished
    · rw [hload]
      exact if_pos (Or.inr (Ne.symm hnumber))
  · exact if_pos hrunning

end

/-- **The receipt state machine.**  In every state any interleaving of the workers can
reach: attempts are numbered without gaps, a job is being processed exactly while its
last attempt and no other is running, leases do not overlap, terminal receipts stay as
they are, a job is dead exactly when its failure budget is spent and then has a dead
letter, only a committed `MarkFailed` spends the budget, and a late finish is refused
and changes nothing. -/
theorem receipt_state_machine {maxFailures clock : Nat} (hmax : 1 ≤ maxFailures)
    {trace : List (Call × Machine)} {m : Machine}
    (hrun : Run (Machine.Step maxFailures) ⟨clock, DB.empty⟩ trace m) (jobID : String) :
    (loadReceipt jobID m.db = none → (m.db.view jobID).attempts = []) ∧
    (∀ r, loadReceipt jobID m.db = some r →
      (m.db.view jobID).attempts.map (·.attempt) = List.range' 1 r.attempts ∧
      (r.state = .processing ↔ ∃ front last, (m.db.view jobID).attempts = front ++ [last] ∧
        last.result = .running ∧ ∀ a ∈ front, a.result ≠ .running) ∧
      (r.state = .dead ↔ maxFailures ≤ counted (m.db.view jobID).attempts) ∧
      (r.state = .dead → ∃ letter, loadDeadLetter jobID m.db = some letter) ∧
      (r.state = .succeeded ∨ r.state = .dead → ∀ later m',
        Run (Machine.Step maxFailures) m later m' → m'.db.view jobID = m.db.view jobID)) ∧
    (m.db.view jobID).attempts.Pairwise (fun a b => a.leaseEnd ≤ b.startedAt) ∧
    (∀ a ∈ (m.db.view jobID).attempts,
      (a.counts = true ↔ ∃ call ∈ labels trace, call.recordsFailure a.id) ∧
      (a.result ≠ .running ∨ (∃ r, loadReceipt jobID m.db = some r ∧ a.attempt ≠ r.attempts) →
        ∀ now, markSucceeded now a.id m.db = .rollback .staleAttempt ∧
          ∀ text payloadJSON, payloadJSON ≠ "" →
            markFailed now a.id (some text) payloadJSON maxFailures m.db =
              .rollback .staleAttempt)) := by
  have hinv := storeInv_of_run hmax (StoreInv.empty maxFailures clock) hrun
  have hjob := hinv.jobs jobID
  have hrecorded := failuresRecorded_of_run hrun
  refine ⟨fun hload => (hjob.absent hload).1, ?_, hjob.leases, ?_⟩
  · intro r hload
    refine ⟨hjob.numbered r hload, ⟨?_, ?_⟩, hjob.budget r hload, ?_, ?_⟩
    · intro hstate
      obtain ⟨front, last, hattempts, hlast, -, hfront⟩ := hjob.running r hload hstate
      exact ⟨front, last, hattempts, hlast, hfront⟩
    · rintro ⟨front, last, hattempts, hlast, -⟩
      by_contra hstate
      refine hjob.idle r hload hstate last ?_ hlast
      rw [hattempts]
      simp
    · intro hdead
      exact Option.isSome_iff_exists.mp (hjob.buried r hload hdead)
    · intro hterminal later m' hlater
      exact view_stable hmax hinv hlater hload hterminal
  · intro a ha
    obtain ⟨hmem, hid⟩ := List.mem_filter.mp ha
    have hid : a.jobID = jobID := of_decide_eq_true hid
    refine ⟨hrecorded.counts_iff hinv.ids hmem, ?_⟩
    intro hlate now
    rw [← hid] at hlate
    refine ⟨finishAttempt_stale hinv hmem hlate now _, ?_⟩
    intro text payloadJSON hpayload
    rw [markFailed_eq_finishAttempt now a.id text hpayload hmax]
    exact finishAttempt_stale hinv hmem hlate now _

/-- A job whose only failure spends a budget of one: the run exists, and its dead
receipt has its letter. -/
theorem receipt_state_machine_dead_job :
    ∃ trace m, Run (Machine.Step 1) ⟨0, DB.empty⟩ trace m ∧
      ∃ letter, loadDeadLetter "job" m.db = some letter := by
  have hrun : Run (Machine.Step 1) ⟨0, DB.empty⟩ _ _ :=
    (Run.nil.snoc (.start (Readings.still 0) "job" "delete" "payload")).snoc
      (.markFailed (Readings.still 0) 1 (some "unreachable") "payload")
  have hspec := (receipt_state_machine (Nat.le_refl 1) hrun "job").2.1
  exact ⟨_, _, hrun, (hspec _ rfl).2.2.2.1 rfl⟩

/-! ### The budget is spent exactly -/

section

variable {maxFailures clock now : Nat} {v v' : JobView} {r : Receipt} {attempts : List Attempt}
  {letter : Option DeadLetter}

/-- Only the last attempt runs, so a finish records one failure at most. -/
theorem JobInv.counted_finish (h : JobInv maxFailures clock ⟨some r, attempts, letter⟩)
    (hstate : r.state = .processing) (finish : Finish) (now : Nat) :
    counted (finishRunning finish now attempts) ≤ counted attempts + 1 := by
  obtain ⟨front, last, hattempts, -, -, hfront⟩ := h.running r rfl hstate
  obtain rfl : attempts = front ++ [last] := hattempts
  have hsame : finishRunning finish now front = front :=
    (List.map_congr_left fun a ha => if_neg (hfront a ha)).trans (List.map_id' front)
  have hone : counted (finishRunning finish now [last]) ≤ 1 := List.length_filter_le _ _
  rw [finishRunning, List.map_append]
  simp only [finishRunning] at hsame hone
  rw [counted_append, counted_append, hsame]
  omega

theorem JobInv.counted_le (h : JobInv maxFailures clock v) (hle : counted v.attempts ≤ maxFailures)
    (hstep : JobStep maxFailures now v v') : counted v'.attempts ≤ maxFailures := by
  cases hstep with
  | first => simp
  | retry r attempts letter id hstate hbudget => simpa using hbudget.le
  | recover r attempts letter id hstate hlapsed hbudget => simpa using hbudget.le
  | exhausted r attempts attempts' old jobError letter hkept hbudget =>
    rcases hkept with ⟨-, rfl⟩ | ⟨-, rfl⟩
    · exact hle
    · exact (counted_map_interrupt now attempts).trans_le hle
  | finish r attempts letter finish hstate hbudget =>
    rcases hbudget with rfl | hbudget
    · exact (counted_finishRunning_succeeded now attempts).trans_le hle
    · exact hbudget.le
  | finishDead r attempts old finish jobError letter hstate hfailed hbudget =>
    exact (h.counted_finish hstate finish now).trans (h.within_budget (by simp [hstate]))

end

/-- **A job dies of its last failure.**  In every run no job records more failures than the
budget, it is dead exactly when it has recorded that many, and a delivery finds no budget
spent by a live job: `Start` never writes a dead letter, only `MarkFailed` does. -/
theorem failure_budget_exact {maxFailures clock : Nat} (hmax : 1 ≤ maxFailures)
    {trace : List (Call × Machine)} {m : Machine}
    (hrun : Run (Machine.Step maxFailures) ⟨clock, DB.empty⟩ trace m) (jobID : String) :
    counted (m.db.view jobID).attempts ≤ maxFailures ∧
    (∀ r, loadReceipt jobID m.db = some r →
      (r.state = .dead ↔ counted (m.db.view jobID).attempts = maxFailures)) ∧
    ∀ now kind payloadJSON,
      ((start now jobID kind payloadJSON maxFailures m.db).state m.db).deadLetters =
      m.db.deadLetters := by
  have hinv := storeInv_of_run hmax (StoreInv.empty maxFailures clock) hrun
  have hle : ∀ jobID, counted (m.db.view jobID).attempts ≤ maxFailures := by
    refine Run.stable (fun m => StoreInv maxFailures m.clock m.db)
      (fun m => ∀ jobID, counted (m.db.view jobID).attempts ≤ maxFailures)
      (StoreInv.empty maxFailures clock) (fun _ _ _ hs hstep => hstep.storeInv hmax hs)
      (fun _ => Nat.zero_le _) ?_ hrun
    intro m call m' hs hle hstep jobID
    obtain ⟨now, -, -, hmoved⟩ := hstep.moved hs
    cases hmoved with
    | same hsame => exact hsame ▸ hle jobID
    | job moved hstep hothers =>
      by_cases heq : jobID = moved
      · exact heq ▸ (hs.jobs moved).counted_le (hle moved) hstep
      · exact hothers jobID heq ▸ hle jobID
  refine ⟨hle jobID, fun r hload => ?_, fun now kind payloadJSON => ?_⟩
  · rw [(hinv.jobs jobID).budget r hload]
    exact ⟨(hle jobID).antisymm, fun h => h.ge⟩
  · have hcases := start_cases now jobID kind payloadJSON maxFailures m.db
    generalize start now jobID kind payloadJSON maxFailures m.db = outcome at hcases
    cases hcases with
    | refused | done | first | retry | recover => rfl
    | exhausted r base jobError hload hbase hbudget =>
      -- a live receipt has budget left, and a recovery does not spend it
      exfalso
      have hjob := view_present hload ▸ hinv.jobs jobID
      rw [failureCount_eq_counted] at hbudget
      rcases hbase with ⟨hstate, rfl⟩ | ⟨hstate, rfl⟩
      · exact absurd hbudget (hjob.within_budget (by simp [hstate])).not_ge
      · rw [view_recover_self, counted_map_interrupt] at hbudget
        exact absurd hbudget (hjob.within_budget (by simp [hstate])).not_ge

/-- The job of the last run is dead of its first failure. -/
theorem failure_budget_exact_dead_job :
    ∃ trace m, Run (Machine.Step 1) ⟨0, DB.empty⟩ trace m ∧
      counted (m.db.view "job").attempts = 1 := by
  have hrun : Run (Machine.Step 1) ⟨0, DB.empty⟩ _ _ :=
    (Run.nil.snoc (.start (Readings.still 0) "job" "delete" "payload")).snoc
      (.markFailed (Readings.still 0) 1 (some "unreachable") "payload")
  exact ⟨_, _, hrun, ((failure_budget_exact (Nat.le_refl 1) hrun "job").2.1 _ rfl).mp rfl⟩

end Worker
end FlickDrop
