import FlickDrop.Events.Reconciliation
import FlickDrop.Worker.ReceiptMachine

/-!
# Processing one message

Model of `internal/worker/processor.go`, of the wired handler in
`internal/worker/cleanup.go` and of the action mapping in `internal/events/consumer.go`.
`Process` starts an attempt, runs the handler, finishes the attempt, and in its
deferred function acknowledges a finished deletion to the API; its outcome becomes an
ack, a retry or a termination of the message.

Between those parts other workers run, and the worker can die.  The parts are
functions here; their interleaving is the business of the pipeline model.
-/

namespace FlickDrop
namespace Worker

open Foundations Events

/-- An error as `errors.Is` sees it, with its text. -/
inductive Failure where
  | invalidEvent
  | invalidJob (text : String)
  | other (text : String)
  deriving DecidableEq, Repr

def Failure.text : Failure → String
  | .invalidEvent => "invalid event"
  | .invalidJob text => text
  | .other text => text

/-- The store's errors, as the processor hands them on. -/
def Err.failure : Err → Failure
  | .invalidJob => .invalidJob "invalid job"
  | .notFound => .other "job receipt not found"
  | .jobDead => .other "job is dead-lettered"
  | .jobProcessing => .other "job is already processing"
  | .staleAttempt => .other "job attempt is stale"
  | .jobErrorRequired => .other "job error is required"

/-! ### The handler -/

/-- `requiresObjectAcknowledgement`. -/
def requiresObjectAcknowledgement (key : String) : Bool :=
  Area.secrets.owns key || Area.requests.owns key

/-- `reason` as the cleanup request carries it. -/
def reasonText : Reason → String
  | .absent => ""
  | .consumed => "consumed"
  | .expired => "expired"
  | .orphan => "orphan"
  | .manual => "manual"
  | .retry => "retry"
  | .unsupported text => text

/-- What the handler meets: the answer of the internal API, and the object store if one
is configured with the answer it gives.  `none` is success. -/
structure HandlerEnv where
  api : Option String
  objects : Option (Option String)

/-- `validCleanupReason`. -/
def validCleanupReason : Reason → Bool
  | .consumed | .expired | .orphan | .manual | .retry => true
  | .absent | .unsupported _ => false

/-- `cleanupReason`. -/
def cleanupReason (e : JobEvent) : Except Failure Reason :=
  match e.kind with
  | .deleteSecret =>
    if e.reason ≠ .absent then
      if validCleanupReason e.reason then .ok e.reason
      else .error (.invalidJob "unsupported cleanup reason")
    else
      .ok .consumed
  | .deleteOCIObject => .error (.invalidJob "unsupported cleanup job kind")
  | .unsupported _ => .error (.invalidJob "unsupported cleanup job kind")

/-- `CleanupClient.CleanupSecret`; every failure of the call itself is an `other`. -/
def cleanupSecret (env : HandlerEnv) (secretID jobID : String) (reason : Reason) : Option Failure :=
  if blank secretID || blank jobID || blank (reasonText reason) then
    some (.invalidJob "cleanup request is incomplete")
  else
    env.api.map .other

/-- `CleanupHandler.handleObjectDelete`. -/
def handleObjectDelete (env : HandlerEnv) (e : JobEvent) : Option Failure :=
  if blank e.objectKey then
    some (.invalidJob "object_key is required")
  else
    match env.objects with
    | none =>
      if requiresObjectAcknowledgement e.objectKey then
        some (.other "managed object deletion requires object storage")
      else
        none
    | some answer => answer.map .other

/-- `CleanupHandler.HandleJob`. -/
def handleJob (env : HandlerEnv) (e : JobEvent) : Option Failure :=
  if e.kind = .deleteOCIObject then
    handleObjectDelete env e
  else
    match cleanupReason e with
    | .error err => some err
    | .ok reason =>
      if blank e.secretID then
        some (.invalidJob "secret_id is required")
      else if blank e.jobID then
        some (.invalidJob "job_id is required")
      else
        cleanupSecret env e.secretID e.jobID reason

/-! ### `Process` -/

structure ProcessResult where
  attempt : Nat
  started : Bool
  succeeded : Bool
  failed : Bool
  deadLettered : Bool
  alreadySucceeded : Bool
  alreadyProcessing : Bool
  alreadyDead : Bool
  deriving DecidableEq, Repr

def ProcessResult.zero : ProcessResult :=
  ⟨0, false, false, false, false, false, false, false⟩

/-- The result of a claimed attempt before its handler has run. -/
def ProcessResult.claimed (attempt : Attempt) : ProcessResult :=
  { ProcessResult.zero with attempt := attempt.attempt, started := true }

/-- How `Process` goes on after `Start`. -/
inductive AfterStart where
  | handle (attempt : Attempt)
  | finish (result : ProcessResult) (err : Option Failure)

def afterStart : Except Err StartResult → AfterStart
  | .error .jobProcessing => .finish { ProcessResult.zero with alreadyProcessing := true } none
  | .error .jobDead =>
    .finish { ProcessResult.zero with alreadyDead := true, deadLettered := true } none
  | .error err => .finish ProcessResult.zero (some err.failure)
  | .ok .alreadySucceeded =>
    .finish { ProcessResult.zero with alreadySucceeded := true, succeeded := true } none
  | .ok (.claimed attempt) => .handle attempt

/-- The end of `Process` when the handler succeeded, from the answer of
`MarkSucceeded`. -/
def afterSucceeded (attempt : Attempt) : Except Err Bool → ProcessResult × Option Failure
  | .error err => (ProcessResult.claimed attempt, some err.failure)
  | .ok _ => ({ ProcessResult.claimed attempt with succeeded := true }, none)

/-- `finishFailed`, from the answer of `MarkFailed`. -/
def afterFailed (attempt : Attempt) (jobErr : Failure) :
    Except Err Bool → ProcessResult × Option Failure
  | .error err => (ProcessResult.claimed attempt, some err.failure)
  | .ok false => ({ ProcessResult.claimed attempt with failed := true }, some jobErr)
  | .ok true =>
    ({ ProcessResult.claimed attempt with failed := true, deadLettered := true }, none)

/-- Whether the deferred function has an acknowledgement to make. -/
def acknowledges (e : JobEvent) (result : ProcessResult) (err : Option Failure) : Bool :=
  err.isNone && (result.succeeded || result.deadLettered) &&
    decide (e.kind = .deleteOCIObject) && requiresObjectAcknowledgement e.objectKey

/-- `CleanupClient.AcknowledgeObjectCleanup`; `response` is the failure of the call, if
any. -/
def acknowledgeObjectCleanup (response : Option String) (e : JobEvent) : Option Failure :=
  if e.kind ≠ .deleteOCIObject ∨ e.jobID = "" ∨ requiresObjectAcknowledgement e.objectKey = false
  then
    some (.invalidJob "invalid object cleanup acknowledgement")
  else
    response.map .other

/-! ### From the outcome to the message action -/

inductive MessageAction where
  | ack
  | retry
  | terminate
  deriving DecidableEq, Repr

/-- `ProcessMessage`; `none` is the empty action. -/
def processMessage (result : ProcessResult) (err : Option Failure) :
    Option MessageAction × Option Failure :=
  match err with
  | some (.invalidJob _) => (some .terminate, none)
  | some err => (none, some err)
  | none =>
    if result.deadLettered then (some .terminate, none)
    else if result.alreadyProcessing then (some .retry, none)
    else (some .ack, none)

/-- `resolveMessageAction`. -/
def resolveMessageAction : Option MessageAction × Option Failure → MessageAction
  | (some action, _) => action
  | (none, some .invalidEvent) => .terminate
  | (none, some _) => .retry
  | (none, none) => .ack

/-! ### The handler never refuses a valid event -/

theorem reasonText_not_blank {reason : Reason} (h : validReason reason = true) :
    blank (reasonText reason) = false := by
  cases reason with
  | absent => cases h
  | unsupported text => cases h
  | consumed => decide
  | expired => decide
  | orphan => decide
  | manual => decide
  | retry => decide

theorem cleanupReason_valid {e : JobEvent} (hkind : e.kind = .deleteSecret)
    (hreason : e.reason = .absent ∨ validReason e.reason = true) :
    ∃ reason, cleanupReason e = .ok reason ∧ validReason reason = true := by
  unfold cleanupReason
  rw [hkind]
  dsimp only
  rcases hreason with habsent | hvalid
  · exact ⟨.consumed, if_neg (not_not_intro habsent), rfl⟩
  · have hpresent : e.reason ≠ .absent := by
      intro habsent
      rw [habsent] at hvalid
      cases hvalid
    have hsame : validCleanupReason e.reason = true := hvalid
    exact ⟨e.reason, by rw [if_pos hpresent, if_pos hsame], hvalid⟩

/-- Whatever the API and the object store answer, the handler of a valid event fails
only with errors that lead to a retry. -/
theorem handleJob_valid {env : HandlerEnv} {e : JobEvent} (hvalid : e.validate = .ok ())
    {err : Failure} (h : handleJob env e = some err) : ∃ text, err = .other text := by
  have hjobID := validate_jobID hvalid
  obtain ⟨hkind | hkind, hreason⟩ := validate_kind hvalid
  · obtain ⟨hkind, hsecretID⟩ := hkind
    obtain ⟨reason, hok, hokReason⟩ := cleanupReason_valid hkind hreason
    have htext := reasonText_not_blank hokReason
    simp only [handleJob, hkind, hok, hsecretID, hjobID, cleanupSecret, htext, reduceCtorEq,
      if_false, Bool.false_eq_true, Bool.or_self] at h
    obtain ⟨text, -, rfl⟩ := Option.map_eq_some_iff.mp h
    exact ⟨text, rfl⟩
  · obtain ⟨hkind, hobjectKey⟩ := hkind
    simp only [handleJob, hkind, if_true, handleObjectDelete, hobjectKey, Bool.false_eq_true,
      if_false] at h
    split at h
    · split at h
      · exact ⟨_, (Option.some.inj h).symm⟩
      · cases h
    · obtain ⟨text, -, rfl⟩ := Option.map_eq_some_iff.mp h
      exact ⟨text, rfl⟩

/-! ### What an outcome says about the worker database -/

/-- The job is finished for good: succeeded, or dead with its letter. -/
def Terminal (db : DB) (jobID : String) : Prop :=
  ∃ r, loadReceipt jobID db = some r ∧
    (r.state = .succeeded ∨ r.state = .dead ∧ (loadDeadLetter jobID db).isSome)

/-- The outcomes `Process` can have for a valid event, and what they say. -/
inductive Verdict (db : DB) (jobID : String) (result : ProcessResult) : Option Failure → Prop
  | processing (hprocessing : result.alreadyProcessing = true)
      (hdead : result.deadLettered = false) (hsucceeded : result.succeeded = false) :
      Verdict db jobID result none
  | terminal (hdone : result.succeeded = true ∨ result.deadLettered = true)
      (hterminal : Terminal db jobID) : Verdict db jobID result none
  | failing (text : String) : Verdict db jobID result (some (.other text))

section

variable {maxFailures clock : Nat} {db db' : DB} {jobID kind payloadJSON : String} {attemptID : Nat}
  {result : ProcessResult} {P : String → String → Prop} {err : Option Failure}
  {outcome : Outcome DB Err Bool}

/-- Only a terminal verdict resolves to an ack or a termination. -/
theorem Verdict.resolved (h : Verdict db jobID result err)
    (haction : resolveMessageAction (processMessage result err) ≠ .retry) :
    err = none ∧ (result.succeeded = true ∨ result.deadLettered = true) ∧
      Terminal db jobID := by
  cases h with
  | processing hprocessing hdead _ =>
    simp [processMessage, hdead, hprocessing, resolveMessageAction] at haction
  | terminal hdone hterminal => exact ⟨rfl, hdone, hterminal⟩
  | failing text => simp [processMessage, resolveMessageAction] at haction

/-- Only a terminal verdict is acknowledged to the API. -/
theorem Verdict.terminal_of_acknowledges {e : JobEvent} (h : Verdict db jobID result err)
    (hneeded : acknowledges e result err = true) : Terminal db jobID := by
  cases h with
  | processing _ hdead hsucceeded => simp [acknowledges, hdead, hsucceeded] at hneeded
  | terminal _ hterminal => exact hterminal
  | failing text => simp [acknowledges] at hneeded

theorem Verdict.mono (hterminal : Terminal db jobID → Terminal db' jobID)
    (h : Verdict db jobID result err) : Verdict db' jobID result err := by
  cases h with
  | processing hprocessing hdead hsucceeded => exact .processing hprocessing hdead hsucceeded
  | terminal hdone hold => exact .terminal hdone (hterminal hold)
  | failing text => exact .failing text

/-- A dead receipt has its letter, so it is terminal. -/
theorem StoreInv.terminal_of_dead {r : Receipt} (h : StoreInv maxFailures clock db)
    (hload : loadReceipt jobID db = some r) (hdead : r.state = .dead) : Terminal db jobID :=
  ⟨r, hload, Or.inr ⟨hdead, (h.jobs jobID).buried r hload hdead⟩⟩

/-- Terminal jobs stay terminal. -/
theorem Moved.terminal_stable {now : Nat} (hmoved : Moved maxFailures now db db')
    (h : Terminal db jobID) : Terminal db' jobID := by
  obtain ⟨r, hload, hstate⟩ := h
  have hview := hmoved.terminal hload (hstate.imp id And.left)
  have hload' : loadReceipt jobID db' = some r := by
    rw [← hload]
    exact congrArg JobView.receipt hview
  have hletter : loadDeadLetter jobID db' = loadDeadLetter jobID db :=
    congrArg JobView.letter hview
  exact ⟨r, hload', by rwa [hletter]⟩

/-- A row of this id, for this job, is in the attempts table. -/
def HasAttempt (db : DB) (attemptID : Nat) (jobID : String) : Prop :=
  ∃ a ∈ db.attempts, a.id = attemptID ∧ a.jobID = jobID

theorem HasAttempt.claim_self (db : DB) (r : Receipt) (now : Nat) :
    HasAttempt (db.claim r now) (db.lastAttemptID + 1) r.jobID :=
  ⟨r.nextAttempt (db.lastAttemptID + 1) now, List.mem_append_right _ (List.mem_singleton_self _),
    rfl, rfl⟩

theorem HasAttempt.claim (h : HasAttempt db attemptID jobID) (r : Receipt) (now : Nat) :
    HasAttempt (db.claim r now) attemptID jobID := by
  obtain ⟨a, ha, hid, hjob⟩ := h
  exact ⟨a, List.mem_append_left _ ha, hid, hjob⟩

theorem HasAttempt.rewrite (h : HasAttempt db attemptID jobID) {cond : Attempt → Bool}
    {change : Attempt → Attempt} (hattempts : db'.attempts = Table.update cond change db.attempts)
    (hkeep : ∀ a, (change a).id = a.id ∧ (change a).jobID = a.jobID) :
    HasAttempt db' attemptID jobID := by
  obtain ⟨a, ha, hid, hjob⟩ := h
  have hmem : (if cond a then change a else a) ∈ db'.attempts := by
    rw [hattempts]
    exact List.mem_map_of_mem ha
  refine ⟨_, hmem, ?_⟩
  split
  · exact ⟨(hkeep a).1.trans hid, (hkeep a).2.trans hjob⟩
  · exact ⟨hid, hjob⟩

theorem HasAttempt.recover (h : HasAttempt db attemptID jobID) (job : String) (now : Nat) :
    HasAttempt (recoverInterrupted job now db) attemptID jobID :=
  h.rewrite rfl fun _ => ⟨rfl, rfl⟩

/-- Attempt rows are never removed by `Start`. -/
theorem HasAttempt.start (h : HasAttempt db attemptID jobID) (now : Nat → Nat)
    (job kind payloadJSON : String) (maxFailures : Nat) :
    HasAttempt ((Worker.start now job kind payloadJSON maxFailures db).state db) attemptID
      jobID := by
  have hcases := start_cases now job kind payloadJSON maxFailures db
  generalize Worker.start now job kind payloadJSON maxFailures db = outcome at hcases
  cases hcases with
  | refused err _ _ => exact h
  | done r _ _ => exact h
  | first r _ _ _ _ =>
    have hinserted : HasAttempt { db with receipts := db.receipts ++ [r] } attemptID jobID := h
    exact hinserted.claim r _
  | retry r _ _ _ => exact h.claim r _
  | recover r _ _ _ _ => exact (h.recover job _).claim r _
  | exhausted r base jobError _ hbase _ =>
    rcases hbase with ⟨-, rfl⟩ | ⟨-, rfl⟩
    · exact h
    · exact h.recover job _

theorem HasAttempt.finishAttempt (h : HasAttempt db attemptID jobID) (now : Nat → Nat)
    (finished : Nat) (finish : Finish) :
    HasAttempt ((Worker.finishAttempt now finished finish db).state db) attemptID jobID := by
  have hcases := finishAttempt_cases now finished finish db
  generalize Worker.finishAttempt now finished finish db = outcome at hcases
  cases hcases with
  | refused err _ => exact h
  | done attempt r _ _ _ _ _ _ => exact h.rewrite rfl fun _ => ⟨rfl, rfl⟩
  | dead attempt r _ _ _ _ _ _ _ _ _ _ => exact h.rewrite rfl fun _ => ⟨rfl, rfl⟩

/-- Every receipt's job and kind satisfy `P`. -/
def ReceiptKinds (P : String → String → Prop) (db : DB) : Prop :=
  ∀ r ∈ db.receipts, P r.jobID r.kind

theorem ReceiptKinds.update (h : ReceiptKinds P db) {cond : Receipt → Bool}
    {change : Receipt → Receipt} (hreceipts : db'.receipts = Table.update cond change db.receipts)
    (hkeep : ∀ r, (change r).jobID = r.jobID ∧ (change r).kind = r.kind) : ReceiptKinds P db' := by
  intro r hr
  rw [hreceipts] at hr
  obtain ⟨old, hold, rfl⟩ := List.mem_map.mp hr
  split
  · rw [(hkeep old).1, (hkeep old).2]
    exact h old hold
  · exact h old hold

/-- `Start` adds only a receipt of the job and kind it is called with. -/
theorem ReceiptKinds.start (h : ReceiptKinds P db) (now : Nat → Nat) (hjob : P jobID kind)
    (payloadJSON : String) (maxFailures : Nat) :
    ReceiptKinds P ((Worker.start now jobID kind payloadJSON maxFailures db).state db) := by
  have hcases := start_cases now jobID kind payloadJSON maxFailures db
  generalize Worker.start now jobID kind payloadJSON maxFailures db = outcome at hcases
  cases hcases with
  | refused err _ _ => exact h
  | done r _ _ => exact h
  | first r _ hid hkind _ =>
    have hinserted : ReceiptKinds P { db with receipts := db.receipts ++ [r] } := by
      intro row hrow
      rcases List.mem_append.mp hrow with hrow | hrow
      · exact h row hrow
      · rw [List.mem_singleton] at hrow
        rw [hrow, hid, hkind]
        exact hjob
    exact hinserted.update rfl fun _ => ⟨rfl, rfl⟩
  | retry r _ _ _ => exact h.update rfl fun _ => ⟨rfl, rfl⟩
  | recover r _ _ _ _ => exact h.update rfl fun _ => ⟨rfl, rfl⟩
  | exhausted r base jobError _ hbase _ =>
    rcases hbase with ⟨-, rfl⟩ | ⟨-, rfl⟩ <;> exact h.update rfl fun _ => ⟨rfl, rfl⟩

theorem ReceiptKinds.finishAttempt (h : ReceiptKinds P db) (now : Nat → Nat) (attemptID : Nat)
    (finish : Finish) :
    ReceiptKinds P ((Worker.finishAttempt now attemptID finish db).state db) := by
  have hcases := finishAttempt_cases now attemptID finish db
  generalize Worker.finishAttempt now attemptID finish db = outcome at hcases
  cases hcases with
  | refused err _ => exact h
  | done attempt r _ _ _ _ _ _ => exact h.update rfl fun _ => ⟨rfl, rfl⟩
  | dead attempt r _ _ _ _ _ _ _ _ _ _ =>
    have hfinished : ReceiptKinds P (db.finish attempt finish (now 0)) :=
      h.update rfl fun _ => ⟨rfl, rfl⟩
    exact hfinished.update rfl fun _ => ⟨rfl, rfl⟩

/-! ### The verdicts are true -/

/-- After `Start` with proper arguments, for a job whose receipt (if any) is of the same
kind: either the attempt is claimed, or the verdict is true of the new database. -/
theorem afterStart_sound (now : Nat → Nat) (hmax : 1 ≤ maxFailures) (hjobID : jobID ≠ "")
    (hkind : kind ≠ "") (hpayload : payloadJSON ≠ "")
    (hsame : ∀ r, loadReceipt jobID db = some r → r.kind = kind) (hinv : StoreInv maxFailures clock
      ((start now jobID kind payloadJSON maxFailures db).state db)) :
    match afterStart (start now jobID kind payloadJSON maxFailures db).answer with
    | .handle attempt =>
      HasAttempt ((start now jobID kind payloadJSON maxFailures db).state db) attempt.id jobID
    | .finish result err =>
      Verdict ((start now jobID kind payloadJSON maxFailures db).state db) jobID result err := by
  have hcases := start_cases now jobID kind payloadJSON maxFailures db
  generalize start now jobID kind payloadJSON maxFailures db = outcome at hcases hinv
  cases hcases with
  | refused err hinvalid hdead =>
    cases err with
    | invalidJob =>
      rcases hinvalid rfl with hblank | ⟨r, hload, hother⟩
      · have hmaxFailures : ¬ maxFailures < 1 := by omega
        simp [hjobID, hkind, hpayload, hmaxFailures] at hblank
      · exact absurd (hsame r hload) hother
    | notFound => exact .failing _
    | jobDead =>
      obtain ⟨r, hload, hstate⟩ := hdead rfl
      exact .terminal (Or.inr rfl) (hinv.terminal_of_dead hload hstate)
    | jobProcessing => exact .processing rfl rfl rfl
    | staleAttempt => exact .failing _
    | jobErrorRequired => exact .failing _
  | done r hload hstate => exact .terminal (Or.inl rfl) ⟨r, hload, Or.inl hstate⟩
  | first r hload hid _ _ =>
    subst hid
    exact HasAttempt.claim_self { db with receipts := db.receipts ++ [r] } r (now 1)
  | retry r hload _ _ =>
    obtain rfl : r.jobID = jobID := Table.lookup_key hload
    exact HasAttempt.claim_self db r (now 1)
  | recover r hload _ _ _ =>
    obtain rfl : r.jobID = jobID := Table.lookup_key hload
    exact HasAttempt.claim_self (recoverInterrupted r.jobID (now 1) db) r (now 1)
  | exhausted r base jobError hload hbase _ =>
    obtain rfl : r.jobID = jobID := Table.lookup_key hload
    have hbaseLoad : loadReceipt r.jobID base = some r := by
      rcases hbase with ⟨-, rfl⟩ | ⟨-, rfl⟩ <;> exact hload
    have hview := view_bury_self hbaseLoad rfl rfl payloadJSON jobError (now 1)
    exact .terminal (Or.inr rfl)
      (hinv.terminal_of_dead (congrArg JobView.receipt hview) rfl)

/-- What a finish of the job's attempt leaves behind: it is refused, or it succeeds or
dead-letters the job for good, or the job has failures left. -/
def FinishSound (db : DB) (jobID : String) (finish : Finish) (outcome : Outcome DB Err Bool) :
    Prop :=
  match outcome.answer with
  | .error err => err = .notFound ∨ err = .staleAttempt
  | .ok dead => dead = true ∨ finish = .succeeded → Terminal (outcome.state db) jobID

theorem finishAttempt_sound {after : Nat} (h : StoreInv maxFailures clock db) (now : Nat → Nat)
    (hattempt : HasAttempt db attemptID jobID) (finish : Finish)
    (hinv : StoreInv maxFailures after ((finishAttempt now attemptID finish db).state db)) :
    FinishSound db jobID finish (finishAttempt now attemptID finish db) := by
  have hcases := finishAttempt_cases now attemptID finish db
  generalize finishAttempt now attemptID finish db = outcome at hcases hinv
  obtain ⟨row, hrow, hid, hjob⟩ := hattempt
  -- the row the transaction loads is the one of this job
  have hfound : ∀ attempt, loadAttempt attemptID db = some attempt → attempt.jobID = jobID := by
    intro attempt hload
    have hlookup := Table.lookup_of_mem h.ids.unique hrow
    rw [hid] at hlookup
    obtain rfl : row = attempt := Option.some.inj (hlookup.symm.trans hload)
    exact hjob
  cases hcases with
  | refused err herr => exact herr
  | done attempt r hload hrunning hreceipt hstate hnumber hbudget =>
    obtain rfl := hfound attempt hload
    intro hdone
    have hsucceeded : finish = .succeeded := by simpa using hdone
    subst hsucceeded
    have hview := view_finish_self (h.jobs attempt.jobID) (Table.lookup_mem hload) hrunning
      hreceipt hstate hnumber .succeeded (now 0)
    exact ⟨_, congrArg JobView.receipt hview, Or.inl rfl⟩
  | dead attempt r jobErr payloadJSON limit hload hrunning hreceipt hstate hnumber hfailed _ =>
    obtain rfl := hfound attempt hload
    subst hfailed
    have hreceiptID : r.jobID = attempt.jobID := Table.lookup_key hreceipt
    have hview := view_finish_self (h.jobs attempt.jobID) (Table.lookup_mem hload) hrunning
      hreceipt hstate hnumber (.failed jobErr payloadJSON limit) (now 0)
    have hfinished : loadReceipt attempt.jobID
        (db.finish attempt (.failed jobErr payloadJSON limit) (now 0)) =
          some (r.finish (.failed jobErr payloadJSON limit) (now 0)) :=
      congrArg JobView.receipt hview
    rw [← hreceiptID] at hfinished
    have hburied := view_bury_self (r := { r with state := .failed }) hfinished rfl rfl
      payloadJSON jobErr (now 0)
    intro _
    rw [← hreceiptID]
    exact hinv.terminal_of_dead (congrArg JobView.receipt hburied) rfl

/-- The verdict after the handler succeeded. -/
theorem afterSucceeded_verdict (h : FinishSound db jobID .succeeded outcome) (attempt : Attempt) :
    Verdict (outcome.state db) jobID (afterSucceeded attempt outcome.answer).1
      (afterSucceeded attempt outcome.answer).2 := by
  unfold FinishSound at h
  cases hanswer : outcome.answer with
  | error err =>
    rw [hanswer] at h
    rcases h with rfl | rfl <;> exact .failing _
  | ok dead =>
    rw [hanswer] at h
    exact .terminal (Or.inl rfl) (h (Or.inr rfl))

/-- The verdict after the handler failed with an error that is worth a retry. -/
theorem afterFailed_verdict {text : String}
    (h : FinishSound db jobID (.failed text payloadJSON maxFailures) outcome) (attempt : Attempt)
    (jobText : String) :
    Verdict (outcome.state db) jobID (afterFailed attempt (.other jobText) outcome.answer).1
      (afterFailed attempt (.other jobText) outcome.answer).2 := by
  unfold FinishSound at h
  cases hanswer : outcome.answer with
  | error err =>
    rw [hanswer] at h
    rcases h with rfl | rfl <;> exact .failing _
  | ok dead =>
    rw [hanswer] at h
    cases dead with
    | false => exact .failing jobText
    | true => exact .terminal (Or.inr rfl) (h (Or.inl rfl))

end

/-- **A finished job is not run again.**  Once a job of a run is succeeded or dead, whatever
happens later, a delivery of it changes nothing, starts no handler and is no reason to
retry. -/
theorem redelivery_settles {maxFailures clock : Nat} (hmax : 1 ≤ maxFailures)
    {trace later : List (Call × Machine)} {m m' : Machine} {jobID : String} {r : Receipt}
    (hrun : Run (Machine.Step maxFailures) ⟨clock, DB.empty⟩ trace m)
    (hload : loadReceipt jobID m.db = some r) (hstate : r.state = .succeeded ∨ r.state = .dead)
    (hlater : Run (Machine.Step maxFailures) m later m') (now : Nat → Nat)
    (kind payloadJSON : String) :
    (start now jobID kind payloadJSON maxFailures m'.db).state m'.db = m'.db ∧
    ∃ result err, afterStart (start now jobID kind payloadJSON maxFailures m'.db).answer =
        .finish result err ∧ resolveMessageAction (processMessage result err) ≠ .retry := by
  have hinv := storeInv_of_run hmax (StoreInv.empty maxFailures clock) hrun
  have hview := view_stable hmax hinv hlater hload hstate
  have hload' : loadReceipt jobID m'.db = some r := (congrArg JobView.receipt hview).trans hload
  rw [start, hload']
  -- a refused delivery is terminated
  split
  · exact ⟨rfl, _, _, rfl, by decide⟩
  · dsimp only
    split
    · exact ⟨rfl, _, _, rfl, by decide⟩
    · rcases hstate with hstate | hstate <;> rw [hstate] <;> exact ⟨rfl, _, _, rfl, by decide⟩

/-- A job dead of its only failure is delivered again. -/
theorem redelivery_settles_dead_job :
    ∃ trace m, Run (Machine.Step 1) ⟨0, DB.empty⟩ trace m ∧
      (start (fun _ => 0) "job" "delete" "payload" 1 m.db).state m.db = m.db := by
  have hrun : Run (Machine.Step 1) ⟨0, DB.empty⟩ _ _ :=
    (Run.nil.snoc (.start (Readings.still 0) "job" "delete" "payload")).snoc
      (.markFailed (Readings.still 0) 1 (some "unreachable") "payload")
  exact ⟨_, _, hrun, (redelivery_settles (Nat.le_refl 1) hrun rfl (Or.inr rfl) .nil _ _ _).1⟩

end Worker
end FlickDrop
