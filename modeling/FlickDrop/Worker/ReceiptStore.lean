import FlickDrop.Foundations.Table
import FlickDrop.Foundations.Transaction

/-!
# The worker's receipt store

Model of `internal/worker/store.go`: one receipt for each job, one row for each
attempt at it, and the dead letters.  `start` claims an attempt (recovering a lapsed
lease first), `markSucceeded` and `markFailed` finish one, and the failure budget
turns the receipt `dead` together with its dead letter.

Statement failures of the database are not part of these functions: a failed
statement rolls the whole transaction back, which the step relation of
`ReceiptMachine` covers with a step that changes nothing.
-/

namespace FlickDrop
namespace Worker

open Foundations

/-- How long a claimed attempt is protected from another delivery. -/
def processingLease : Nat := minute

inductive ReceiptState where
  | processing
  | succeeded
  | failed
  | dead
  deriving DecidableEq, Repr

inductive AttemptResult where
  | running
  | succeeded
  | failed
  deriving DecidableEq, Repr

inductive Err where
  | invalidJob
  | notFound
  | jobDead
  | jobProcessing
  | staleAttempt
  | jobErrorRequired
  deriving DecidableEq, Repr

structure Receipt where
  jobID : String
  kind : String
  state : ReceiptState
  attempts : Nat
  lastError : Option String
  firstSeenAt : Nat
  updatedAt : Nat
  completedAt : Option Nat
  deriving DecidableEq, Repr

structure Attempt where
  id : Nat
  jobID : String
  attempt : Nat
  startedAt : Nat
  finishedAt : Option Nat
  result : AttemptResult
  error : Option String
  deriving DecidableEq, Repr

structure DeadLetter where
  jobID : String
  kind : String
  payloadJSON : String
  error : String
  createdAt : Nat
  deriving DecidableEq, Repr

/-- The worker database.  `lastAttemptID` is the counter behind the
autoincrementing attempt id. -/
structure DB where
  receipts : List Receipt
  attempts : List Attempt
  deadLetters : List DeadLetter
  lastAttemptID : Nat
  deriving DecidableEq, Repr

def DB.empty : DB := ⟨[], [], [], 0⟩

/-- What `Start` hands back: a claimed attempt, or the news that the job is done. -/
inductive StartResult where
  | claimed (attempt : Attempt)
  | alreadySucceeded
  deriving DecidableEq, Repr

def loadReceipt (jobID : String) (db : DB) : Option Receipt :=
  Table.lookup Receipt.jobID jobID db.receipts

def loadAttempt (id : Nat) (db : DB) : Option Attempt :=
  Table.lookup Attempt.id id db.attempts

def loadDeadLetter (jobID : String) (db : DB) : Option DeadLetter :=
  Table.lookup DeadLetter.jobID jobID db.deadLetters

/-- An attempt spends the failure budget when it failed with a recorded error.  A
lapsed lease leaves a failed attempt without one. -/
def Attempt.counts (a : Attempt) : Bool :=
  decide (a.result = .failed) && a.error.isSome

def failureCount (jobID : String) (db : DB) : Nat :=
  (db.attempts.filter fun a => decide (a.jobID = jobID) && a.counts).length

/-- The counted failure with the highest attempt number. -/
def lastFailure (jobID : String) (db : DB) : Option Attempt :=
  (db.attempts.filter fun a => decide (a.jobID = jobID) && a.counts).foldl
    (fun best a =>
      match best with
      | none => some a
      | some b => if b.attempt < a.attempt then some a else best) none

/-- The dead-letter upsert: at most one row for each job. -/
def upsertDeadLetter (letter : DeadLetter) (letters : List DeadLetter) : List DeadLetter :=
  if (Table.lookup DeadLetter.jobID letter.jobID letters).isSome then
    Table.update (fun l => decide (l.jobID = letter.jobID)) (fun _ => letter) letters
  else
    letters ++ [letter]

/-- The receipt row once its job is dead-lettered. -/
def Receipt.bury (r : Receipt) (jobError : String) (now : Nat) : Receipt :=
  { r with state := .dead, lastError := some jobError, updatedAt := now, completedAt := some now }

/-- The receipt row once its next attempt is claimed. -/
def Receipt.claim (r : Receipt) (now : Nat) : Receipt :=
  { r with state := .processing, attempts := r.attempts + 1, updatedAt := now, lastError := none }

/-- The attempt row a claim inserts. -/
def Receipt.nextAttempt (r : Receipt) (id : Nat) (now : Nat) : Attempt :=
  { id := id
    jobID := r.jobID
    attempt := r.attempts + 1
    startedAt := now
    finishedAt := none
    result := .running
    error := none }

/-- The two statements of `deadLetter`: the terminal receipt, guarded by the state and
the attempt number the caller read, and the letter. -/
def DB.bury (receipt : Receipt) (payloadJSON jobError : String) (now : Nat) (db : DB) : DB :=
  { db with
    receipts := Table.update
      (fun r => decide (r.jobID = receipt.jobID) &&
        (decide (r.state = receipt.state) && decide (r.attempts = receipt.attempts)))
      (·.bury jobError now) db.receipts
    deadLetters := upsertDeadLetter
      ⟨receipt.jobID, receipt.kind, payloadJSON, jobError, now⟩ db.deadLetters }

/-- `deadLetter`. -/
def deadLetter (receipt : Receipt) (payloadJSON jobError : String) (now : Nat) (db : DB) :
    Except Err DB :=
  if Table.affected (fun r => decide (r.jobID = receipt.jobID) &&
      (decide (r.state = receipt.state) && decide (r.attempts = receipt.attempts)))
      db.receipts ≠ 1 then
    .error .notFound
  else
    .ok (db.bury receipt payloadJSON jobError now)

/-- The two statements that claim attempt `receipt.attempts + 1`. -/
def DB.claim (receipt : Receipt) (now : Nat) (db : DB) : DB :=
  { db with
    receipts := Table.update (fun r => decide (r.jobID = receipt.jobID))
      (fun r => { r with
        state := .processing, attempts := receipt.attempts + 1, updatedAt := now,
        lastError := none })
      db.receipts
    attempts := db.attempts ++ [receipt.nextAttempt (db.lastAttemptID + 1) now]
    lastAttemptID := db.lastAttemptID + 1 }

/-- The tail of `Start`. -/
def claimAttempt (receipt : Receipt) (now : Nat) (db : DB) : Outcome DB Err StartResult :=
  if Table.affected (fun r => decide (r.jobID = receipt.jobID)) db.receipts ≠ 1 then
    .rollback .notFound
  else
    .commit (db.claim receipt now)
      (.ok (.claimed (receipt.nextAttempt (db.lastAttemptID + 1) now)))

/-- A lapsed lease: every running attempt of the job is closed as interrupted, that
is failed with no error. -/
def recoverInterrupted (jobID : String) (now : Nat) (db : DB) : DB :=
  { db with
    attempts := Table.update
      (fun a => decide (a.jobID = jobID) && decide (a.result = .running))
      (fun a => { a with result := .failed, finishedAt := some now, error := none })
      db.attempts }

/-- The part of `Start` after the lease check, for a receipt that already existed:
finish an overdue dead letter, or claim the next attempt. -/
def resume (receipt : Receipt) (payloadJSON : String) (maxFailures : Nat) (now : Nat) (db : DB) :
    Outcome DB Err StartResult :=
  if maxFailures ≤ failureCount receipt.jobID db then
    match lastFailure receipt.jobID db with
    | none => .rollback .notFound
    | some failure =>
      match deadLetter receipt payloadJSON (failure.error.getD "") now db with
      | .error err => .rollback err
      | .ok dead => .commit dead (.error .jobDead)
  else
    claimAttempt receipt now db

/-- `ReceiptStore.Start`. -/
def start (now : Nat → Nat) (jobID kind payloadJSON : String) (maxFailures : Nat) (db : DB) :
    Outcome DB Err StartResult :=
  if jobID = "" ∨ kind = "" ∨ payloadJSON = "" ∨ maxFailures < 1 then
    .rollback .invalidJob
  else
    match loadReceipt jobID db with
    | none =>
      let receipt : Receipt :=
        { jobID := jobID
          kind := kind
          state := .processing
          attempts := 0
          lastError := none
          firstSeenAt := now 0
          updatedAt := now 0
          completedAt := none }
      claimAttempt receipt (now 1) { db with receipts := db.receipts ++ [receipt] }
    | some receipt =>
      if receipt.kind ≠ kind then
        .rollback .invalidJob
      else
        match receipt.state with
        | .succeeded => .commit db (.ok .alreadySucceeded)
        | .dead => .rollback .jobDead
        | .processing =>
          if now 1 < receipt.updatedAt + processingLease then
            .rollback .jobProcessing
          else
            resume receipt payloadJSON maxFailures (now 1)
              (recoverInterrupted jobID (now 1) db)
        | .failed => resume receipt payloadJSON maxFailures (now 1) db

/-- How a finished attempt ended: with success, or with the text of the handler's
error. -/
inductive Finish where
  | succeeded
  | failed (jobErr payloadJSON : String) (maxFailures : Nat)

def Finish.result : Finish → AttemptResult
  | .succeeded => .succeeded
  | .failed .. => .failed

def Finish.errText : Finish → Option String
  | .succeeded => none
  | .failed jobErr _ _ => some jobErr

def Finish.receiptState : Finish → ReceiptState
  | .succeeded => .succeeded
  | .failed .. => .failed

/-- The attempt row after a finish. -/
def Attempt.finish (a : Attempt) (finish : Finish) (now : Nat) : Attempt :=
  { a with result := finish.result, finishedAt := some now, error := finish.errText }

/-- The receipt row after a finish, before a possible dead letter. -/
def Receipt.finish (r : Receipt) (finish : Finish) (now : Nat) : Receipt :=
  { r with
    state := finish.receiptState
    lastError := finish.errText
    updatedAt := now
    completedAt := match finish with
      | .succeeded => some now
      | .failed .. => r.completedAt }

/-- The two statements of `finishAttempt` before a possible dead letter. -/
def DB.finish (attempt : Attempt) (finish : Finish) (now : Nat) (db : DB) : DB :=
  { db with
    attempts := Table.update
      (fun a => decide (a.id = attempt.id) && decide (a.result = .running))
      (·.finish finish now) db.attempts
    receipts := Table.update
      (fun r => decide (r.jobID = attempt.jobID) &&
        (decide (r.state = .processing) && decide (r.attempts = attempt.attempt)))
      (·.finish finish now) db.receipts }

/-- `finishAttempt`.  The answer is whether the job was dead-lettered. -/
def finishAttempt (now : Nat → Nat) (attemptID : Nat) (finish : Finish) (db : DB) :
    Outcome DB Err Bool :=
  match loadAttempt attemptID db with
  | none => .rollback .notFound
  | some attempt =>
    if attempt.result ≠ .running then
      .rollback .staleAttempt
    else
      match loadReceipt attempt.jobID db with
      | none => .rollback .notFound
      | some receipt =>
        if receipt.state ≠ .processing ∨ receipt.attempts ≠ attempt.attempt then
          .rollback .staleAttempt
        else if Table.affected
            (fun a => decide (a.id = attempt.id) && decide (a.result = .running))
            db.attempts ≠ 1 then
          .rollback .notFound
        else if Table.affected
            (fun r => decide (r.jobID = attempt.jobID) &&
              (decide (r.state = .processing) && decide (r.attempts = attempt.attempt)))
            db.receipts ≠ 1 then
          .rollback .staleAttempt
        else
          let finished := db.finish attempt finish (now 0)
          match finish with
          | .succeeded => .commit finished (.ok false)
          | .failed jobErr payloadJSON maxFailures =>
            if maxFailures ≤ failureCount attempt.jobID finished then
              match deadLetter { receipt with state := .failed } payloadJSON jobErr (now 0)
                  finished with
              | .error err => .rollback err
              | .ok dead => .commit dead (.ok true)
            else
              .commit finished (.ok false)

/-- `ReceiptStore.MarkSucceeded`. -/
def markSucceeded (now : Nat → Nat) (attemptID : Nat) (db : DB) : Outcome DB Err Bool :=
  finishAttempt now attemptID .succeeded db

/-- `ReceiptStore.MarkFailed`; `jobErr` is the handler's error, if any. -/
def markFailed (now : Nat → Nat) (attemptID : Nat) (jobErr : Option String)
    (payloadJSON : String) (maxFailures : Nat) (db : DB) : Outcome DB Err Bool :=
  match jobErr with
  | none => .rollback .jobErrorRequired
  | some jobErr =>
    if payloadJSON = "" ∨ maxFailures < 1 then
      .rollback .invalidJob
    else
      finishAttempt now attemptID (.failed jobErr payloadJSON maxFailures) db

end Worker
end FlickDrop
