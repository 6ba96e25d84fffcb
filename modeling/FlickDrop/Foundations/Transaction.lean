import Mathlib.Order.Monotone.Basic

/-!
# Atomic transactions and the clock

A transaction body either rolls back with an error or commits a new database and
answers; the answer of a committed transaction may still be an error.  Instants are
natural numbers of nanoseconds.  One operation reads the clock several times, so it
receives its `Readings`: a non-decreasing sequence between the clock before the
operation and the clock after it.
-/

namespace FlickDrop
namespace Foundations

/-- One second in nanoseconds. -/
def second : Nat := 1000000000

def minute : Nat := 60 * second

/-- The clock readings one operation takes, in the order it takes them. -/
structure Readings (before after : Nat) where
  now : Nat → Nat
  mono : Monotone now
  lower : ∀ i, before ≤ now i
  upper : ∀ i, now i ≤ after

/-- An operation during which the clock does not move. -/
def Readings.still (t : Nat) : Readings t t where
  now := fun _ => t
  mono := fun _ _ _ => Nat.le_refl t
  lower := fun _ => Nat.le_refl t
  upper := fun _ => Nat.le_refl t

theorem Readings.before_le_after {before after : Nat} (readings : Readings before after) :
    before ≤ after :=
  Nat.le_trans (readings.lower 0) (readings.upper 0)

/-- How a transaction body ends. -/
inductive Outcome (DB Err Answer : Type) where
  | rollback (err : Err)
  | commit (db : DB) (answer : Except Err Answer)
  deriving DecidableEq

/-- The database after the transaction. -/
def Outcome.state {DB Err Answer : Type} (before : DB) : Outcome DB Err Answer → DB
  | .rollback _ => before
  | .commit db _ => db

/-- What the caller is told. -/
def Outcome.answer {DB Err Answer : Type} : Outcome DB Err Answer → Except Err Answer
  | .rollback err => .error err
  | .commit _ answer => answer

/-- The same transaction with its answer in another form. -/
def Outcome.map {DB Err Answer Answer' : Type} (f : Answer → Answer') :
    Outcome DB Err Answer → Outcome DB Err Answer'
  | .rollback err => .rollback err
  | .commit db answer => .commit db (answer.map f)

section

variable {DB Err Answer : Type} (before db : DB) (err : Err) (answer : Except Err Answer)

@[simp] theorem Outcome.state_rollback :
    (Outcome.rollback err : Outcome DB Err Answer).state before = before := rfl

@[simp] theorem Outcome.state_commit : (Outcome.commit db answer).state before = db := rfl

@[simp] theorem Outcome.answer_rollback :
    (Outcome.rollback err : Outcome DB Err Answer).answer = .error err := rfl

@[simp] theorem Outcome.map_rollback {Answer' : Type} (f : Answer → Answer') :
    (Outcome.rollback err : Outcome DB Err Answer).map f = .rollback err := rfl

@[simp] theorem Outcome.answer_commit : (Outcome.commit db answer).answer = answer := rfl

end

end Foundations
end FlickDrop
