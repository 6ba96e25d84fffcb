import Mathlib.Logic.Function.Basic
import FlickDrop.Foundations.Table
import FlickDrop.Foundations.Text
import FlickDrop.Foundations.Transaction

/-!
# The live relay coordinator

Model of `internal/piperelay/coordinator.go`.  A rendezvous session lives on a heap and
is found through a table from the hash of its six-digit code.  A session leaves the
table when it is burned, expires or is cleaned up; the handlers that hold a pointer to
it go on.

`sync.Once` makes the body of `closeOnce` one action, so closing a session (its `done`
channel and both ends of its pipe) is one function here.  A channel is modelled by
whether it is closed.
-/

namespace FlickDrop
namespace Relay

open Foundations

inductive Err where
  | capacityExceeded
  | notFound
  | sessionClosed
  | sessionBurned
  | alreadyConnected
  | invalidCode
  | expired
  | noUniqueCode
  | contextEnded
  deriving DecidableEq, Repr

/-- What a pipe end was closed with. -/
inductive Cause where
  | eof
  | closedPipe
  | sessionClosed
  | sessionBurned
  | expired
  | contextEnded
  | copy (text : String)
  deriving DecidableEq, Repr

/-- `io.Pipe`: the unread bytes of the write in progress, and the first error each end
was closed with. -/
structure Pipe where
  pending : List UInt8
  rerr : Option Cause
  werr : Option Cause
  deriving DecidableEq, Repr

def Pipe.fresh : Pipe := ⟨[], none, none⟩

/-- `PipeReader.CloseWithError`. -/
def Pipe.closeReader (cause : Cause) (p : Pipe) : Pipe :=
  { p with rerr := p.rerr.or (some cause) }

/-- `PipeWriter.CloseWithError`. -/
def Pipe.closeWriter (cause : Cause) (p : Pipe) : Pipe :=
  { p with werr := p.werr.or (some cause) }

def Pipe.closed (p : Pipe) : Bool :=
  p.rerr.isSome || p.werr.isSome

structure Session (Digest : Type) where
  codeHash : Digest
  salt : List UInt8
  createdAt : Nat
  expiresAt : Nat
  failedAttempts : Nat
  burned : Bool
  kind : String
  encryptedFilename : String
  receiverReady : Bool
  senderReady : Bool
  done : Bool
  pipe : Pipe
  deriving DecidableEq, Repr

structure SessionMetadata where
  kind : String
  encryptedFilename : String
  deriving DecidableEq, Repr

/-- `CoordinatorOptions`, after `NewCoordinator` has filled in the defaults.  No code
reads `maxTransferDuration`. -/
structure Options where
  maxConcurrent : Nat
  ttl : Nat
  maxTransferDuration : Nat
  deriving DecidableEq, Repr

/-- The defaults of `NewCoordinator`. -/
def newOptions (maxConcurrent ttl maxTransferDuration : Int) : Options where
  maxConcurrent := if maxConcurrent ≤ 0 then 100 else maxConcurrent.toNat
  ttl := if ttl ≤ 0 then 3 * minute else ttl.toNat
  maxTransferDuration := if maxTransferDuration ≤ 0 then 10 * minute else maxTransferDuration.toNat

/-- `NormalizeCode`. -/
def normalizeCode (raw : String) : Except Err (List Char) :=
  let normalized := (trimSpace raw.toList).filter fun c => c ≠ '-' && c ≠ ' '
  if normalized.length = 6 ∧ normalized.all Char.isDigit then
    .ok normalized
  else
    .error .invalidCode

/-- The coordinator's map and the sessions it has ever made. -/
structure Coordinator (Digest : Type) where
  table : List (Digest × Nat)
  heap : Nat → Option (Session Digest)
  next : Nat
  stopped : Bool

section

variable {Digest : Type} [DecidableEq Digest]

def Coordinator.empty : Coordinator Digest where
  table := []
  heap := fun _ => none
  next := 0
  stopped := false

def Coordinator.find (c : Coordinator Digest) (hash : Digest) : Option Nat :=
  (Table.lookup Prod.fst hash c.table).map Prod.snd

def Coordinator.modify (c : Coordinator Digest) (id : Nat)
    (change : Session Digest → Session Digest) : Coordinator Digest :=
  { c with heap := Function.update c.heap id ((c.heap id).map change) }

/-- The body of `closeOnce` in `removeLocked`. -/
def Session.close (cause : Cause) (s : Session Digest) : Session Digest :=
  if s.done then s
  else { s with done := true, pipe := (s.pipe.closeWriter cause).closeReader cause }

/-- The body of `closeOnce` in the cleanup closure of `Receive`. -/
def Session.cleanup (s : Session Digest) : Session Digest :=
  if s.done then s
  else { s with done := true, pipe := (s.pipe.closeReader .eof).closeWriter .eof }

/-- `removeLocked`. -/
def Coordinator.removeLocked (c : Coordinator Digest) (hash : Digest) (cause : Cause) :
    Coordinator Digest :=
  match c.find hash with
  | none => c
  | some id =>
    Coordinator.modify
      { c with table := Table.delete (fun entry => decide (entry.1 = hash)) c.table } id
      (Session.close cause)

/-- `burnSession`. -/
def Coordinator.burnSession (c : Coordinator Digest) (hash : Digest) : Coordinator Digest :=
  c.removeLocked hash .sessionClosed

/-- The test of the cleaner for one entry. -/
def Coordinator.lapsed (c : Coordinator Digest) (now : Nat) (id : Nat) : Bool :=
  match c.heap id with
  | none => false
  | some s => decide (s.expiresAt < now)

/-- `cleanExpired`; the loop ranges over the entries the map had at its start. -/
def Coordinator.cleanExpired (c : Coordinator Digest) (now : Nat) : Coordinator Digest :=
  c.table.foldl
    (fun c entry => if c.lapsed now entry.2 then c.removeLocked entry.1 .expired else c) c

/-- `Close`. -/
def Coordinator.close (c : Coordinator Digest) : Coordinator Digest :=
  if c.stopped then c
  else
    c.table.foldl (fun c entry => c.removeLocked entry.1 .sessionClosed) { c with stopped := true }

/-- The session `Init` makes. -/
def Session.fresh (hash : Digest) (salt : List UInt8) (now ttl : Nat) : Session Digest where
  codeHash := hash
  salt := salt
  createdAt := now
  expiresAt := now + ttl
  failedAttempts := 0
  burned := false
  kind := ""
  encryptedFilename := ""
  receiverReady := false
  senderReady := false
  done := false
  pipe := Pipe.fresh

/-- The first of the drawn codes that is not in the map; `Init` draws at most ten. -/
def Coordinator.unusedCode (c : Coordinator Digest) (sha256 : List Char → Digest)
    (codes : List (List Char)) : Option (List Char) :=
  (codes.take 10).find? fun code => (c.find (sha256 code)).isNone

/-- `Init`; `codes` are the codes its generator draws. -/
def Coordinator.init (opts : Options) (sha256 : List Char → Digest) (c : Coordinator Digest)
    (codes : List (List Char)) (salt : List UInt8) (now : Nat) :
    Except Err (Coordinator Digest × List Char) :=
  if opts.maxConcurrent ≤ c.table.length then
    .error .capacityExceeded
  else
    match c.unusedCode sha256 codes with
    | none => .error .noUniqueCode
    | some code =>
      .ok ({ c with
        table := c.table ++ [(sha256 code, c.next)]
        heap := Function.update c.heap c.next
          (some (Session.fresh (sha256 code) salt now opts.ttl))
        next := c.next + 1 }, code)

/-- The locked part of `Receive`: the session the receiver is connected to. -/
def Coordinator.connectReceiver (c : Coordinator Digest) (hash : Digest) :
    Coordinator Digest × Except (Err × Option Nat) Nat :=
  match c.find hash with
  | none => (c, .error (.notFound, none))
  | some id =>
    match c.heap id with
    | none => (c, .error (.notFound, none))
    | some s =>
      if s.burned then (c, .error (.sessionBurned, some id))
      else if s.receiverReady then (c, .error (.alreadyConnected, some id))
      else (c.modify id fun s => { s with receiverReady := true }, .ok id)

/-- The locked part of `Send`.  The metadata is written before the sender is known to be
the first. -/
def Coordinator.connectSender (c : Coordinator Digest) (hash : Digest)
    (metadata : SessionMetadata) : Coordinator Digest × Except (Err × Option Nat) Nat :=
  match c.find hash with
  | none => (c, .error (.notFound, none))
  | some id =>
    match c.heap id with
    | none => (c, .error (.notFound, none))
    | some s =>
      if s.burned then (c, .error (.sessionBurned, some id))
      else
        let c := c.modify id fun s =>
          { s with kind := metadata.kind, encryptedFilename := metadata.encryptedFilename }
        if s.senderReady then (c, .error (.alreadyConnected, some id))
        else (c.modify id fun s => { s with senderReady := true }, .ok id)

/-- `RecordFailedAttempt` after the code was normalized: whether the session was burned,
and the error. -/
def Coordinator.recordFailedAttempt (c : Coordinator Digest) (hash : Digest) :
    Coordinator Digest × Bool × Option Err :=
  match c.find hash with
  | none => (c, false, some .notFound)
  | some id =>
    let counted := c.modify id fun s => { s with failedAttempts := s.failedAttempts + 1 }
    match counted.heap id with
    | none => (counted, false, some .notFound)
    | some s =>
      if 3 ≤ s.failedAttempts then
        ((counted.modify id fun s => { s with burned := true }).removeLocked hash .sessionBurned,
          true, some .sessionBurned)
      else
        (counted, false, none)

end

end Relay
end FlickDrop
