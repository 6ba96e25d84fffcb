import FlickDrop.Foundations.Tape
import FlickDrop.Relay.Coordinator

/-!
# The byte streams of the relay

The same coordinator at the grain of its pipes.  The body of a `closeOnce` closes the two
ends of a pipe one after the other while reads and writes go on, so each close is a step
of its own here, and so are the end of a failed copy and the close of the writer that
follows it.  `io.Pipe` is as documented: a `Write` returns once its bytes are read or the
pipe is closed, a `Read` takes bytes a `Write` offers or, on a closed pipe, returns the
error of the pipe, and of each end the first close counts.

Every session has at most one accepted `Send` and one accepted `Receive`; they are found
by the session's place on the heap.  An accepted receiver reads as it likes and runs its
cleanup when it likes.  Steps are never blocked by the coordinator's lock or by a
`closeOnce` in progress, so there are more interleavings here than the code has.
-/

namespace FlickDrop
namespace Relay
namespace Streams

open Foundations

/-! ### Pipes -/

/-- A call of `CloseWithError`. -/
inductive Closing where
  | reader (cause : Cause)
  | writer (cause : Cause)
  deriving DecidableEq, Repr

def Closing.run : Closing → Pipe → Pipe
  | .reader cause => Pipe.closeReader cause
  | .writer cause => Pipe.closeWriter cause

/-- The closes of `removeLocked`, in its order. -/
def removal (cause : Cause) : List Closing := [.writer cause, .reader cause]

/-- The closes of the cleanup closure of `Receive`, in its order. -/
def cleanup : List Closing := [.reader .eof, .writer .eof]

/-- `readCloseError` of `io.Pipe`. -/
def readCloseError (p : Pipe) : Cause :=
  match p.rerr, p.werr with
  | none, some cause => cause
  | _, _ => .closedPipe

/-- `writeCloseError` of `io.Pipe`. -/
def writeCloseError (p : Pipe) : Cause :=
  match p.werr, p.rerr with
  | none, some cause => cause
  | _, _ => .closedPipe

/-! ### Parties -/

/-- Where the accepted `Send` of a session stands. -/
inductive Sender (Digest : Type) where
  | absent
  /-- in its `select` -/
  | waiting (hash : Digest) (body : List UInt8)
  /-- `io.CopyBuffer` is about to read from the body; `sent` was written -/
  | copying (hash : Digest) (body sent : List UInt8)
  /-- a `Write` of `chunk` is in progress -/
  | writing (hash : Digest) (body sent chunk : List UInt8)
  /-- about to close the writer with an error -/
  | failing (hash : Digest) (body : List UInt8) (cause : Cause)
  /-- about to call `burnSession` -/
  | burning (hash : Digest) (body : List UInt8)
  | returned (body : List UInt8)
  deriving DecidableEq, Repr

/-- Where the accepted `Receive` of a session stands. -/
inductive Receiver (Digest : Type) where
  | absent
  /-- in its `select` -/
  | waiting (hash : Digest)
  /-- it returned the reader and the cleanup closure -/
  | connected (hash : Digest) (received : List UInt8)
  | failed
  deriving DecidableEq, Repr

/-- The parties of a session: the rest of the `closeOnce` in progress, and the hashes with
which cleanup closures behind it are about to call `burnSession`. -/
structure Link (Digest : Type) where
  closing : List Closing
  cleanups : List Digest
  sender : Sender Digest
  receiver : Receiver Digest

structure World (Digest : Type) where
  clock : Nat
  coord : Coordinator Digest
  links : Nat → Link Digest

section

variable {Digest : Type}

def Sender.body : Sender Digest → Option (List UInt8)
  | .absent => none
  | .waiting _ body | .copying _ body _ | .writing _ body _ _ | .failing _ body _
  | .burning _ body | .returned body => some body

def Receiver.received : Receiver Digest → List UInt8
  | .connected _ received => received
  | .absent | .waiting _ | .failed => []

def Link.fresh : Link Digest := ⟨[], [], .absent, .absent⟩

def World.start (clock : Nat) : World Digest where
  clock := clock
  coord := Coordinator.empty
  links := fun _ => Link.fresh

/-- Session `id` and its parties change. -/
def World.put (w : World Digest) (id : Nat) (s : Session Digest) (l : Link Digest) : World Digest :=
  { w with
    coord := { w.coord with heap := Function.update w.coord.heap id (some s) }
    links := Function.update w.links id l }

/-- The first action of a `closeOnce`, unless it was run. -/
def beginClose (closes : List Closing) (s : Session Digest) (l : Link Digest) :
    Session Digest × Link Digest :=
  if s.done then (s, l) else ({ s with done := true }, { l with closing := closes })

/-- The cleanup closure, called with the hash it carries. -/
def beginCleanup (hash : Digest) (s : Session Digest) (l : Link Digest) :
    Session Digest × Link Digest :=
  beginClose cleanup s { l with cleanups := hash :: l.cleanups }

/-- What a step did to a session. -/
inductive Event where
  | silent
  /-- a receiver is accepted -/
  | receiver
  /-- a sender is accepted, with its body -/
  | sender (body : List UInt8)
  /-- a `Read` returned bytes -/
  | received (bytes : List UInt8)
  /-- a `Read` returned an error -/
  | ended (cause : Cause)
  /-- the receiver runs its cleanup -/
  | cleaned
  /-- `Send` returns the number of bytes and no error -/
  | sent (n : Nat)
  deriving DecidableEq, Repr

inductive Label where
  | quiet
  | seen (id : Nat) (event : Event)
  deriving DecidableEq, Repr

/-- One action of a party of a session, or the next close of its `closeOnce`. -/
inductive Action (clock : Nat) :
    Session Digest → Link Digest → Event → Session Digest × Link Digest → Prop
  | closeNext {s : Session Digest} {l : Link Digest} {next : Closing} {rest : List Closing}
      (hclosing : l.closing = next :: rest) :
      Action clock s l .silent ({ s with pipe := next.run s.pipe }, { l with closing := rest })
  /-- the sender is there: the reader is handed out -/
  | receiveConnected {s : Session Digest} {l : Link Digest} {hash : Digest}
      (hat : l.receiver = .waiting hash) (hready : s.senderReady = true) :
      Action clock s l .silent (s, { l with receiver := .connected hash [] })
  | receiveClosed {s : Session Digest} {l : Link Digest} {hash : Digest}
      (hat : l.receiver = .waiting hash) (hdone : s.done = true) :
      Action clock s l .silent (s, { l with receiver := .failed })
  /-- the context ends, or the session expires, while the receiver waits -/
  | receiveCancelled {s : Session Digest} {l : Link Digest} {hash : Digest}
      (hat : l.receiver = .waiting hash) :
      Action clock s l .cleaned (beginCleanup hash s { l with receiver := .failed })
  /-- a `Read` with room for `n` bytes meets a `Write` -/
  | read {s : Session Digest} {l : Link Digest} {hash : Digest} {received : List UInt8} (n : Nat)
      (hat : l.receiver = .connected hash received) (hoffered : s.pipe.pending ≠ []) :
      Action clock s l (.received (s.pipe.pending.take n))
        ({ s with pipe.pending := s.pipe.pending.drop n },
          { l with receiver := .connected hash (received ++ s.pipe.pending.take n) })
  | readEnd {s : Session Digest} {l : Link Digest} {hash : Digest} {received : List UInt8}
      (hat : l.receiver = .connected hash received) (hclosed : s.pipe.closed = true) :
      Action clock s l (.ended (readCloseError s.pipe)) (s, l)
  /-- the receiver closes its end, with `Close` or with an error -/
  | readerClose {s : Session Digest} {l : Link Digest} {hash : Digest} {received : List UInt8}
      (cause : Cause) (hat : l.receiver = .connected hash received) :
      Action clock s l .silent ({ s with pipe := s.pipe.closeReader cause }, l)
  | cleanup {s : Session Digest} {l : Link Digest} {hash : Digest} {received : List UInt8}
      (hat : l.receiver = .connected hash received) :
      Action clock s l .cleaned (beginCleanup hash s l)
  | sendConnected {s : Session Digest} {l : Link Digest} {hash : Digest} {body : List UInt8}
      (hat : l.sender = .waiting hash body) (hready : s.receiverReady = true) :
      Action clock s l .silent (s, { l with sender := .copying hash body [] })
  | sendClosed {s : Session Digest} {l : Link Digest} {hash : Digest} {body : List UInt8}
      (hat : l.sender = .waiting hash body) (hdone : s.done = true) :
      Action clock s l .silent (s, { l with sender := .returned body })
  | sendCancelled {s : Session Digest} {l : Link Digest} {hash : Digest} {body : List UInt8}
      (hat : l.sender = .waiting hash body) :
      Action clock s l .silent (s, { l with sender := .failing hash body .contextEnded })
  | sendExpired {s : Session Digest} {l : Link Digest} {hash : Digest} {body : List UInt8}
      (hat : l.sender = .waiting hash body) (hexpired : s.expiresAt ≤ clock) :
      Action clock s l .silent (s, { l with sender := .failing hash body .expired })
  /-- `io.CopyBuffer` reads a chunk of the body and starts to write it -/
  | copyRead {s : Session Digest} {l : Link Digest} {hash : Digest} {body sent : List UInt8}
      (chunk : List UInt8) (hat : l.sender = .copying hash body sent) (hsome : chunk ≠ [])
      (hbody : sent ++ chunk <+: body) :
      Action clock s l .silent
        ({ s with pipe.pending := chunk }, { l with sender := .writing hash body sent chunk })
  | copyWritten {s : Session Digest} {l : Link Digest} {hash : Digest}
      {body sent chunk : List UInt8} (hat : l.sender = .writing hash body sent chunk)
      (hread : s.pipe.pending = []) :
      Action clock s l .silent (s, { l with sender := .copying hash body (sent ++ chunk) })
  /-- the pipe was closed under the write: it offers its bytes no longer -/
  | writeFailed {s : Session Digest} {l : Link Digest} {hash : Digest}
      {body sent chunk : List UInt8} (hat : l.sender = .writing hash body sent chunk)
      (hclosed : s.pipe.closed = true) :
      Action clock s l .silent
        ({ s with pipe.pending := [] },
          { l with sender := .failing hash body (writeCloseError s.pipe) })
  /-- reading the body failed -/
  | bodyFailed {s : Session Digest} {l : Link Digest} {hash : Digest} {body sent : List UInt8}
      (text : String) (hat : l.sender = .copying hash body sent) :
      Action clock s l .silent (s, { l with sender := .failing hash body (.copy text) })
  | closeFailed {s : Session Digest} {l : Link Digest} {hash : Digest} {body : List UInt8}
      {cause : Cause} (hat : l.sender = .failing hash body cause) :
      Action clock s l .silent
        ({ s with pipe := s.pipe.closeWriter cause }, { l with sender := .burning hash body })
  /-- the body is at its end: the writer is closed, `Send` returns -/
  | sendDone {s : Session Digest} {l : Link Digest} {hash : Digest} {body : List UInt8}
      (hat : l.sender = .copying hash body body) :
      Action clock s l (.sent body.length)
        ({ s with pipe := s.pipe.closeWriter .eof }, { l with sender := .returned body })

variable [DecidableEq Digest]

/-! ### The coordinator -/

/-- `removeLocked` up to its `closeOnce`. -/
def World.remove (w : World Digest) (hash : Digest) (cause : Cause) : World Digest :=
  match w.coord.find hash with
  | none => w
  | some id =>
    let w := { w with
      coord := { w.coord with
        table := Table.delete (fun entry => decide (entry.1 = hash)) w.coord.table } }
    match w.coord.heap id with
    | none => w
    | some s =>
      let (s, l) := beginClose (removal cause) s (w.links id)
      w.put id s l

/-- `RecordFailedAttempt` after the code was normalized. -/
def World.recordFailedAttempt (w : World Digest) (hash : Digest) : World Digest :=
  match w.coord.find hash with
  | none => w
  | some id =>
    match w.coord.heap id with
    | none => w
    | some s =>
      if 3 ≤ s.failedAttempts + 1 then
        (w.put id { s with failedAttempts := s.failedAttempts + 1, burned := true }
          (w.links id)).remove hash .sessionBurned
      else
        w.put id { s with failedAttempts := s.failedAttempts + 1 } (w.links id)

/-- One atomic action. -/
inductive Step (opts : Options) (sha256 : List Char → Digest) :
    World Digest → Label → World Digest → Prop
  | tick {w : World Digest} {after : Nat} (hclock : w.clock ≤ after) :
      Step opts sha256 w .quiet { w with clock := after }
  | init {w : World Digest} {c : Coordinator Digest} {code : List Char}
      (codes : List (List Char)) (salt : List UInt8)
      (hinit : w.coord.init opts sha256 codes salt w.clock = .ok (c, code)) :
      Step opts sha256 w .quiet { w with coord := c }
  | act {w : World Digest} {s s' : Session Digest} {l' : Link Digest} {event : Event} (id : Nat)
      (hheap : w.coord.heap id = some s) (hact : Action w.clock s (w.links id) event (s', l')) :
      Step opts sha256 w (.seen id event) (w.put id s' l')
  /-- the locked part of `Receive` accepts the receiver; a refused one changes nothing -/
  | receiveBegin {w : World Digest} {c : Coordinator Digest} {id : Nat} {code : List Char}
      (raw : String) (hcode : normalizeCode raw = .ok code)
      (hconnect : w.coord.connectReceiver (sha256 code) = (c, .ok id)) :
      Step opts sha256 w (.seen id .receiver)
        { w with
          coord := c
          links := Function.update w.links id
            { w.links id with receiver := .waiting (sha256 code) } }
  /-- the locked part of `Send` accepts the sender -/
  | sendBegin {w : World Digest} {c : Coordinator Digest} {id : Nat} {code : List Char}
      (raw : String) (metadata : SessionMetadata) (body : List UInt8)
      (hcode : normalizeCode raw = .ok code)
      (hconnect : w.coord.connectSender (sha256 code) metadata = (c, .ok id)) :
      Step opts sha256 w (.seen id (.sender body))
        { w with
          coord := c
          links := Function.update w.links id
            { w.links id with sender := .waiting (sha256 code) body } }
  /-- or turns it away, with its metadata written -/
  | sendRefused {w : World Digest} {c : Coordinator Digest} {err : Err} {owner : Option Nat}
      {code : List Char} (raw : String) (metadata : SessionMetadata)
      (hcode : normalizeCode raw = .ok code)
      (hconnect : w.coord.connectSender (sha256 code) metadata = (c, .error (err, owner))) :
      Step opts sha256 w .quiet { w with coord := c }
  /-- a cleanup closure whose `closeOnce` is over -/
  | cleanupBurn {w : World Digest} {s : Session Digest} {hash : Digest} {front back : List Digest}
      (id : Nat) (hheap : w.coord.heap id = some s) (hclosed : (w.links id).closing = [])
      (hat : (w.links id).cleanups = front ++ hash :: back) :
      Step opts sha256 w .quiet
        ((w.put id s { w.links id with cleanups := front ++ back }).remove hash .sessionClosed)
  | sendBurn {w : World Digest} {s : Session Digest} {hash : Digest} {body : List UInt8} (id : Nat)
      (hheap : w.coord.heap id = some s) (hat : (w.links id).sender = .burning hash body) :
      Step opts sha256 w .quiet
        ((w.put id s { w.links id with sender := .returned body }).remove hash .sessionClosed)
  | recordFailed {w : World Digest} {code : List Char} (raw : String)
      (hcode : normalizeCode raw = .ok code) :
      Step opts sha256 w .quiet (w.recordFailedAttempt (sha256 code))
  /-- one entry in the loop of `cleanExpired` -/
  | cleanEntry {w : World Digest} {id : Nat} (now : Nat) (hash : Digest) (hnow : now ≤ w.clock)
      (hfound : w.coord.find hash = some id) (hlapsed : w.coord.lapsed now id = true) :
      Step opts sha256 w .quiet (w.remove hash .expired)
  /-- `Close` stops the cleaner -/
  | stop {w : World Digest} :
      Step opts sha256 w .quiet { w with coord := { w.coord with stopped := true } }
  /-- and one entry in its loop -/
  | closeEntry {w : World Digest} (hash : Digest) (hstopped : w.coord.stopped = true) :
      Step opts sha256 w .quiet (w.remove hash .sessionClosed)

end

end Streams
end Relay
end FlickDrop
