import FlickDrop.Relay.Isolation
import FlickDrop.Relay.Streams

/-!
# The locks of the relay

The coordinator once more, at the grain of its synchronisation: the lock `c.mu`, the three
`sync.Once` of a session and the channels they guard.  A `close` of a channel is a step of its
own and is named by the label of that step, so that a channel closed twice, which panics in
Go, shows in the labels of a run.  What guards a `close` is what guards it in the source, a
`Once` or a `select`, never the state of the channel.

A thread is one call of a method of the coordinator, or the cleaner.  A locked section that
removes nothing is one step, taken while the lock is free.  A section that removes sessions
takes the lock, goes through its entries, and meanwhile every other thread may run that does
not want the lock: cleanup closures run their `closeOnce` outside it, and a removal then
waits for them while it holds the lock.  The bytes in the pipes are those of
`Relay/Streams.lean`; here a copy is one place.  Refused calls that write nothing are left
out.
-/

namespace FlickDrop
namespace Relay
namespace Locks

open Foundations
open Streams (Closing)

inductive Tid where
  | cleaner
  | call (pid : Nat)
  deriving DecidableEq, Repr

/-- A `sync.Once`: `Do` runs its body if it is the first, waits while another thread runs
it, and returns at once when it is over. -/
inductive Once where
  | idle
  | running (t : Tid)
  | finished
  deriving DecidableEq, Repr

inductive Channel where
  | receiverReady (id : Nat)
  | senderReady (id : Nat)
  | done (id : Nat)
  | stopClean
  | cleanDone
  deriving DecidableEq, Repr

/-- What a thread does once it has released the lock. -/
inductive Exit where
  | returned
  /-- `Close` waits for the cleaner -/
  | awaitCleaner
  /-- the cleaner goes back to its `select` -/
  | select
  deriving DecidableEq, Repr

/-- A call of `removeLocked` that a locked section will make; `cleanExpired` makes it only
for a session that has expired by `lapsedAt`. -/
structure Visit (Digest : Type) where
  hash : Digest
  cause : Cause
  lapsedAt : Option Nat
  deriving DecidableEq, Repr

/-- Where a thread goes on after `closeOnce.Do`. -/
inductive Back (Digest : Type) where
  /-- `removeLocked`, in a section with more visits to make -/
  | removal (todo : List (Visit Digest)) (exit : Exit)
  /-- the cleanup closure of `Receive` -/
  | cleanup (hash : Digest)
  deriving DecidableEq, Repr

/-- Where a thread stands. -/
inductive Pc (Digest : Type) where
  /-- `WaitReceiver` in its `select` -/
  | waiting (id : Nat)
  /-- `Receive` in its `select` -/
  | receiving (hash : Digest) (id : Nat)
  /-- `Receive` returned the reader and the cleanup closure -/
  | connected (hash : Digest) (id : Nat)
  /-- `Send` in its `select` -/
  | sending (hash : Digest) (id : Nat)
  /-- `Send` in `io.CopyBuffer` -/
  | copying (hash : Digest) (id : Nat)
  /-- `Send` is about to close the writer with an error -/
  | failing (hash : Digest) (id : Nat) (cause : Cause)
  /-- about to call `burnSession` -/
  | burning (hash : Digest)
  /-- `Close` waits for `cleanDone` -/
  | awaitCleaner
  /-- the cleaner in its `select` -/
  | select
  /-- about to call `closeOnce.Do` with a body that closes `done` and then `closes` -/
  | doOnce (id : Nat) (closes : List Closing) (back : Back Digest)
  /-- in the body, about to close `done` -/
  | closeDone (id : Nat) (closes : List Closing) (back : Back Digest)
  /-- in the body, with these closes left -/
  | closing (id : Nat) (closes : List Closing) (back : Back Digest)
  /-- holds the lock, with these visits left -/
  | visiting (todo : List (Visit Digest)) (exit : Exit)
  deriving DecidableEq, Repr

section

variable {Digest : Type}

def Exit.pc : Exit → Option (Pc Digest)
  | .returned => none
  | .awaitCleaner => some .awaitCleaner
  | .select => some .select

def Back.pc : Back Digest → Pc Digest
  | .removal todo exit => .visiting todo exit
  | .cleanup hash => .burning hash

structure World (Digest : Type) where
  clock : Nat
  coord : Coordinator Digest
  receiverOnce : Nat → Once
  senderOnce : Nat → Once
  closeOnce : Nat → Once
  cleanDone : Bool
  mu : Option Tid
  threads : Tid → Option (Pc Digest)

/-- `NewCoordinator`: the cleaner runs. -/
def World.start [DecidableEq Digest] (clock : Nat) : World Digest where
  clock := clock
  coord := Coordinator.empty
  receiverOnce := fun _ => .idle
  senderOnce := fun _ => .idle
  closeOnce := fun _ => .idle
  cleanDone := false
  mu := none
  threads := Function.update (fun _ => none) .cleaner (some .select)

def World.setThread (w : World Digest) (t : Tid) (pc : Option (Pc Digest)) : World Digest :=
  { w with threads := Function.update w.threads t pc }

def World.setSession (w : World Digest) (id : Nat) (s : Session Digest) : World Digest :=
  { w with coord := { w.coord with heap := Function.update w.coord.heap id (some s) } }

/-- A thread takes the lock to make some visits. -/
def World.lock (w : World Digest) (t : Tid) (todo : List (Visit Digest)) (exit : Exit) :
    World Digest :=
  { w with mu := some t, threads := Function.update w.threads t (some (.visiting todo exit)) }

/-- Whether a channel is closed. -/
def World.closed (w : World Digest) : Channel → Bool
  | .receiverReady id => (w.coord.heap id).any Session.receiverReady
  | .senderReady id => (w.coord.heap id).any Session.senderReady
  | .done id => (w.coord.heap id).any Session.done
  | .stopClean => w.coord.stopped
  | .cleanDone => w.cleanDone

/-- The session whose channels and pipe a thread waits for. -/
def Pc.session : Pc Digest → Option Nat
  | .waiting id | .receiving _ id | .connected _ id | .sending _ id | .copying _ id => some id
  | _ => none

/-- Whether a thread may have to wait for another party of its session: no branch of its
`select` on the session's channels is ready, or its reads and writes wait in the pipe. -/
def Pc.blocked (s : Session Digest) : Pc Digest → Bool
  | .waiting _ | .sending _ _ => !s.receiverReady && !s.done
  | .receiving _ _ => !s.senderReady && !s.done
  | .connected _ _ | .copying _ _ => !s.pipe.closed
  | _ => false

variable [DecidableEq Digest]

/-- The moves of a call that change nothing but its own place. -/
inductive Goes (sha256 : List Char → Digest) (w : World Digest) :
    Option (Pc Digest) → Option (Pc Digest) → Prop
  /-- `WaitReceiver` finds its session under the read lock -/
  | waitReceiver {id : Nat} {code : List Char} (raw : String) (hfree : w.mu = none)
      (hcode : normalizeCode raw = .ok code)
      (hfound : w.coord.find (sha256 code) = some id) : Goes sha256 w none (some (.waiting id))
  /-- it returns: the receiver is there, the session is closed or expired, or its context
  ended -/
  | waited {id : Nat} : Goes sha256 w (some (.waiting id)) none
  | receiveConnected {hash : Digest} {id : Nat} {s : Session Digest}
      (hheap : w.coord.heap id = some s) (hready : s.senderReady = true) :
      Goes sha256 w (some (.receiving hash id)) (some (.connected hash id))
  | receiveClosed {hash : Digest} {id : Nat} {s : Session Digest}
      (hheap : w.coord.heap id = some s) (hdone : s.done = true) :
      Goes sha256 w (some (.receiving hash id)) none
  /-- the context ends while the receiver waits: `Receive` calls the cleanup closure -/
  | receiveCancelled {hash : Digest} {id : Nat} :
      Goes sha256 w (some (.receiving hash id)) (some (.doOnce id Streams.cleanup (.cleanup hash)))
  | receiveExpired {hash : Digest} {id : Nat} {s : Session Digest}
      (hheap : w.coord.heap id = some s) (hexpired : s.expiresAt ≤ w.clock) :
      Goes sha256 w (some (.receiving hash id)) (some (.doOnce id Streams.cleanup (.cleanup hash)))
  /-- somebody calls a cleanup closure that `Receive` returned, maybe not for the first
  time -/
  | cleanup {hash : Digest} {id : Nat} (holder : Tid)
      (hholder : w.threads holder = some (.connected hash id)) :
      Goes sha256 w none (some (.doOnce id Streams.cleanup (.cleanup hash)))
  | sendConnected {hash : Digest} {id : Nat} {s : Session Digest}
      (hheap : w.coord.heap id = some s) (hready : s.receiverReady = true) :
      Goes sha256 w (some (.sending hash id)) (some (.copying hash id))
  | sendClosed {hash : Digest} {id : Nat} {s : Session Digest}
      (hheap : w.coord.heap id = some s) (hdone : s.done = true) :
      Goes sha256 w (some (.sending hash id)) none
  | sendCancelled {hash : Digest} {id : Nat} :
      Goes sha256 w (some (.sending hash id)) (some (.failing hash id .contextEnded))
  | sendExpired {hash : Digest} {id : Nat} {s : Session Digest}
      (hheap : w.coord.heap id = some s) (hexpired : s.expiresAt ≤ w.clock) :
      Goes sha256 w (some (.sending hash id)) (some (.failing hash id .expired))
  /-- reading the body failed, or the pipe was closed under a write -/
  | copyFailed {hash : Digest} {id : Nat} (cause : Cause) :
      Goes sha256 w (some (.copying hash id)) (some (.failing hash id cause))
  /-- the last line of `Close` -/
  | closed (hdone : w.cleanDone = true) : Goes sha256 w (some .awaitCleaner) none

/-- The actions of a call that write to one session and close no channel. -/
inductive Writes (sha256 : List Char → Digest) (w : World Digest) (id : Nat)
    (s : Session Digest) : Option (Pc Digest) → Session Digest → Option (Pc Digest) → Prop
  /-- a second `Send` leaves its metadata and is turned away -/
  | sendAgain {code : List Char} (raw : String) (metadata : SessionMetadata)
      (hfree : w.mu = none) (hcode : normalizeCode raw = .ok code)
      (hfound : w.coord.find (sha256 code) = some id) (hburned : s.burned = false)
      (honce : w.senderOnce id = .finished) :
      Writes sha256 w id s none
        { s with kind := metadata.kind, encryptedFilename := metadata.encryptedFilename } none
  | closeFailed {hash : Digest} {cause : Cause} :
      Writes sha256 w id s (some (.failing hash id cause))
        { s with pipe := s.pipe.closeWriter cause } (some (.burning hash))
  | sendDone {hash : Digest} :
      Writes sha256 w id s (some (.copying hash id))
        { s with pipe := s.pipe.closeWriter .eof } none
  /-- the receiver closes the reader it was given -/
  | readerClose {hash : Digest} (cause : Cause) :
      Writes sha256 w id s (some (.connected hash id))
        { s with pipe := s.pipe.closeReader cause } (some (.connected hash id))
  /-- `RecordFailedAttempt`, below the limit -/
  | failedAttempt {code : List Char} (raw : String) (hfree : w.mu = none)
      (hcode : normalizeCode raw = .ok code)
      (hfound : w.coord.find (sha256 code) = some id) (hfew : s.failedAttempts + 1 < 3) :
      Writes sha256 w id s none { s with failedAttempts := s.failedAttempts + 1 } none

/-- One atomic action, with the channel it closes. -/
inductive Step (opts : Options) (sha256 : List Char → Digest) :
    World Digest → Option Channel → World Digest → Prop
  | tick {w : World Digest} {after : Nat} (hclock : w.clock ≤ after) :
      Step opts sha256 w none { w with clock := after }
  | init {w : World Digest} {c : Coordinator Digest} {code : List Char}
      (codes : List (List Char)) (salt : List UInt8) (hfree : w.mu = none)
      (hinit : w.coord.init opts sha256 codes salt w.clock = .ok (c, code)) :
      Step opts sha256 w none
        { w with
          coord := c
          receiverOnce := Function.update w.receiverOnce w.coord.next .idle
          senderOnce := Function.update w.senderOnce w.coord.next .idle
          closeOnce := Function.update w.closeOnce w.coord.next .idle }
  | goes {w : World Digest} {pc pc' : Option (Pc Digest)} (pid : Nat)
      (hat : w.threads (.call pid) = pc) (hgoes : Goes sha256 w pc pc') :
      Step opts sha256 w none (w.setThread (.call pid) pc')
  | writes {w : World Digest} {pc pc' : Option (Pc Digest)} {id : Nat} {s s' : Session Digest}
      (pid : Nat) (hat : w.threads (.call pid) = pc) (hheap : w.coord.heap id = some s)
      (hwrites : Writes sha256 w id s pc s' pc') :
      Step opts sha256 w none ((w.setSession id s').setThread (.call pid) pc')
  /-- the locked part of `Receive`: its thread is the first at `receiverOnce` -/
  | receiveBegin {w : World Digest} {id : Nat} {s : Session Digest} {code : List Char} (pid : Nat)
      (raw : String) (hat : w.threads (.call pid) = none) (hfree : w.mu = none)
      (hcode : normalizeCode raw = .ok code) (hfound : w.coord.find (sha256 code) = some id)
      (hheap : w.coord.heap id = some s) (hburned : s.burned = false)
      (honce : w.receiverOnce id = .idle) :
      Step opts sha256 w (some (.receiverReady id))
        { (w.setSession id { s with receiverReady := true }).setThread (.call pid)
            (some (.receiving (sha256 code) id)) with
          receiverOnce := Function.update w.receiverOnce id .finished }
  /-- the locked part of `Send`: its thread is the first at `senderOnce` -/
  | sendBegin {w : World Digest} {id : Nat} {s : Session Digest} {code : List Char} (pid : Nat)
      (raw : String) (metadata : SessionMetadata) (hat : w.threads (.call pid) = none)
      (hfree : w.mu = none) (hcode : normalizeCode raw = .ok code)
      (hfound : w.coord.find (sha256 code) = some id) (hheap : w.coord.heap id = some s)
      (hburned : s.burned = false) (honce : w.senderOnce id = .idle) :
      Step opts sha256 w (some (.senderReady id))
        { (w.setSession id
            { s with
              kind := metadata.kind
              encryptedFilename := metadata.encryptedFilename
              senderReady := true }).setThread (.call pid)
            (some (.sending (sha256 code) id)) with
          senderOnce := Function.update w.senderOnce id .finished }
  /-- `burnSession` takes the lock -/
  | burnSession {w : World Digest} {hash : Digest} (pid : Nat)
      (hat : w.threads (.call pid) = some (.burning hash)) (hfree : w.mu = none) :
      Step opts sha256 w none (w.lock (.call pid) [⟨hash, .sessionClosed, none⟩] .returned)
  /-- `RecordFailedAttempt` takes the lock and burns the session -/
  | burn {w : World Digest} {id : Nat} {s : Session Digest} {code : List Char} (pid : Nat)
      (raw : String) (hat : w.threads (.call pid) = none) (hfree : w.mu = none)
      (hcode : normalizeCode raw = .ok code) (hfound : w.coord.find (sha256 code) = some id)
      (hheap : w.coord.heap id = some s) (hmany : 3 ≤ s.failedAttempts + 1) :
      Step opts sha256 w none
        ((w.setSession id
            { s with failedAttempts := s.failedAttempts + 1, burned := true }).lock (.call pid)
          [⟨sha256 code, .sessionBurned, none⟩] .returned)
  /-- `Close` takes the lock and closes `stopClean`; the map is ranged over in any order.  A
  `Close` that finds `stopClean` closed returns. -/
  | close {w : World Digest} {order : List Digest} (pid : Nat)
      (hat : w.threads (.call pid) = none) (hfree : w.mu = none)
      (hopen : w.coord.stopped = false) (horder : order.Perm (w.coord.table.map Prod.fst)) :
      Step opts sha256 w (some .stopClean)
        ({ w with coord := { w.coord with stopped := true } }.lock (.call pid)
          (order.map fun hash => ⟨hash, .sessionClosed, none⟩) .awaitCleaner)
  /-- the ticker delivers an instant that is not in the future: `cleanExpired` takes the
  lock -/
  | clean {w : World Digest} {order : List Digest} (now : Nat)
      (hat : w.threads .cleaner = some .select) (hfree : w.mu = none) (hnow : now ≤ w.clock)
      (horder : order.Perm (w.coord.table.map Prod.fst)) :
      Step opts sha256 w none
        (w.lock .cleaner (order.map fun hash => ⟨hash, .expired, some now⟩) .select)
  /-- the cleaner sees `stopClean` and returns; its `defer` closes `cleanDone` -/
  | stop {w : World Digest} (hat : w.threads .cleaner = some .select)
      (hstopped : w.coord.stopped = true) :
      Step opts sha256 w (some .cleanDone) { w.setThread .cleaner none with cleanDone := true }
  /-- `removeLocked` finds no session -/
  | absent {w : World Digest} {v : Visit Digest} {todo : List (Visit Digest)} {exit : Exit}
      (t : Tid) (hat : w.threads t = some (.visiting (v :: todo) exit))
      (hfound : w.coord.find v.hash = none) :
      Step opts sha256 w none (w.setThread t (some (.visiting todo exit)))
  /-- `cleanExpired` passes over a session that has not expired -/
  | young {w : World Digest} {v : Visit Digest} {todo : List (Visit Digest)} {exit : Exit}
      {id now : Nat} (t : Tid) (hat : w.threads t = some (.visiting (v :: todo) exit))
      (hfound : w.coord.find v.hash = some id) (hnow : v.lapsedAt = some now)
      (hyoung : w.coord.lapsed now id = false) :
      Step opts sha256 w none (w.setThread t (some (.visiting todo exit)))
  /-- `removeLocked` takes the session out of the map -/
  | remove {w : World Digest} {v : Visit Digest} {todo : List (Visit Digest)} {exit : Exit}
      {id : Nat} (t : Tid) (hat : w.threads t = some (.visiting (v :: todo) exit))
      (hfound : w.coord.find v.hash = some id)
      (hlapsed : ∀ now, v.lapsedAt = some now → w.coord.lapsed now id = true) :
      Step opts sha256 w none
        { w.setThread t (some (.doOnce id (Streams.removal v.cause) (.removal todo exit))) with
          coord := { w.coord with
            table := Table.delete (fun entry => decide (entry.1 = v.hash)) w.coord.table } }
  | unlock {w : World Digest} {exit : Exit} (t : Tid)
      (hat : w.threads t = some (.visiting [] exit)) :
      Step opts sha256 w none { w.setThread t exit.pc with mu := none }
  /-- the first `Do` of a `closeOnce` -/
  | onceEnter {w : World Digest} {id : Nat} {s : Session Digest} {closes : List Closing}
      {back : Back Digest} (t : Tid) (hat : w.threads t = some (.doOnce id closes back))
      (hheap : w.coord.heap id = some s) (honce : w.closeOnce id = .idle) :
      Step opts sha256 w none
        { w.setThread t (some (.closeDone id closes back)) with
          closeOnce := Function.update w.closeOnce id (.running t) }
  /-- a later one, when the first is over -/
  | onceSkip {w : World Digest} {id : Nat} {closes : List Closing} {back : Back Digest} (t : Tid)
      (hat : w.threads t = some (.doOnce id closes back)) (honce : w.closeOnce id = .finished) :
      Step opts sha256 w none (w.setThread t (some back.pc))
  | onceDone {w : World Digest} {id : Nat} {s : Session Digest} {closes : List Closing}
      {back : Back Digest} (t : Tid) (hat : w.threads t = some (.closeDone id closes back))
      (hheap : w.coord.heap id = some s) :
      Step opts sha256 w (some (.done id))
        ((w.setSession id { s with done := true }).setThread t (some (.closing id closes back)))
  | onceClose {w : World Digest} {id : Nat} {s : Session Digest} {next : Closing}
      {closes : List Closing} {back : Back Digest} (t : Tid)
      (hat : w.threads t = some (.closing id (next :: closes) back))
      (hheap : w.coord.heap id = some s) :
      Step opts sha256 w none
        ((w.setSession id { s with pipe := next.run s.pipe }).setThread t
          (some (.closing id closes back)))
  | onceLeave {w : World Digest} {id : Nat} {back : Back Digest} (t : Tid)
      (hat : w.threads t = some (.closing id [] back)) :
      Step opts sha256 w none
        { w.setThread t (some back.pc) with
          closeOnce := Function.update w.closeOnce id .finished }

end

end Locks
end Relay
end FlickDrop
