import FlickDrop.Foundations.Runs
import FlickDrop.Relay.Coordinator

/-!
# The relay and its handlers

The coordinator with the HTTP handlers that use it (`internal/httpapi/piperelay.go`).
A handler in flight is a `Call`: where it stands, the session it belongs to and the
hash of the code it was called with, which it uses again long after it found its
session.  Any number of handlers run at once; a step is one locked section of the
coordinator, one choice of a `select`, one action on the pipe, a tick of the cleaner or
the passage of time.  Calls with a code that is not six digits touch nothing and are
left out.
-/

namespace FlickDrop
namespace Relay

open Foundations

inductive Call (Digest : Type) where
  /-- `WaitReceiver` in its `select` -/
  | waiting (hash : Digest) (id : Nat)
  /-- `Receive` in its `select`, the receiver is accepted -/
  | receiving (hash : Digest) (id : Nat)
  /-- `receivePipe` copies from the pipe to the client, under the salt and the metadata
  `Receive` returned -/
  | streaming (hash : Digest) (id : Nat) (salt : List UInt8) (metadata : SessionMetadata)
      (received : List UInt8)
  /-- the cleanup closure is about to run `closeOnce`; `failing` if `Receive` itself runs
  it on the way to an error -/
  | closing (hash : Digest) (id : Nat) (failing : Bool)
  /-- the cleanup closure is about to call `burnSession` -/
  | burning (hash : Digest) (id : Nat) (failing : Bool)
  /-- `Receive` returned an error, `receivePipe` is about to call `RecordFailedAttempt`;
  `owner` is the session the error came from, if one was found -/
  | failed (hash : Digest) (owner : Option Nat)
  /-- `Send` in its `select`, the sender is accepted -/
  | sending (hash : Digest) (id : Nat)
  /-- `Send` is about to read from the body; `sent` went through the pipe -/
  | copying (hash : Digest) (id : Nat) (sent : List UInt8)
  /-- a `Write` of `chunk` is in progress -/
  | writing (hash : Digest) (id : Nat) (sent chunk : List UInt8)
  /-- `Send` closed the writer with an error and is about to call `burnSession` -/
  | sendBurning (hash : Digest) (id : Nat)

section

variable {Digest : Type}

/-- The hash a handler still carries. -/
def Call.hash : Call Digest → Digest
  | .waiting hash _ | .receiving hash _ | .streaming hash _ _ _ _ | .closing hash _ _
  | .burning hash _ _ | .failed hash _ | .sending hash _ | .copying hash _ _
  | .writing hash _ _ _ | .sendBurning hash _ => hash

/-- The session a handler belongs to. -/
def Call.owner : Call Digest → Option Nat
  | .waiting _ id | .receiving _ id | .streaming _ id _ _ _ | .closing _ id _
  | .burning _ id _ | .sending _ id | .copying _ id _
  | .writing _ id _ _ | .sendBurning _ id => some id
  | .failed _ owner => owner

structure World (Digest : Type) where
  clock : Nat
  coord : Coordinator Digest
  calls : Nat → Option (Call Digest)

def World.start [DecidableEq Digest] (clock : Nat) : World Digest where
  clock := clock
  coord := Coordinator.empty
  calls := fun _ => none

def World.setCall (w : World Digest) (pid : Nat) (call : Option (Call Digest)) : World Digest :=
  { w with calls := Function.update w.calls pid call }

def World.setCoord (w : World Digest) (c : Coordinator Digest) : World Digest :=
  { w with coord := c }

/-- An action on the pipe of session `id`. -/
def World.onPipe [DecidableEq Digest] (w : World Digest) (id : Nat) (change : Pipe → Pipe) :
    World Digest :=
  { w with coord := w.coord.modify id fun s => { s with pipe := change s.pipe } }

/-- What a step is: outside every session, or an action of a handler that belongs to
`owner`. -/
inductive Label (Digest : Type) where
  | tick
  | init (hash : Digest)
  | clean (now : Nat)
  | close
  /-- `WaitReceiver` -/
  | wait (owner : Option Nat)
  /-- `Receive` is called, with a code of this hash -/
  | receive (hash : Digest) (owner : Option Nat)
  /-- `Send` is called and accepted -/
  | send (hash : Digest) (owner : Option Nat)
  /-- `Send` is called with this metadata and turned away -/
  | rejectedSend (hash : Digest) (metadata : SessionMetadata) (owner : Option Nat)
  /-- a `Receive` or `Send` goes on -/
  | receiver (owner : Option Nat)
  | sender (owner : Option Nat)

/-- The session a step belongs to, for the steps of handlers. -/
def Label.handler : Label Digest → Option (Option Nat)
  | .wait owner | .receive _ owner | .send _ owner | .rejectedSend _ _ owner | .receiver owner
  | .sender owner => some owner
  | .tick | .init _ | .clean _ | .close => none

/-- The hash of the code that a `Receive` or `Send` is called with. -/
def Label.called : Label Digest → Option Digest
  | .receive hash _ | .send hash _ | .rejectedSend hash _ _ => some hash
  | .tick | .init _ | .clean _ | .close | .wait _ | .receiver _ | .sender _ => none

end

section

variable {Digest : Type} [DecidableEq Digest]

/-- One atomic action. -/
inductive Step (opts : Options) (sha256 : List Char → Digest) :
    World Digest → Label Digest → World Digest → Prop
  | tick {w : World Digest} {after : Nat} (hclock : w.clock ≤ after) :
      Step opts sha256 w .tick { w with clock := after }
  | init {w : World Digest} {c : Coordinator Digest} {code : List Char}
      (codes : List (List Char)) (salt : List UInt8)
      (hinit : w.coord.init opts sha256 codes salt w.clock = .ok (c, code)) :
      Step opts sha256 w (.init (sha256 code)) (w.setCoord c)
  /-- the ticker delivers an instant that is not in the future -/
  | clean {w : World Digest} (now : Nat) (hnow : now ≤ w.clock) :
      Step opts sha256 w (.clean now) (w.setCoord (w.coord.cleanExpired now))
  | close {w : World Digest} : Step opts sha256 w .close (w.setCoord w.coord.close)
  /-- `WaitReceiver` finds its session -/
  | waitBegin {w : World Digest} {id : Nat} {code : List Char} (pid : Nat) (raw : String)
      (hfree : w.calls pid = none) (hcode : normalizeCode raw = .ok code)
      (hfound : w.coord.find (sha256 code) = some id) :
      Step opts sha256 w (.wait (some id)) (w.setCall pid (some (.waiting (sha256 code) id)))
  /-- it returns: the receiver is there, the session is closed or expired, or its context
  ended -/
  | waitEnd {w : World Digest} {hash : Digest} {id : Nat} (pid : Nat)
      (hat : w.calls pid = some (.waiting hash id)) :
      Step opts sha256 w (.wait (some id)) (w.setCall pid none)
  /-- the locked part of `Receive` accepts the receiver -/
  | receiveBegin {w : World Digest} {c : Coordinator Digest} {id : Nat} {code : List Char}
      (pid : Nat) (raw : String) (hfree : w.calls pid = none)
      (hcode : normalizeCode raw = .ok code)
      (hconnect : w.coord.connectReceiver (sha256 code) = (c, .ok id)) :
      Step opts sha256 w (.receive (sha256 code) (some id))
        ((w.setCoord c).setCall pid (some (.receiving (sha256 code) id)))
  /-- or turns it away -/
  | receiveRefused {w : World Digest} {c : Coordinator Digest} {err : Err} {owner : Option Nat}
      {code : List Char} (pid : Nat) (raw : String) (hfree : w.calls pid = none)
      (hcode : normalizeCode raw = .ok code)
      (hconnect : w.coord.connectReceiver (sha256 code) = (c, .error (err, owner))) :
      Step opts sha256 w (.receive (sha256 code) owner)
        ((w.setCoord c).setCall pid (some (.failed (sha256 code) owner)))
  /-- the sender is there: the pipe is handed to the client -/
  | receiveConnected {w : World Digest} {hash : Digest} {id : Nat} {s : Session Digest} (pid : Nat)
      (hat : w.calls pid = some (.receiving hash id)) (hheap : w.coord.heap id = some s)
      (hready : s.senderReady = true) :
      Step opts sha256 w (.receiver (some id))
        (w.setCall pid (some (.streaming hash id s.salt ⟨s.kind, s.encryptedFilename⟩ [])))
  | receiveClosed {w : World Digest} {hash : Digest} {id : Nat} {s : Session Digest} (pid : Nat)
      (hat : w.calls pid = some (.receiving hash id)) (hheap : w.coord.heap id = some s)
      (hdone : s.done = true) :
      Step opts sha256 w (.receiver (some id)) (w.setCall pid (some (.failed hash (some id))))
  /-- the context ends or the session expires while the receiver waits -/
  | receiveCancelled {w : World Digest} {hash : Digest} {id : Nat} (pid : Nat)
      (hat : w.calls pid = some (.receiving hash id)) :
      Step opts sha256 w (.receiver (some id)) (w.setCall pid (some (.closing hash id true)))
  | receiveExpired {w : World Digest} {hash : Digest} {id : Nat} {s : Session Digest} (pid : Nat)
      (hat : w.calls pid = some (.receiving hash id)) (hheap : w.coord.heap id = some s)
      (hexpired : s.expiresAt ≤ w.clock) :
      Step opts sha256 w (.receiver (some id)) (w.setCall pid (some (.closing hash id true)))
  /-- the client reads some of the pending bytes -/
  | read {w : World Digest} {hash : Digest} {id : Nat} {salt received : List UInt8}
      {metadata : SessionMetadata} {s : Session Digest} (pid n : Nat)
      (hat : w.calls pid = some (.streaming hash id salt metadata received))
      (hheap : w.coord.heap id = some s) (hopen : s.pipe.closed = false) :
      Step opts sha256 w (.receiver (some id))
        ((w.onPipe id fun p => { p with pending := p.pending.drop n }).setCall pid
          (some (.streaming hash id salt metadata (received ++ s.pipe.pending.take n))))
  /-- the copy ends, at the end of the stream or with an error on either side, and the
  deferred `pr.Close` runs -/
  | readEnd {w : World Digest} {hash : Digest} {id : Nat} {salt received : List UInt8}
      {metadata : SessionMetadata} (pid : Nat)
      (hat : w.calls pid = some (.streaming hash id salt metadata received)) :
      Step opts sha256 w (.receiver (some id))
        ((w.onPipe id (Pipe.closeReader .closedPipe)).setCall pid (some (.closing hash id false)))
  | cleanupClose {w : World Digest} {hash : Digest} {id : Nat} {failing : Bool} (pid : Nat)
      (hat : w.calls pid = some (.closing hash id failing)) :
      Step opts sha256 w (.receiver (some id))
        ((w.setCoord (w.coord.modify id Session.cleanup)).setCall pid
          (some (.burning hash id failing)))
  | cleanupBurn {w : World Digest} {hash : Digest} {id : Nat} {failing : Bool} (pid : Nat)
      (hat : w.calls pid = some (.burning hash id failing)) :
      Step opts sha256 w (.receiver (some id))
        ((w.setCoord (w.coord.burnSession hash)).setCall pid
          (if failing then some (.failed hash (some id)) else none))
  /-- `receivePipe` records the failed attempt under its code -/
  | recordFailed {w : World Digest} {hash : Digest} {owner : Option Nat} (pid : Nat)
      (hat : w.calls pid = some (.failed hash owner)) :
      Step opts sha256 w (.receiver owner)
        ((w.setCoord (w.coord.recordFailedAttempt hash).1).setCall pid none)
  /-- the locked part of `Send` accepts the sender -/
  | sendBegin {w : World Digest} {c : Coordinator Digest} {id : Nat} {code : List Char}
      (pid : Nat) (raw : String) (metadata : SessionMetadata) (hfree : w.calls pid = none)
      (hcode : normalizeCode raw = .ok code)
      (hconnect : w.coord.connectSender (sha256 code) metadata = (c, .ok id)) :
      Step opts sha256 w (.send (sha256 code) (some id))
        ((w.setCoord c).setCall pid (some (.sending (sha256 code) id)))
  /-- or turns it away -/
  | sendRefused {w : World Digest} {c : Coordinator Digest} {err : Err} {owner : Option Nat}
      {code : List Char} (raw : String) (metadata : SessionMetadata)
      (hcode : normalizeCode raw = .ok code)
      (hconnect : w.coord.connectSender (sha256 code) metadata = (c, .error (err, owner))) :
      Step opts sha256 w (.rejectedSend (sha256 code) metadata owner) (w.setCoord c)
  | sendConnected {w : World Digest} {hash : Digest} {id : Nat} {s : Session Digest} (pid : Nat)
      (hat : w.calls pid = some (.sending hash id)) (hheap : w.coord.heap id = some s)
      (hready : s.receiverReady = true) :
      Step opts sha256 w (.sender (some id)) (w.setCall pid (some (.copying hash id [])))
  | sendClosed {w : World Digest} {hash : Digest} {id : Nat} {s : Session Digest} (pid : Nat)
      (hat : w.calls pid = some (.sending hash id)) (hheap : w.coord.heap id = some s)
      (hdone : s.done = true) :
      Step opts sha256 w (.sender (some id)) (w.setCall pid none)
  | sendCancelled {w : World Digest} {hash : Digest} {id : Nat} (pid : Nat)
      (hat : w.calls pid = some (.sending hash id)) :
      Step opts sha256 w (.sender (some id))
        ((w.onPipe id (Pipe.closeWriter .contextEnded)).setCall pid (some (.sendBurning hash id)))
  | sendExpired {w : World Digest} {hash : Digest} {id : Nat} {s : Session Digest} (pid : Nat)
      (hat : w.calls pid = some (.sending hash id)) (hheap : w.coord.heap id = some s)
      (hexpired : s.expiresAt ≤ w.clock) :
      Step opts sha256 w (.sender (some id))
        ((w.onPipe id (Pipe.closeWriter .expired)).setCall pid (some (.sendBurning hash id)))
  /-- `io.CopyBuffer` reads a chunk from the body and starts to write it -/
  | copyRead {w : World Digest} {hash : Digest} {id : Nat} {sent : List UInt8}
      {s : Session Digest} (pid : Nat) (chunk : List UInt8)
      (hat : w.calls pid = some (.copying hash id sent)) (hheap : w.coord.heap id = some s)
      (hopen : s.pipe.closed = false) :
      Step opts sha256 w (.sender (some id))
        ((w.onPipe id fun p => { p with pending := chunk }).setCall pid
          (some (.writing hash id sent chunk)))
  /-- the write returns once all its bytes are read -/
  | copyWritten {w : World Digest} {hash : Digest} {id : Nat} {sent chunk : List UInt8}
      {s : Session Digest} (pid : Nat) (hat : w.calls pid = some (.writing hash id sent chunk))
      (hheap : w.coord.heap id = some s) (hread : s.pipe.pending = []) :
      Step opts sha256 w (.sender (some id))
        (w.setCall pid (some (.copying hash id (sent ++ chunk))))
  /-- the pipe was closed under the write, or reading the body failed -/
  | copyFailed {w : World Digest} {call : Call Digest} {hash : Digest} {id : Nat} (pid : Nat)
      (text : String) (hat : w.calls pid = some call)
      (hcall : (∃ sent, call = .copying hash id sent) ∨
        ∃ sent chunk, call = .writing hash id sent chunk) :
      Step opts sha256 w (.sender (some id))
        ((w.onPipe id (Pipe.closeWriter (.copy text))).setCall pid (some (.sendBurning hash id)))
  | sendBurn {w : World Digest} {hash : Digest} {id : Nat} (pid : Nat)
      (hat : w.calls pid = some (.sendBurning hash id)) :
      Step opts sha256 w (.sender (some id))
        ((w.setCoord (w.coord.burnSession hash)).setCall pid none)
  /-- the body ends: the writer is closed with a clean end of stream -/
  | sendDone {w : World Digest} {hash : Digest} {id : Nat} {sent : List UInt8} (pid : Nat)
      (hat : w.calls pid = some (.copying hash id sent)) :
      Step opts sha256 w (.sender (some id))
        ((w.onPipe id (Pipe.closeWriter .eof)).setCall pid none)

end

end Relay
end FlickDrop
