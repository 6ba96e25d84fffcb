import Mathlib.Logic.Function.Basic
import FlickDrop.Foundations.Runs
import FlickDrop.Worker.Processor

/-!
# The cleanup pipeline as one system

Producers commit events to the outbox, `PublishDue` loops send them to the broker,
workers take deliveries through `Process`, and scanners claim orphaned objects.  Three
stores (the API database, the stream and the worker database) advance on their own;
the calls in flight are numbered, and every step is one atomic action of one of them.

* A publisher's `Publish` may store the message and report success, store it and report
  an error, or fail without storing it.
* The broker keeps a message until it is acked or terminated, and hands it out any
  number of times while it holds it.
* Every call in flight can disappear at any point, which is a crash, a cancelled context
  or a database failure.
* Acknowledgements reach the API in any order, repeated and late.
-/

namespace FlickDrop
namespace Pipeline

open Foundations Events Worker

/-- What the deployment fixes. -/
structure Config where
  codec : Codec
  /-- comparison of two stored timestamps -/
  textLe : Nat → Nat → Bool
  subject : String
  retryDelay : Nat
  maxAttempts : Nat
  /-- `NewProcessor` accepts no other value -/
  maxAttempts_pos : 1 ≤ maxAttempts
  /-- whether the processor has an acknowledger -/
  acknowledger : Bool

structure Message where
  seq : Nat
  payload : String
  deriving DecidableEq, Repr

/-- Where one delivery stands in `ConsumeMessages`. -/
inductive Delivery where
  /-- handed out by the broker -/
  | fetched (m : Message)
  /-- `Start` claimed an attempt, the handler runs -/
  | started (m : Message) (e : JobEvent) (attempt : Attempt)
  /-- the handler returned, the attempt is about to be finished -/
  | handled (m : Message) (e : JobEvent) (attempt : Attempt) (jobErr : Option Failure)
  /-- the body of `Process` returned, its deferred acknowledgement comes next -/
  | processed (m : Message) (e : JobEvent) (result : ProcessResult) (err : Option Failure)
  /-- the action is decided, the broker is told next -/
  | resolved (m : Message) (action : MessageAction)

structure World where
  clock : Nat
  outbox : List OutboxRow
  books : Area → Book
  stream : List Message
  lastSeq : Nat
  worker : Worker.DB
  publishers : Nat → Option Publisher
  scanners : Nat → Option Scanner
  deliveries : Nat → Option Delivery

def World.init (clock : Nat) : World where
  clock := clock
  outbox := []
  books := fun _ => Book.fresh
  stream := []
  lastSeq := 0
  worker := DB.empty
  publishers := fun _ => none
  scanners := fun _ => none
  deliveries := fun _ => none

def World.setPublisher (w : World) (pid : Nat) (p : Option Publisher) : World :=
  { w with publishers := Function.update w.publishers pid p }

def World.setScanner (w : World) (pid : Nat) (s : Option Scanner) : World :=
  { w with scanners := Function.update w.scanners pid s }

def World.setDelivery (w : World) (pid : Nat) (d : Option Delivery) : World :=
  { w with deliveries := Function.update w.deliveries pid d }

def World.setBook (w : World) (area : Area) (book : Book) : World :=
  { w with books := Function.update w.books area book }

/-- The broker stores a message. -/
def World.push (w : World) (payload : String) : World :=
  { w with stream := w.stream ++ [⟨w.lastSeq + 1, payload⟩], lastSeq := w.lastSeq + 1 }

/-- The broker lets go of a message. -/
def World.drop (w : World) (m : Message) : World :=
  { w with stream := w.stream.filter fun held => decide (held ≠ m) }

/-- The worker database after a transaction that ended at `after`. -/
def World.setWorker (w : World) (after : Nat) (db : Worker.DB) : World :=
  { w with clock := after, worker := db }

/-- The outcome of the deferred function once the API answered; `none` is a 204. -/
def resolve (result : ProcessResult) (err : Option Failure) : MessageAction :=
  resolveMessageAction (processMessage result err)

inductive Label where
  | tick
  | enqueue
  | publisher (pid : Nat)
  | scanner (pid : Nat)
  | delivery (pid : Nat)
  | acknowledge (jobID key : String)
  deriving DecidableEq, Repr

/-- One atomic action. -/
inductive Step (cfg : Config) : World → Label → World → Prop
  | tick {w : World} {after : Nat} (hclock : w.clock ≤ after) :
      Step cfg w .tick { w with clock := after }
  /-- any producer's transaction commits an event -/
  | enqueue {w : World} {outbox : List OutboxRow} (carrier : List (String × String))
      (event : JobEvent)
      (henqueue : enqueueTx cfg.codec cfg.subject carrier w.clock event w.outbox = .ok outbox) :
      Step cfg w .enqueue { w with outbox := outbox }
  /-- `PublishDue` lists the due records -/
  | publishBegin {w : World} {records : List OutboxRow} (pid : Nat) (limit : Int)
      (hfree : w.publishers pid = none)
      (hlist : listDue cfg.codec cfg.textLe w.clock limit w.outbox = .ok records) :
      Step cfg w (.publisher pid)
        (w.setPublisher pid (some (.publishing w.clock records ⟨0, 0⟩)))
  /-- `Publish` stores the message and returns nil -/
  | publishSent {w : World} {now : Nat} {record : OutboxRow} {rest : List OutboxRow}
      {result : PublishResult} (pid : Nat)
      (hat : w.publishers pid = some (.publishing now (record :: rest) result)) :
      Step cfg w (.publisher pid)
        ((w.push record.payloadJSON).setPublisher pid (some (.sent now record rest result)))
  /-- `Publish` returns an error after the message was stored -/
  | publishLost {w : World} {now : Nat} {record : OutboxRow} {rest : List OutboxRow}
      {result : PublishResult} (pid : Nat) (publishErr : String)
      (hat : w.publishers pid = some (.publishing now (record :: rest) result)) :
      Step cfg w (.publisher pid)
        ((w.push record.payloadJSON).setPublisher pid
          (some (.refused now record publishErr rest result)))
  /-- `Publish` returns an error and stored nothing -/
  | publishRefused {w : World} {now : Nat} {record : OutboxRow} {rest : List OutboxRow}
      {result : PublishResult} (pid : Nat) (publishErr : String)
      (hat : w.publishers pid = some (.publishing now (record :: rest) result)) :
      Step cfg w (.publisher pid)
        (w.setPublisher pid (some (.refused now record publishErr rest result)))
  | publishMarked {w : World} {now : Nat} {record : OutboxRow} {rest outbox : List OutboxRow}
      {result : PublishResult} (pid : Nat)
      (hat : w.publishers pid = some (.sent now record rest result))
      (hmark : markPublished w.clock record.id w.outbox = .ok outbox) :
      Step cfg w (.publisher pid)
        (World.setPublisher { w with outbox := outbox } pid
          (some (.publishing now rest { result with published := result.published + 1 })))
  | publishFailed {w : World} {now : Nat} {record : OutboxRow} {publishErr : String}
      {rest outbox : List OutboxRow} {result : PublishResult} (pid : Nat)
      (hat : w.publishers pid = some (.refused now record publishErr rest result))
      (hmark : markFailed w.clock record.id (some publishErr) (now + cfg.retryDelay) w.outbox =
        .ok outbox) :
      Step cfg w (.publisher pid)
        (World.setPublisher { w with outbox := outbox } pid
          (some (.publishing now rest { result with failed := result.failed + 1 })))
  /-- the call returns, a mark fails, or the process dies -/
  | publishEnd {w : World} (pid : Nat) : Step cfg w (.publisher pid) (w.setPublisher pid none)
  /-- `ReconcileOnce` reads the cursor of its area -/
  | scanBegin {w : World} (pid : Nat) (area : Area) (hfree : w.scanners pid = none) :
      Step cfg w (.scanner pid)
        (w.setScanner pid (some (.listing area (w.books area).cursor)))
  /-- the listing answers with any page that passes the checks -/
  | scanListed {w : World} {area : Area} {read : Cursor} (pid limit : Nat) (page : Page)
      (hat : w.scanners pid = some (.listing area read))
      (hpage : page.invalid limit read = false) :
      Step cfg w (.scanner pid) (w.setScanner pid (some (.listed area read page)))
  /-- the storage refused the cursor -/
  | scanReset {w : World} {area : Area} {read : Cursor} (pid : Nat)
      (hat : w.scanners pid = some (.listing area read)) :
      Step cfg w (.scanner pid)
        ((w.setBook area (resetCursor read (w.books area))).setScanner pid none)
  /-- the scan transaction commits, with any protection test -/
  | scanCommit {w : World} {area : Area} {read : Cursor} {page : Page} {book : Book}
      {outbox : List OutboxRow} {count : Nat} (pid : Nat) (carrier : List (String × String))
      (protect : String → Except Unit Bool) (newJobID : Nat → Option String)
      (hat : w.scanners pid = some (.listed area read page))
      (hcommit : commitPage
        ⟨cfg.codec, cfg.subject, carrier, area, protect, w.clock, newJobID, fun _ => w.clock⟩
        read page (w.books area) w.outbox = .ok (book, outbox, count)) :
      Step cfg w (.scanner pid)
        (World.setScanner (World.setBook { w with outbox := outbox } area book) pid none)
  | scanEnd {w : World} (pid : Nat) : Step cfg w (.scanner pid) (w.setScanner pid none)
  /-- the broker hands out a message it holds, for the first time or again -/
  | fetch {w : World} {m : Message} (pid : Nat) (hfree : w.deliveries pid = none)
      (hheld : m ∈ w.stream) :
      Step cfg w (.delivery pid) (w.setDelivery pid (some (.fetched m)))
  /-- the payload is not a valid event -/
  | undecodable {w : World} {m : Message} {err : EventErr} (pid : Nat)
      (hat : w.deliveries pid = some (.fetched m))
      (hdecode : decodeJobEvent cfg.codec m.payload = .error err) :
      Step cfg w (.delivery pid)
        (w.setDelivery pid (some (.resolved m (resolve ProcessResult.zero (some .invalidEvent)))))
  /-- the decoded event cannot be encoded again -/
  | unencodable {w : World} {m : Message} {e : JobEvent} {err : EventErr} (pid : Nat)
      (hat : w.deliveries pid = some (.fetched m))
      (hdecode : decodeJobEvent cfg.codec m.payload = .ok e)
      (hjson : e.json cfg.codec = .error err) :
      Step cfg w (.delivery pid)
        (w.setDelivery pid (some (.resolved m (resolve ProcessResult.zero
          (some (if err = .marshal then .other "marshal job event" else .invalidEvent))))))
  /-- `Start` -/
  | start {w : World} {m : Message} {e : JobEvent} {payload : String} {after : Nat} (pid : Nat)
      (readings : Readings w.clock after)
      (hat : w.deliveries pid = some (.fetched m))
      (hdecode : decodeJobEvent cfg.codec m.payload = .ok e)
      (hjson : e.json cfg.codec = .ok payload) :
      Step cfg w (.delivery pid)
        ((w.setWorker after ((Worker.start readings.now e.jobID e.kind.text payload
            cfg.maxAttempts w.worker).state w.worker)).setDelivery pid
          (match afterStart (Worker.start readings.now e.jobID e.kind.text payload
              cfg.maxAttempts w.worker).answer with
          | .handle attempt => some (.started m e attempt)
          | .finish result err => some (.processed m e result err)))
  /-- the handler returns, whatever the API and the object store answered -/
  | handle {w : World} {m : Message} {e : JobEvent} {attempt : Attempt} (pid : Nat)
      (env : HandlerEnv) (hat : w.deliveries pid = some (.started m e attempt)) :
      Step cfg w (.delivery pid)
        (w.setDelivery pid (some (.handled m e attempt (handleJob env e))))
  /-- the context ended while the handler ran: an interruption, not a failure -/
  | interrupted {w : World} {m : Message} {e : JobEvent} {attempt : Attempt} (pid : Nat)
      (hat : w.deliveries pid = some (.started m e attempt)) :
      Step cfg w (.delivery pid)
        (w.setDelivery pid (some (.processed m e (ProcessResult.claimed attempt)
          (some (.other "context canceled")))))
  | markSucceeded {w : World} {m : Message} {e : JobEvent} {attempt : Attempt} {after : Nat}
      (pid : Nat) (readings : Readings w.clock after)
      (hat : w.deliveries pid = some (.handled m e attempt none)) :
      Step cfg w (.delivery pid)
        ((w.setWorker after ((Worker.markSucceeded readings.now attempt.id w.worker).state
            w.worker)).setDelivery pid
          (some (.processed m e
            (afterSucceeded attempt
              (Worker.markSucceeded readings.now attempt.id w.worker).answer).1
            (afterSucceeded attempt
              (Worker.markSucceeded readings.now attempt.id w.worker).answer).2)))
  | markFailed {w : World} {m : Message} {e : JobEvent} {attempt : Attempt} {jobErr : Failure}
      {payload : String} {after : Nat} (pid : Nat) (readings : Readings w.clock after)
      (hat : w.deliveries pid = some (.handled m e attempt (some jobErr)))
      (hjson : e.json cfg.codec = .ok payload) :
      Step cfg w (.delivery pid)
        ((w.setWorker after ((Worker.markFailed readings.now attempt.id (some jobErr.text) payload
            cfg.maxAttempts w.worker).state w.worker)).setDelivery pid
          (some (.processed m e
            (afterFailed attempt jobErr (Worker.markFailed readings.now attempt.id
              (some jobErr.text) payload cfg.maxAttempts w.worker).answer).1
            (afterFailed attempt jobErr (Worker.markFailed readings.now attempt.id
              (some jobErr.text) payload cfg.maxAttempts w.worker).answer).2)))
  /-- the deferred function has nothing to acknowledge -/
  | returned {w : World} {m : Message} {e : JobEvent} {result : ProcessResult}
      {err : Option Failure} (pid : Nat)
      (hat : w.deliveries pid = some (.processed m e result err))
      (hquiet : acknowledges e result err = false) :
      Step cfg w (.delivery pid) (w.setDelivery pid (some (.resolved m (resolve result err))))
  /-- it has, but no acknowledger or no successful answer -/
  | unacknowledged {w : World} {m : Message} {e : JobEvent} {result : ProcessResult}
      {err : Option Failure} (pid : Nat) (response : String)
      (hat : w.deliveries pid = some (.processed m e result err))
      (hneeded : acknowledges e result err = true) :
      Step cfg w (.delivery pid)
        (w.setDelivery pid (some (.resolved m (resolve result
          (if cfg.acknowledger then Worker.acknowledgeObjectCleanup (some response) e
          else some (.other "managed object cleanup acknowledger is required"))))))
  /-- the API removes the claim and answers 204 -/
  | acknowledged {w : World} {m : Message} {e : JobEvent} {result : ProcessResult}
      {err : Option Failure} {claims : List Claim} (pid : Nat)
      (hat : w.deliveries pid = some (.processed m e result err))
      (hneeded : acknowledges e result err = true) (hacknowledger : cfg.acknowledger = true)
      (hclaims : (acknowledgeArea e.objectKey).acknowledgeObjectCleanup e.jobID e.objectKey
        (w.books (acknowledgeArea e.objectKey)).claims = some claims) :
      Step cfg w (.acknowledge e.jobID e.objectKey)
        ((w.setBook (acknowledgeArea e.objectKey)
          { w.books (acknowledgeArea e.objectKey) with claims := claims }).setDelivery pid
          (some (.resolved m (resolve result (Worker.acknowledgeObjectCleanup none e)))))
  /-- any other acknowledgement request reaches the API: late, repeated or stale -/
  | acknowledge {w : World} {claims : List Claim} (jobID key : String)
      (hclaims : (acknowledgeArea key).acknowledgeObjectCleanup jobID key
        (w.books (acknowledgeArea key)).claims = some claims) :
      Step cfg w (.acknowledge jobID key)
        (w.setBook (acknowledgeArea key) { w.books (acknowledgeArea key) with claims := claims })
  /-- an ack or a termination reaches the broker -/
  | settle {w : World} {m : Message} {action : MessageAction} (pid : Nat)
      (hat : w.deliveries pid = some (.resolved m action)) (haction : action ≠ .retry) :
      Step cfg w (.delivery pid) ((w.drop m).setDelivery pid none)
  /-- a nak, a lost answer to the broker, or a crash: the message stays -/
  | deliveryEnd {w : World} (pid : Nat) : Step cfg w (.delivery pid) (w.setDelivery pid none)

end Pipeline
end FlickDrop
