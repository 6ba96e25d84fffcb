import Mathlib.Logic.Function.Basic
import FlickDrop.Foundations.Runs
import FlickDrop.Requests.Large

/-!
# The request service as one system

Any number of API processes and clients work on the request tables, the outbox and the
bucket.  An action is one transaction, one point of an operation that is not atomic
(`Finalize` around its copy, `Open` around its read, a scan), or something the
environment does.  An operation that fails without a trace in the database is the
passage of time, except for `Finalize`, whose answers are part of the state.

A process keeps a map from request ids to the finalization in flight.  `finalizing p id`
is the call that leads there; a call that finds a leader waits for it and takes its
answer.

New ids and new object keys are ones that were never used, listings show objects that
are there, and clients hold no URL of a final key.
-/

namespace FlickDrop
namespace Requests

open Foundations Events

abbrev Result := Except Err Receipt

/-- Where a `Finalize` call is. -/
inductive Phase where
  /-- before its first transaction -/
  | entered
  /-- between its first transaction and the map -/
  | passed (a : ObjectAttempt)
  /-- waiting for the call that leads -/
  | following (leader : Nat)
  /-- leading, before the upload is read -/
  | leading (a : ObjectAttempt)
  /-- the verified upload is spooled -/
  | spooled (a : ObjectAttempt) (body : Bytes)
  /-- the copy is written -/
  | copied (a : ObjectAttempt)
  /-- leading, with its answer; the map entry is still there -/
  | computed (result : Result)
  | returned (result : Result)

structure FinalizeCall where
  process : Nat
  id : String
  token : String
  input : AttemptInput
  attempt : Bytes
  phase : Phase

/-- The call at its next point. -/
def FinalizeCall.goto (call : FinalizeCall) (phase : Phase) : FinalizeCall :=
  { call with phase := phase }

/-- An `Open` between its read and its consuming transaction. -/
structure OpenCall where
  id : String
  token : String
  key : String

/-- An opened object. -/
inductive Flow where
  /-- it streams since the instant it was consumed at -/
  | streaming (id key : String) (opened : Nat)
  /-- the body is closed, `FinishOpen` comes next -/
  | finished (id key : String)
  deriving DecidableEq, Repr

def Flow.key : Flow → String
  | .streaming _ key _ | .finished _ key => key

/-- `issued` and `used` are the ids ever given to a request and the keys ever drawn or
stored. -/
structure World where
  clock : Nat
  db : DB
  issued : List String
  used : List String
  objects : String → Option Bytes
  calls : Nat → Option FinalizeCall
  finalizing : Nat → String → Option Nat
  opens : Nat → Option OpenCall
  flows : Nat → Option Flow
  scanners : Nat → Option Scanner

def World.start (clock : Nat) : World where
  clock := clock
  db := DB.empty
  issued := []
  used := []
  objects := fun _ => none
  calls := fun _ => none
  finalizing := fun _ _ => none
  opens := fun _ => none
  flows := fun _ => none
  scanners := fun _ => none

def World.setDB (w : World) (clock : Nat) (db : DB) : World :=
  { w with clock := clock, db := db }

def World.setCall (w : World) (pid : Nat) (call : FinalizeCall) : World :=
  { w with calls := Function.update w.calls pid (some call) }

/-- The entry of the map of a process. -/
def World.setLeader (w : World) (process : Nat) (id : String) (leader : Option Nat) : World :=
  { w with
    finalizing := Function.update w.finalizing process
      (Function.update (w.finalizing process) id leader) }

def World.setOpen (w : World) (pid : Nat) (call : Option OpenCall) : World :=
  { w with opens := Function.update w.opens pid call }

def World.setFlow (w : World) (pid : Nat) (flow : Option Flow) : World :=
  { w with flows := Function.update w.flows pid flow }

def World.setScanner (w : World) (pid : Nat) (s : Option Scanner) : World :=
  { w with scanners := Function.update w.scanners pid s }

/-- An object is written. -/
def World.store (w : World) (key : String) (body : Bytes) : World :=
  { w with objects := Function.update w.objects key (some body), used := key :: w.used }

def World.row (w : World) (id : String) : Option RequestRow :=
  Table.lookup RequestRow.id id w.db.requests

/-- Two keys that were never used. -/
def World.FreshKeys (w : World) (uploadKey finalKey : String) : Prop :=
  uploadKey ∉ w.used ∧ finalKey ∉ w.used ∧ uploadKey ≠ finalKey

/-- The readings of an operation lie between the clock before and after it. -/
structure Env.Within (env : Env) (before after : Nat) : Prop where
  mono : Monotone env.now
  lower : ∀ i, before ≤ env.now i
  upper : ∀ i, env.now i ≤ after

/-! ### What is observed -/

/-- A submission that was accepted. -/
structure Acceptance where
  generation : Int
  attempt : Option Bytes
  body : Option Bytes
  deriving DecidableEq, Repr

def RequestRow.acceptance (row : RequestRow) : Acceptance :=
  ⟨row.generation, row.attemptTokenHash, row.attemptBodyHash⟩

/-- The row moved to `submitted`, with this submission. -/
def movedToSubmitted (found found' : Option RequestRow) : Option Acceptance :=
  match found' with
  | none => none
  | some row' =>
    if row'.state = .submitted ∧ found.map RequestRow.state ≠ some .submitted then
      some row'.acceptance
    else
      none

/-- What callers are told. -/
inductive Answer where
  /-- a `submitted` receipt computed by a transaction of `Submit`, `Reserve` or `Finalize` -/
  | receipt (id : String) (generation : Int) (attemptToken : String)
  /-- a verdict of `Attempt` -/
  | verdict (id : String) (generation : Int) (attemptToken : String) (state : ReceiptState)
  /-- an open consumed the object -/
  | consumed (id key : String) (now : Nat)
  /-- the upload of a finalization failed its verification -/
  | rejected (pid : Nat) (id : String) (input : AttemptInput) (a : ObjectAttempt) (body : Bytes)
  /-- a `Finalize` call returns -/
  | finalized (pid : Nat) (id : String) (input : AttemptInput) (result : Result)

structure Label where
  accepted : String → Option Acceptance
  answers : List Answer

/-- The receipt in the answer of a reservation. -/
def reservedAnswers (id attemptToken : String) : Except Err (Option UploadResult) → List Answer
  | .ok (some result) =>
    if result.state = .submitted then [.receipt id result.generation attemptToken] else []
  | _ => []

/-! ### Actions -/

/-- One atomic action and what it tells. -/
inductive Action (cfg : Config) : World → List Answer → World → Prop
  | tick {w : World} {after : Nat} (hclock : w.clock ≤ after) :
      Action cfg w [] { w with clock := after }
  /-- an upload, to any key but a final one -/
  | put {w : World} (key : String) (body : Bytes) (hkey : ∀ raw, key ≠ finalKeyOf raw) :
      Action cfg w [] (w.store key body)
  | objectGone {w : World} (key : String) :
      Action cfg w [] { w with objects := Function.update w.objects key none }
  /-- `PublishDue` marks rows, and other producers enqueue -/
  | outbox {w : World} {outbox : List OutboxRow}
      (hforeign : Foreign cfg.codec .requests w.db.outbox outbox) :
      Action cfg w [] (w.setDB w.clock { w.db with outbox := outbox })
  | create {w : World} {db : DB} {created : Created} (now : Nat)
      (rawID rawSubmit rawRetrieve : Bytes) (publicKey : String) (ttl : Option Int)
      (hnow : now ≤ w.clock) (hfresh : created.id ∉ w.issued)
      (hcreate : create cfg now rawID rawSubmit rawRetrieve publicKey ttl w.db =
        .ok (db, created)) :
      Action cfg w [] { w with db := db, issued := created.id :: w.issued }
  /-- a pass of `begin`, of whatever operation, ends an elapsed reservation -/
  | expire {w : World} {db : DB} {after : Nat} (env : Env) (henv : env.Within w.clock after)
      (id token : String) (owner : Bool) (hbegin : begin cfg env id token owner w.db = .ended db) :
      Action cfg w [] (w.setDB after db)
  | submit {w : World} {db : DB} {receipt : Receipt} {after : Nat} (env : Env)
      (henv : env.Within w.clock after) (id token : String) (input : SubmitInput)
      (hsubmit : submit cfg env id token input w.db = .commit db (.ok (some receipt))) :
      Action cfg w [.receipt id receipt.generation input.attemptToken] (w.setDB after db)
  | reserve {w : World} {db : DB} {answer : Except Err (Option UploadResult)} {after : Nat}
      (env : Env) (henv : env.Within w.clock after) (rawUpload rawFinal : Bytes)
      (presign : Option String) (id token : String) (input : UploadInput)
      (hfresh : w.FreshKeys (uploadKeyOf rawUpload) (finalKeyOf rawFinal))
      (hreserve : reserve cfg env rawUpload rawFinal presign id token input w.db =
        .commit db answer)
      (hanswer : answer ≠ .ok none) :
      Action cfg w (reservedAnswers id input.attemptToken answer)
        { w.setDB after db with used := uploadKeyOf rawUpload :: finalKeyOf rawFinal :: w.used }
  | attempt {w : World} {db : DB} {receipt : Receipt} {after : Nat} (env : Env)
      (henv : env.Within w.clock after) (id token : String) (generation : Int)
      (attemptToken : String)
      (hattempt : attempt cfg env id token generation attemptToken w.db =
        .commit db (.ok (some receipt))) :
      Action cfg w [.verdict id receipt.generation attemptToken receipt.state] (w.setDB after db)
  | abandon {w : World} {db : DB} {answer : Except Err (Option Receipt)} {after : Nat} (env : Env)
      (henv : env.Within w.clock after) (id token : String) (input : AttemptInput)
      (habandon : abandon cfg env id token input w.db = .commit db answer)
      (hanswer : answer ≠ .ok none) :
      Action cfg w [] (w.setDB after db)
  | openInline {w : World} {db : DB} {opened : Opened} {after : Nat} (env : Env)
      (henv : env.Within w.clock after) (id token : String)
      (hopen : openTx cfg env id token w.db = .commit db (.ok (some (.inline opened)))) :
      Action cfg w [] (w.setDB after db)
  /-- the object is read before it is consumed -/
  | openRead {w : World} {db : DB} {kind : Kind} {sizeBytes : Int} {envelope : String}
      {found : Option String} {body : Bytes} {key : String} {after : Nat} (pid : Nat) (env : Env)
      (henv : env.Within w.clock after) (id token : String) (object : Option (Bytes × Int))
      (hfree : w.opens pid = none)
      (hopen : openTx cfg env id token w.db =
        .commit db (.ok (some (.object kind sizeBytes envelope found))))
      (hobject : openObject cfg object sizeBytes found = .ok (body, key)) :
      Action cfg w [] ((w.setDB after db).setOpen pid (some ⟨id, token, key⟩))
  | openConsume {w : World} {call : OpenCall} {db : DB} {after : Nat} (pid : Nat) (env : Env)
      (henv : env.Within w.clock after) (hat : w.opens pid = some call) (hfree : w.flows pid = none)
      (hconsume : consumeObject cfg env call.id call.token call.key w.db =
        .commit db (.ok (some ()))) :
      Action cfg w [.consumed call.id call.key (env.now 2)]
        (((w.setDB after db).setOpen pid none).setFlow pid
          (some (.streaming call.id call.key (env.now 2))))
  | openFail {w : World} (pid : Nat) : Action cfg w [] (w.setOpen pid none)
  /-- the body is closed, at its end or earlier -/
  | streamEnd {w : World} {id key : String} {opened : Nat} (pid : Nat)
      (hat : w.flows pid = some (.streaming id key opened)) :
      Action cfg w [] (w.setFlow pid (some (.finished id key)))
  | finishOpen {w : World} {id key : String} {db : DB} {after : Nat} (pid : Nat) (env : Env)
      (henv : env.Within w.clock after) (hat : w.flows pid = some (.finished id key))
      (hfinish : finishOpen cfg env id key w.db = .ok db) :
      Action cfg w [] ((w.setDB after db).setFlow pid none)
  /-- `FinishOpen` fails, or the process stops -/
  | streamLost {w : World} (pid : Nat) : Action cfg w [] (w.setFlow pid none)
  | revoke {w : World} {db : DB} {after : Nat} (env : Env) (henv : env.Within w.clock after)
      (id token : String) (hrevoke : revoke cfg env id token w.db = .commit db (.ok (some ()))) :
      Action cfg w [] (w.setDB after db)
  /-- `PurgeExpiredTx` in the reaper's transaction; its reading may be old -/
  | purge {w : World} {db : DB} {after : Nat} (env : Env) (now limit : Nat)
      (hclock : w.clock ≤ after)
      (hnow : now ≤ after) (hpurge : purgeExpiredTx cfg env now limit w.db = .ok db) :
      Action cfg w [] (w.setDB after db)
  | finalizeEnter {w : World} {attempt : Bytes} (pid process : Nat) (id token : String)
      (input : AttemptInput) (hfree : w.calls pid = none)
      (hvalid : validateAttempt cfg input = .ok attempt) :
      Action cfg w [] (w.setCall pid ⟨process, id, token, input, attempt, .entered⟩)
  | finalizePass {w : World} {call : FinalizeCall} {a : ObjectAttempt} {db : DB} {after : Nat}
      (pid : Nat) (env : Env) (henv : env.Within w.clock after) (hat : w.calls pid = some call)
      (hphase : call.phase = .entered)
      (hfirst : finalizeTx cfg env call.id call.token call.input.generation call.attempt w.db =
        .commit db (.ok (some (.copy a)))) :
      Action cfg w [] ((w.setDB after db).setCall pid (call.goto (.passed a)))
  | finalizeReceipt {w : World} {call : FinalizeCall} {receipt : Receipt} {db : DB} {after : Nat}
      (pid : Nat) (env : Env) (henv : env.Within w.clock after) (hat : w.calls pid = some call)
      (hphase : call.phase = .entered)
      (hfirst : finalizeTx cfg env call.id call.token call.input.generation call.attempt w.db =
        .commit db (.ok (some (.receipt receipt)))) :
      Action cfg w [.receipt call.id receipt.generation call.input.attemptToken,
          .finalized pid call.id call.input (.ok receipt)]
        ((w.setDB after db).setCall pid (call.goto (.returned (.ok receipt))))
  | finalizeRefused {w : World} {call : FinalizeCall} {err : Err} {after : Nat} (pid : Nat)
      (env : Env) (henv : env.Within w.clock after) (hat : w.calls pid = some call)
      (hphase : call.phase = .entered)
      (hfirst : finalizeTx cfg env call.id call.token call.input.generation call.attempt w.db =
        .rollback err) :
      Action cfg w [.finalized pid call.id call.input (.error err)]
        ({ w with clock := after }.setCall pid (call.goto (.returned (.error err))))
  /-- the database or the context of a call that does not lead fails -/
  | finalizeFail {w : World} {call : FinalizeCall} (pid : Nat) (hat : w.calls pid = some call)
      (hphase : call.phase = .entered ∨ (∃ a, call.phase = .passed a) ∨
        ∃ leader, call.phase = .following leader) :
      Action cfg w [.finalized pid call.id call.input (.error .other)]
        (w.setCall pid (call.goto (.returned (.error .other))))
  | finalizeFollow {w : World} {call : FinalizeCall} {a : ObjectAttempt} {leader : Nat} (pid : Nat)
      (hat : w.calls pid = some call) (hphase : call.phase = .passed a)
      (hleader : w.finalizing call.process call.id = some leader) :
      Action cfg w [] (w.setCall pid (call.goto (.following leader)))
  | finalizeLead {w : World} {call : FinalizeCall} {a : ObjectAttempt} (pid : Nat)
      (hat : w.calls pid = some call) (hphase : call.phase = .passed a)
      (hfree : w.finalizing call.process call.id = none) :
      Action cfg w []
        ((w.setCall pid (call.goto (.leading a))).setLeader call.process call.id (some pid))
  | copySpool {w : World} {call : FinalizeCall} {a : ObjectAttempt} {object body : Bytes}
      (pid : Nat) (hat : w.calls pid = some call) (hphase : call.phase = .leading a)
      (hobject : w.objects a.uploadKey = some object)
      (hcopy : copyVerified cfg a (some (object, object.length)) = .ok body) :
      Action cfg w [] (w.setCall pid (call.goto (.spooled a body)))
  | copyReject {w : World} {call : FinalizeCall} {a : ObjectAttempt} {object : Bytes} (pid : Nat)
      (hat : w.calls pid = some call) (hphase : call.phase = .leading a)
      (hobject : w.objects a.uploadKey = some object)
      (hcopy : copyVerified cfg a (some (object, object.length)) = .error .invalid) :
      Action cfg w [.rejected pid call.id call.input a object]
        (w.setCall pid (call.goto (.computed (.error .invalid))))
  | copyWrite {w : World} {call : FinalizeCall} {a : ObjectAttempt} {body : Bytes} (pid : Nat)
      (hat : w.calls pid = some call) (hphase : call.phase = .spooled a body) :
      Action cfg w [] ((w.store a.finalKey body).setCall pid (call.goto (.copied a)))
  /-- the write succeeds and its response is lost -/
  | copyLost {w : World} {call : FinalizeCall} {a : ObjectAttempt} {body : Bytes} (pid : Nat)
      (hat : w.calls pid = some call) (hphase : call.phase = .spooled a body) :
      Action cfg w []
        ((w.store a.finalKey body).setCall pid (call.goto (.computed (.error .storage))))
  /-- the bucket fails before anything is written -/
  | copyFail {w : World} {call : FinalizeCall} (pid : Nat) (hat : w.calls pid = some call)
      (hphase : (∃ a, call.phase = .leading a) ∨ ∃ a body, call.phase = .spooled a body) :
      Action cfg w [] (w.setCall pid (call.goto (.computed (.error .storage))))
  | accept {w : World} {call : FinalizeCall} {a : ObjectAttempt} {receipt : Receipt} {db : DB}
      {after : Nat} (pid : Nat) (env : Env) (henv : env.Within w.clock after)
      (hat : w.calls pid = some call) (hphase : call.phase = .copied a)
      (hsecond : acceptTx cfg env call.id call.token call.input.generation call.attempt a w.db =
        .commit db (.ok (some receipt))) :
      Action cfg w [.receipt call.id receipt.generation call.input.attemptToken]
        ((w.setDB after db).setCall pid (call.goto (.computed (.ok receipt))))
  | acceptRefused {w : World} {call : FinalizeCall} {a : ObjectAttempt} {err : Err} {after : Nat}
      (pid : Nat) (env : Env) (henv : env.Within w.clock after) (hat : w.calls pid = some call)
      (hphase : call.phase = .copied a)
      (hsecond : acceptTx cfg env call.id call.token call.input.generation call.attempt a w.db =
        .rollback err) :
      Action cfg w []
        ({ w with clock := after }.setCall pid (call.goto (.computed (.error err))))
  /-- the database of a leading call fails -/
  | acceptFail {w : World} {call : FinalizeCall} {a : ObjectAttempt} (pid : Nat)
      (hat : w.calls pid = some call) (hphase : call.phase = .copied a) :
      Action cfg w [] (w.setCall pid (call.goto (.computed (.error .other))))
  /-- the leader leaves the map and closes `done` -/
  | finalizeReturn {w : World} {call : FinalizeCall} {result : Result} (pid : Nat)
      (hat : w.calls pid = some call) (hphase : call.phase = .computed result) :
      Action cfg w [.finalized pid call.id call.input result]
        ((w.setCall pid (call.goto (.returned result))).setLeader call.process call.id none)
  /-- a follower takes the answer of its leader -/
  | finalizeShared {w : World} {call lead : FinalizeCall} {leader : Nat} {result : Result}
      (pid : Nat) (hat : w.calls pid = some call) (hphase : call.phase = .following leader)
      (hleader : w.calls leader = some lead) (hdone : lead.phase = .returned result) :
      Action cfg w [.finalized pid call.id call.input result]
        (w.setCall pid (call.goto (.returned result)))
  | scanBegin {w : World} (pid : Nat) (hfree : w.scanners pid = none) :
      Action cfg w [] (w.setScanner pid (some (.listing .requests w.db.book.cursor)))
  | scanListed {w : World} {area : Area} {read : Cursor} (pid limit : Nat) (page : Page)
      (hat : w.scanners pid = some (.listing area read)) (hpage : page.invalid limit read = false)
      (hthere : ∀ key ∈ page.keys, (w.objects key).isSome) :
      Action cfg w [] (w.setScanner pid (some (.listed area read page)))
  | scanReset {w : World} {area : Area} {read : Cursor} (pid : Nat)
      (hat : w.scanners pid = some (.listing area read)) :
      Action cfg w []
        ((w.setDB w.clock { w.db with book := resetCursor read w.db.book }).setScanner pid none)
  | scanCommit {w : World} {area : Area} {read : Cursor} {page : Page} {book : Book}
      {outbox : List OutboxRow} {count : Nat} (pid : Nat) (env : Env)
      (hat : w.scanners pid = some (.listed area read page))
      (hcommit : commitPage (scanEnv cfg env w.clock w.db.requests) read page w.db.book
        w.db.outbox = .ok (book, outbox, count)) :
      Action cfg w []
        ((w.setDB w.clock { w.db with book := book, outbox := outbox }).setScanner pid none)
  | scanEnd {w : World} (pid : Nat) : Action cfg w [] (w.setScanner pid none)
  | acknowledge {w : World} {claims : List Claim} (jobID key : String)
      (hclaims : Area.requests.acknowledgeObjectCleanup jobID key w.db.book.claims = some claims) :
      Action cfg w []
        (w.setDB w.clock { w.db with book := { w.db.book with claims := claims } })

/-- An action with what an observer of the tables sees of it. -/
def Step (cfg : Config) (w : World) (label : Label) (w' : World) : Prop :=
  Action cfg w label.answers w' ∧
    label.accepted = fun id => movedToSubmitted (w.row id) (w'.row id)

theorem Action.step {cfg : Config} {w w' : World} {answers : List Answer}
    (haction : Action cfg w answers w') :
    Step cfg w ⟨fun id => movedToSubmitted (w.row id) (w'.row id), answers⟩ w' :=
  ⟨haction, rfl⟩

end Requests
end FlickDrop
