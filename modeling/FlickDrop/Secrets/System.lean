import Mathlib.Logic.Function.Basic
import FlickDrop.Foundations.Runs
import FlickDrop.Secrets.Reaper

/-!
# The secrets service as one system

The API's transactions on secrets, the reaper, the object scanner and the bodies that
stream to recipients, in any interleaving.  A step is one transaction, one point of an
operation that is not atomic (`Finalize` around its HEAD, an opened body, a scan), or
something the environment does: time passes, an object is stored or disappears, other
producers use the outbox.  An operation that fails or rolls back changes nothing and is
the passage of time.

Two assumptions are part of the steps: a new id is one that was never used, neither for
a secret nor in the name of a stored object; and listings show objects that are there.
-/

namespace FlickDrop
namespace Secrets

open Foundations Events

/-- An opened body. -/
inductive Flow where
  /-- it streams since the instant of its open -/
  | streaming (key : String) (opened : Nat)
  /-- the body is closed, the delete job comes next -/
  | finished (key : String)
  deriving DecidableEq, Repr

def Flow.key : Flow → String
  | .streaming key _ | .finished key => key

/-- `issued` and `stored` are the ids ever given to a secret and the keys ever stored. -/
structure World where
  clock : Nat
  db : DB
  issued : List String
  stored : List String
  bucket : List String
  finalizing : Nat → Option (String × Pending)
  flows : Nat → Option Flow
  scanners : Nat → Option Scanner

def World.start (clock : Nat) : World where
  clock := clock
  db := DB.empty
  issued := []
  stored := []
  bucket := []
  finalizing := fun _ => none
  flows := fun _ => none
  scanners := fun _ => none

def World.setDB (w : World) (clock : Nat) (db : DB) : World :=
  { w with clock := clock, db := db }

def World.setFinalizing (w : World) (pid : Nat) (p : Option (String × Pending)) : World :=
  { w with finalizing := Function.update w.finalizing pid p }

def World.setFlow (w : World) (pid : Nat) (flow : Option Flow) : World :=
  { w with flows := Function.update w.flows pid flow }

def World.setScanner (w : World) (pid : Nat) (s : Option Scanner) : World :=
  { w with scanners := Function.update w.scanners pid s }

/-- A committed creation. -/
def World.issue (w : World) (id : String) (db : DB) : World :=
  { w with db := db, issued := id :: w.issued }

/-- The object key of a secret. -/
def objectKey (id : String) : String := Area.secrets.root ++ id

/-- An id that was never used. -/
def World.FreshID (w : World) (id : String) : Prop :=
  id ∉ w.issued ∧ objectKey id ∉ w.stored

/-- The row of a secret. -/
def World.row (w : World) (id : String) : Option SecretRow :=
  Table.lookup SecretRow.id id w.db.secrets

/-- What a step did to secrets. -/
inductive Label where
  | other
  | created (row : SecretRow)
  | activated (id : String)
  | opened (id accessProofHash : String) (now : Nat) (secret : Secret)
  | refused (id : String)
  | locked (id : String)
  | cancelled (id : String)
  | reclaimed (ids : List String)

/-- A refused proof locked the secret if its row is consumed afterwards. -/
def refusedLabel (id : String) (db : DB) : Label :=
  match Table.lookup SecretRow.id id db.secrets with
  | some row => if row.consumedAt.isSome then .locked id else .refused id
  | none => .refused id

/-- A revocation cancelled the delivery if its row is gone afterwards; a repeated one
finds no row. -/
def revokedLabel (id : String) (db db' : DB) : Label :=
  if (Table.lookup SecretRow.id id db.secrets).isSome ∧
      (Table.lookup SecretRow.id id db'.secrets).isNone then
    .cancelled id
  else
    .other

/-- The flow a successful open starts. -/
def openedFlow (secret : Secret) (now : Nat) : Option Flow :=
  if secret.storageBackend = .s3Object then some (.streaming secret.storageKey now) else none

/-- The environment of the scan transaction. -/
def scanEnv (cfg : Config) (draws : Draws) (now : Nat) (rows : List SecretRow) : ScanEnv where
  codec := cfg.codec
  subject := cfg.subject
  carrier := draws.carrier
  area := .secrets
  protect := fun key => .ok (protectObjectTx cfg.pendingTTL now key rows)
  now := now
  newJobID := draws.newJobID
  enqueueNow := fun _ => now

/-- One atomic action. -/
inductive Step (cfg : Config) (julian : JulianDay) : World → Label → World → Prop
  | tick {w : World} {after : Nat} (hclock : w.clock ≤ after) :
      Step cfg julian w .other { w with clock := after }
  /-- an object is stored, under any key -/
  | put {w : World} (key : String) :
      Step cfg julian w .other
        { w with bucket := key :: w.bucket, stored := key :: w.stored }
  | objectGone {w : World} (key : String) :
      Step cfg julian w .other { w with bucket := w.bucket.filter fun k => decide (k ≠ key) }
  /-- `PublishDue` marks rows, and other producers enqueue -/
  | outbox {w : World} {outbox : List OutboxRow}
      (hforeign : Foreign cfg.codec .secrets w.db.outbox outbox) :
      Step cfg julian w .other (w.setDB w.clock { w.db with outbox := outbox })
  /-- `Create`; its reading is taken before the transaction -/
  | create {w : World} {db : DB} {token : String} (now : Nat) (id : String) (raw : Bytes)
      (input : CreateInput) (hnow : now ≤ w.clock) (hfresh : w.FreshID id)
      (hcreate : create cfg now id raw input w.db = .ok (db, token)) :
      Step cfg julian w
        (.created ({ input with maxViews := defaultViews input.maxViews }.row id now))
        (w.issue id db)
  | createLarge {w : World} {db : DB} {token upload : String} (now : Nat) (id : String)
      (raw : Bytes) (presign : Option String) (input : CreateLargeInput) (hnow : now ≤ w.clock)
      (hfresh : w.FreshID id)
      (hcreate : createLarge cfg now id raw presign input w.db = .ok (db, token, upload)) :
      Step cfg julian w
        (.created ({ input with maxViews := defaultViews input.maxViews }.row id now))
        (w.issue id db)
  | finalizeBegin {w : World} {pending : Pending} (pid : Nat) (id : String)
      (hfree : w.finalizing pid = none)
      (hload : finalizeLoad cfg w.clock id w.db = .ok (some pending)) :
      Step cfg julian w .other (w.setFinalizing pid (some (id, pending)))
  /-- the HEAD answered, the upload is activated -/
  | finalizeEnd {w : World} {id : String} {pending : Pending} {db : DB} (pid : Nat)
      (head : Option ObjectInfo) (hat : w.finalizing pid = some (id, pending))
      (hactivate : finalizeActivate w.clock id pending head w.db = .ok db) :
      Step cfg julian w (.activated id) ((w.setDB w.clock db).setFinalizing pid none)
  /-- or the call fails -/
  | finalizeFail {w : World} (pid : Nat) :
      Step cfg julian w .other (w.setFinalizing pid none)
  | opened {w : World} {db : DB} {secret : Secret} {after : Nat} (pid : Nat)
      (readings : Readings w.clock after) (draws : Draws) (object : Option (Bytes × Int))
      (id accessProofHash : String) (hfree : w.flows pid = none)
      (hopen : openAndEnqueueCleanup cfg readings.now draws object id accessProofHash w.db =
        .commit db (.ok secret)) :
      Step cfg julian w (.opened id accessProofHash (readings.now 1) secret)
        ((w.setDB after db).setFlow pid (openedFlow secret (readings.now 1)))
  /-- a wrong proof is counted -/
  | refused {w : World} {db : DB} {err : Err} {after : Nat} (readings : Readings w.clock after)
      (draws : Draws) (object : Option (Bytes × Int)) (id accessProofHash : String)
      (hopen : openAndEnqueueCleanup cfg readings.now draws object id accessProofHash w.db =
        .commit db (.error err)) :
      Step cfg julian w (refusedLabel id db) (w.setDB after db)
  /-- the body is closed, at its end or earlier -/
  | streamEnd {w : World} {key : String} {opened : Nat} (pid : Nat)
      (hat : w.flows pid = some (.streaming key opened)) :
      Step cfg julian w .other (w.setFlow pid (some (.finished key)))
  | streamCleanup {w : World} {key : String} {db : DB} {after : Nat} (pid : Nat)
      (readings : Readings w.clock after) (draws : Draws)
      (hat : w.flows pid = some (.finished key))
      (henqueue : enqueueOpenedObjectCleanup cfg readings.now draws key w.db = .ok db) :
      Step cfg julian w .other ((w.setDB after db).setFlow pid none)
  /-- the enqueue fails, or the API stops -/
  | streamLost {w : World} (pid : Nat) : Step cfg julian w .other (w.setFlow pid none)
  | revoke {w : World} {db : DB} {status : ManagementStatus} {after : Nat}
      (readings : Readings w.clock after) (draws : Draws) (id token : String)
      (hrevoke : revoke cfg readings.now draws id token w.db = .commit db (.ok status)) :
      Step cfg julian w (revokedLabel id w.db db) (w.setDB after db)
  /-- the worker's `Cleanup` -/
  | cleanup {w : World} {db : DB} {deleted : Bool} (id : String)
      (hcleanup : cleanup w.clock id w.db = .ok (db, deleted)) :
      Step cfg julian w .other (w.setDB w.clock db)
  /-- `claimExpired`; its first reading may be old -/
  | claimExpired {w : World} {db : DB} {batch : List SecretRow} {after : Nat} (batchSize : Nat)
      (now : Nat → Nat) (draws : Draws)
      (purgeRequests : List OutboxRow → Except Unit (List OutboxRow)) (hclock : w.clock ≤ after)
      (hnow : ∀ i, now i ≤ after)
      (hforeign : ∀ rows rows', purgeRequests rows = .ok rows' →
        Foreign cfg.codec .secrets rows rows')
      (hclaim : claimExpired cfg julian batchSize now draws purgeRequests w.db = .ok (db, batch)) :
      Step cfg julian w (.reclaimed (batch.map SecretRow.id)) (w.setDB after db)
  | scanBegin {w : World} (pid : Nat) (hfree : w.scanners pid = none) :
      Step cfg julian w .other (w.setScanner pid (some (.listing .secrets w.db.book.cursor)))
  | scanListed {w : World} {area : Area} {read : Cursor} (pid limit : Nat) (page : Page)
      (hat : w.scanners pid = some (.listing area read)) (hpage : page.invalid limit read = false)
      (hthere : page.keys ⊆ w.bucket) :
      Step cfg julian w .other (w.setScanner pid (some (.listed area read page)))
  | scanReset {w : World} {area : Area} {read : Cursor} (pid : Nat)
      (hat : w.scanners pid = some (.listing area read)) :
      Step cfg julian w .other
        ((w.setDB w.clock { w.db with book := resetCursor read w.db.book }).setScanner pid none)
  | scanCommit {w : World} {area : Area} {read : Cursor} {page : Page} {book : Book}
      {outbox : List OutboxRow} {count : Nat} (pid : Nat) (draws : Draws)
      (hat : w.scanners pid = some (.listed area read page))
      (hcommit : commitPage (scanEnv cfg draws w.clock w.db.secrets) read page w.db.book
        w.db.outbox = .ok (book, outbox, count)) :
      Step cfg julian w .other
        ((w.setDB w.clock { w.db with book := book, outbox := outbox }).setScanner pid none)
  | scanEnd {w : World} (pid : Nat) : Step cfg julian w .other (w.setScanner pid none)
  | acknowledge {w : World} {claims : List Claim} (jobID key : String)
      (hclaims : Area.secrets.acknowledgeObjectCleanup jobID key w.db.book.claims = some claims) :
      Step cfg julian w .other
        (w.setDB w.clock { w.db with book := { w.db.book with claims := claims } })

/-- Every streaming body is within the time the open handler allows it. -/
def World.InTime (w : World) : Prop :=
  ∀ pid key opened, w.flows pid = some (.streaming key opened) →
    w.clock ≤ opened + openStreamTimeout

end Secrets
end FlickDrop
