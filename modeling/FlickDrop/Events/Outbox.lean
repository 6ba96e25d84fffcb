import FlickDrop.Events.JobEvent
import FlickDrop.Foundations.Table

/-!
# The transactional outbox

Model of `internal/events/outbox.go` and of the loop of `internal/events/publisher.go`.
An event is committed as an outbox row together with the state change that needs it;
`PublishDue` later sends each due row to the broker and marks it.

`PublishDue` is not atomic: its program points are the constructors of `Publisher`, and
between any two of them other publishers, producers and the worker run.
-/

namespace FlickDrop
namespace Events

open Foundations

inductive RowState where
  | pending
  | published
  | failed
  deriving DecidableEq, Repr

structure OutboxRow where
  id : String
  subject : String
  payloadJSON : String
  state : RowState
  attempts : Nat
  nextAttemptAt : Nat
  publishedAt : Option Nat
  lastError : Option String
  createdAt : Nat
  updatedAt : Nat
  deriving DecidableEq, Repr

inductive OutboxErr where
  | invalidEvent (err : EventErr)
  | duplicateID
  | limitNotPositive
  | publishErrorRequired
  | nextAttemptRequired
  | notFound
  deriving DecidableEq, Repr

/-- `injectTraceContext`: the propagator's carrier replaces the event's own, unless it
is empty. -/
def injectTraceContext (carrier : List (String × String)) (e : JobEvent) : JobEvent :=
  if carrier = [] then e else { e with traceContext := carrier }

section

variable (carrier : List (String × String)) (e : JobEvent)

@[simp] theorem injectTraceContext_jobID : (injectTraceContext carrier e).jobID = e.jobID := by
  unfold injectTraceContext
  split <;> rfl

@[simp] theorem injectTraceContext_kind : (injectTraceContext carrier e).kind = e.kind := by
  unfold injectTraceContext
  split <;> rfl

@[simp] theorem injectTraceContext_objectKey :
    (injectTraceContext carrier e).objectKey = e.objectKey := by
  unfold injectTraceContext
  split <;> rfl

@[simp] theorem injectTraceContext_validate :
    (injectTraceContext carrier e).validate = e.validate := by
  unfold injectTraceContext
  split <;> rfl

end

/-- The row `EnqueueTx` inserts. -/
def OutboxRow.pending (subject payloadJSON : String) (now : Nat) (e : JobEvent) : OutboxRow where
  id := e.jobID
  subject := subject
  payloadJSON := payloadJSON
  state := .pending
  attempts := 0
  nextAttemptAt := now
  publishedAt := none
  lastError := none
  createdAt := now
  updatedAt := now

/-- What a transaction draws from its environment besides the clock. -/
structure Draws where
  carrier : List (String × String)
  newJobID : Nat → Option String

/-- `OutboxStore.EnqueueTx`; the primary key refuses a job id that is already there. -/
def enqueueTx (codec : Codec) (subject : String) (carrier : List (String × String)) (now : Nat)
    (event : JobEvent) (rows : List OutboxRow) : Except OutboxErr (List OutboxRow) :=
  let event := injectTraceContext carrier event
  match event.json codec with
  | .error err => .error (.invalidEvent err)
  | .ok payloadJSON =>
    if (Table.lookup OutboxRow.id event.jobID rows).isSome then
      .error .duplicateID
    else
      .ok (rows ++ [OutboxRow.pending subject payloadJSON now event])

/-- `order by next_attempt_at, created_at` over the stored texts; `textLe` compares the
texts of two instants. -/
def OutboxRow.dueBefore (textLe : Nat → Nat → Bool) (a b : OutboxRow) : Bool :=
  textLe a.nextAttemptAt b.nextAttemptAt &&
    (!textLe b.nextAttemptAt a.nextAttemptAt || textLe a.createdAt b.createdAt)

/-- `OutboxStore.ListDue`; one row that does not decode fails the whole call. -/
def listDue (codec : Codec) (textLe : Nat → Nat → Bool) (dueAt : Nat) (limit : Int)
    (rows : List OutboxRow) : Except OutboxErr (List OutboxRow) :=
  if limit ≤ 0 then
    .error .limitNotPositive
  else
    let due := rows.filter fun row =>
      (decide (row.state = .pending) || decide (row.state = .failed)) &&
        textLe row.nextAttemptAt dueAt
    let records := (due.mergeSort (OutboxRow.dueBefore textLe)).take limit.toNat
    match records.findSome? fun row =>
        match decodeJobEvent codec row.payloadJSON with
        | .error err => some err
        | .ok _ => none with
    | some err => .error (.invalidEvent err)
    | none => .ok records

/-- `where id = ? and state != 'published'`. -/
def OutboxRow.unpublished (id : String) (row : OutboxRow) : Bool :=
  decide (row.id = id) && decide (row.state ≠ .published)

/-- The columns `MarkPublished` sets. -/
def OutboxRow.publish (now : Nat) (row : OutboxRow) : OutboxRow :=
  { row with
    state := .published, publishedAt := some now, lastError := none, updatedAt := now }

/-- The columns `MarkFailed` sets. -/
def OutboxRow.fail (now : Nat) (text : String) (nextAttemptAt : Nat) (row : OutboxRow) :
    OutboxRow :=
  { row with
    state := .failed, attempts := row.attempts + 1, nextAttemptAt := nextAttemptAt,
    lastError := some text, updatedAt := now }

/-- `OutboxStore.MarkPublished`. -/
def markPublished (now : Nat) (id : String) (rows : List OutboxRow) :
    Except OutboxErr (List OutboxRow) :=
  if Table.affected (OutboxRow.unpublished id) rows ≠ 1 then
    .error .notFound
  else
    .ok (Table.update (OutboxRow.unpublished id) (OutboxRow.publish now) rows)

/-- `OutboxStore.MarkFailed`. -/
def markFailed (now : Nat) (id : String) (publishErr : Option String) (nextAttemptAt : Nat)
    (rows : List OutboxRow) : Except OutboxErr (List OutboxRow) :=
  match publishErr with
  | none => .error .publishErrorRequired
  | some text =>
    if nextAttemptAt = 0 then
      .error .nextAttemptRequired
    else if Table.affected (OutboxRow.unpublished id) rows ≠ 1 then
      .error .notFound
    else
      .ok (Table.update (OutboxRow.unpublished id) (OutboxRow.fail now text nextAttemptAt) rows)

structure PublishResult where
  published : Nat
  failed : Nat
  deriving DecidableEq, Repr

/-- Where one call of `PublishDue` stands; `now` is the instant it listed at. -/
inductive Publisher where
  /-- about to publish the first of the remaining records -/
  | publishing (now : Nat) (todo : List OutboxRow) (result : PublishResult)
  /-- `Publish` returned nil, `MarkPublished` comes next -/
  | sent (now : Nat) (record : OutboxRow) (rest : List OutboxRow) (result : PublishResult)
  /-- `Publish` returned an error, `MarkFailed` comes next -/
  | refused (now : Nat) (record : OutboxRow) (publishErr : String) (rest : List OutboxRow)
      (result : PublishResult)

/-- The records a call still holds. -/
def Publisher.records : Publisher → List OutboxRow
  | .publishing _ todo _ => todo
  | .sent _ record rest _ => record :: rest
  | .refused _ record _ rest _ => record :: rest

/-! ### What the statements do -/

/-- Rows are never removed, keep their id and payload, and stay published. -/
def Extends (rows rows' : List OutboxRow) : Prop :=
  ∀ row ∈ rows, ∃ row' ∈ rows', row'.id = row.id ∧ row'.payloadJSON = row.payloadJSON ∧
    (row.state = .published → row'.state = .published)

theorem Extends.refl (rows : List OutboxRow) : Extends rows rows :=
  fun row hrow => ⟨row, hrow, rfl, rfl, id⟩

theorem Extends.trans {a b c : List OutboxRow} (hab : Extends a b) (hbc : Extends b c) :
    Extends a c := by
  intro row hrow
  obtain ⟨mid, hmid, hid, hpayload, hstate⟩ := hab row hrow
  obtain ⟨last, hlast, hid', hpayload', hstate'⟩ := hbc mid hmid
  exact ⟨last, hlast, hid'.trans hid, hpayload'.trans hpayload, fun h => hstate' (hstate h)⟩

section

variable {codec : Codec} {subject : String} {carrier : List (String × String)} {now : Nat}
  {event : JobEvent} {rows rows' : List OutboxRow} {key : String}

/-- A committed enqueue appends one pending row, under a job id that was free, whose
payload encodes the event up to its trace context. -/
theorem enqueueTx_ok (h : enqueueTx codec subject carrier now event rows = .ok rows') :
    ∃ payloadJSON, Encodes codec (injectTraceContext carrier event) payloadJSON ∧
      Table.lookup OutboxRow.id event.jobID rows = none ∧
      rows' = rows ++ [OutboxRow.pending subject payloadJSON now
        (injectTraceContext carrier event)] := by
  unfold enqueueTx at h
  dsimp only at h
  split at h
  · cases h
  rename_i payloadJSON hjson
  split at h
  · cases h
  rename_i hfree
  cases h
  rw [injectTraceContext_jobID, Option.not_isSome_iff_eq_none] at hfree
  exact ⟨payloadJSON, json_eq_ok.mp hjson, hfree, rfl⟩

/-- Nothing stands in the way of the `i`-th job of a transaction: an id is drawn, is not
blank and is new, and the event marshals. -/
def Draws.Usable (codec : Codec) (draws : Draws) (i : Nat) (event : String → JobEvent)
    (rows : List OutboxRow) : Prop :=
  ∃ jobID text, draws.newJobID i = some jobID ∧ blank jobID = false ∧
    Table.lookup OutboxRow.id jobID rows = none ∧
    codec.encode (injectTraceContext draws.carrier (event jobID)) = some text

theorem enqueueTx_succeeds (subject : String) (now : Nat) {text : String}
    (hvalid : event.validate = .ok ()) (hfree : Table.lookup OutboxRow.id event.jobID rows = none)
    (hencode : codec.encode (injectTraceContext carrier event) = some text) :
    ∃ rows', enqueueTx codec subject carrier now event rows = .ok rows' := by
  have hjson : (injectTraceContext carrier event).json codec = .ok text :=
    json_eq_ok.mpr ⟨(injectTraceContext_validate carrier event).trans hvalid, hencode⟩
  unfold enqueueTx
  dsimp only
  rw [hjson, injectTraceContext_jobID, hfree]
  exact ⟨_, rfl⟩

theorem enqueueTx_extends (h : enqueueTx codec subject carrier now event rows = .ok rows') :
    Extends rows rows' := by
  obtain ⟨payloadJSON, -, -, rfl⟩ := enqueueTx_ok h
  intro row hrow
  exact ⟨row, List.mem_append_left _ hrow, rfl, rfl, id⟩

/-- The outbox has a job that deletes the object `key`. -/
def Scheduled (codec : Codec) (rows : List OutboxRow) (key : String) : Prop :=
  ∃ row ∈ rows, ∃ e, Encodes codec e row.payloadJSON ∧ e.kind = .deleteOCIObject ∧
    e.objectKey = key

/-- An enqueue schedules the object its own event names, and no other. -/
theorem scheduled_enqueueTx (h : enqueueTx codec subject carrier now event rows = .ok rows')
    (hscheduled : Scheduled codec rows' key) :
    Scheduled codec rows key ∨ event.kind = .deleteOCIObject ∧ event.objectKey = key := by
  obtain ⟨payloadJSON, hencodes, -, rfl⟩ := enqueueTx_ok h
  obtain ⟨row, hrow, e, he, hkind, hkey⟩ := hscheduled
  rcases List.mem_append.mp hrow with hrow | hrow
  · exact Or.inl ⟨row, hrow, e, he, hkind, hkey⟩
  · obtain rfl := List.mem_singleton.mp hrow
    have hsame : e = injectTraceContext carrier event := he.unique hencodes
    rw [hsame, injectTraceContext_kind] at hkind
    rw [hsame, injectTraceContext_objectKey] at hkey
    exact Or.inr ⟨hkind, hkey⟩

/-- The outbox gained a job that deletes the object `key`. -/
def Enqueued (codec : Codec) (rows rows' : List OutboxRow) (key : String) : Prop :=
  ∃ row ∈ rows', (∀ old ∈ rows, old.id ≠ row.id) ∧ ∃ e, Encodes codec e row.payloadJSON ∧
    e.kind = .deleteOCIObject ∧ e.objectKey = key

theorem Enqueued.mono {before after : List OutboxRow} (h : Enqueued codec rows rows' key)
    (hbefore : before ⊆ rows) (hafter : rows' ⊆ after) : Enqueued codec before after key := by
  obtain ⟨row, hrow, hnew, hevent⟩ := h
  exact ⟨row, hafter hrow, fun old hold => hnew old (hbefore hold), hevent⟩

/-- A committed enqueue of a delete job. -/
theorem enqueued_enqueueTx (h : enqueueTx codec subject carrier now event rows = .ok rows')
    (hkind : event.kind = .deleteOCIObject) :
    rows ⊆ rows' ∧ Enqueued codec rows rows' event.objectKey := by
  obtain ⟨payloadJSON, hencodes, hfree, rfl⟩ := enqueueTx_ok h
  refine ⟨List.subset_append_left _ _, _, List.mem_append_right _ (List.mem_singleton_self _), ?_,
    _, hencodes, (injectTraceContext_kind carrier event).trans hkind,
    injectTraceContext_objectKey carrier event⟩
  intro old hold
  show old.id ≠ (injectTraceContext carrier event).jobID
  rw [injectTraceContext_jobID]
  exact Table.lookup_eq_none.mp hfree old hold

end

/-- Every listed record is a row that was not published. -/
theorem mem_of_listDue {codec : Codec} {textLe : Nat → Nat → Bool} {dueAt : Nat} {limit : Int}
    {rows records : List OutboxRow} (h : listDue codec textLe dueAt limit rows = .ok records)
    {record : OutboxRow} (hrecord : record ∈ records) : record ∈ rows := by
  unfold listDue at h
  split at h
  · cases h
  dsimp only at h
  split at h
  · cases h
  cases h
  have hsorted := List.mem_of_mem_take hrecord
  rw [List.mem_mergeSort] at hsorted
  exact (List.mem_filter.mp hsorted).1

/-- What the outbox invariants need to know about a mark: it keeps the rows, and a row
is published afterwards only if it was before or is the one `MarkPublished` names. -/
structure Marked (mark : Option String) (rows rows' : List OutboxRow) : Prop where
  extend : Extends rows rows'
  origin : ∀ row' ∈ rows', ∃ row ∈ rows, row'.id = row.id ∧ row'.payloadJSON = row.payloadJSON ∧
    (row'.state = .published → row.state = .published ∨ mark = some row.id)
  unique : Table.UniqueKey OutboxRow.id rows → Table.UniqueKey OutboxRow.id rows'

theorem marked_update (id : String) (change : OutboxRow → OutboxRow) {mark : Option String}
    (hid : ∀ row, (change row).id = row.id)
    (hpayload : ∀ row, (change row).payloadJSON = row.payloadJSON)
    (hmark : ∀ row, (change row).state = .published → mark = some id) (rows : List OutboxRow) :
    Marked mark rows (Table.update (OutboxRow.unpublished id) change rows) := by
  refine ⟨?_, ?_, fun hunique => hunique.update hid⟩
  · intro row hrow
    refine ⟨_, List.mem_map_of_mem hrow, ?_⟩
    split
    · rename_i hguard
      simp only [OutboxRow.unpublished, Bool.and_eq_true, decide_eq_true_eq] at hguard
      exact ⟨hid row, hpayload row, fun hpublished => absurd hpublished hguard.2⟩
    · exact ⟨rfl, rfl, fun hpublished => hpublished⟩
  · intro row' hrow'
    obtain ⟨row, hrow, rfl⟩ := List.mem_map.mp hrow'
    refine ⟨row, hrow, ?_⟩
    split
    · rename_i hguard
      simp only [OutboxRow.unpublished, Bool.and_eq_true, decide_eq_true_eq] at hguard
      refine ⟨hid row, hpayload row, fun hpublished => Or.inr ?_⟩
      rw [hguard.1]
      exact hmark row hpublished
    · exact ⟨rfl, rfl, Or.inl⟩

theorem markPublished_marked {now : Nat} {id : String} {rows rows' : List OutboxRow}
    (h : markPublished now id rows = .ok rows') : Marked (some id) rows rows' := by
  unfold markPublished at h
  split at h
  · cases h
  cases h
  exact marked_update id (OutboxRow.publish now) (fun _ => rfl) (fun _ => rfl) (fun _ _ => rfl) rows

theorem markFailed_marked {now : Nat} {id : String} {publishErr : Option String}
    {nextAttemptAt : Nat} {rows rows' : List OutboxRow}
    (h : markFailed now id publishErr nextAttemptAt rows = .ok rows') : Marked none rows rows' := by
  unfold markFailed at h
  split at h
  · cases h
  rename_i text
  split at h
  · cases h
  split at h
  · cases h
  cases h
  exact marked_update id (OutboxRow.fail now text nextAttemptAt) (fun _ => rfl)
    (fun _ => rfl) (by simp [OutboxRow.fail]) rows

end Events
end FlickDrop
