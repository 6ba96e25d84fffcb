import Mathlib.Data.List.Infix
import FlickDrop.Events.Outbox

/-!
# Object reconciliation

Model of the scanners `Reaper.ReconcileOnce` (`internal/secrets/reconciliation.go`) and
`Store.ReconcileOnce` (`internal/requests/cleanup.go`).  They are one algorithm over two
areas of the bucket: read the cursor, list a page, then in one transaction advance the
cursor, claim every listed key that nothing protects and enqueue its deletion.  The two
areas differ in the key area, the tables and the protection test, which is a
parameter here.

The claim of a key is released by `AcknowledgeObjectCleanup`, which the API routes to
the area the key belongs to.
-/

namespace FlickDrop
namespace Events

open Foundations

inductive Area where
  | secrets
  | requests
  deriving DecidableEq, Repr

/-- `managedObjectPrefix` and `requests.ObjectPrefix`. -/
def Area.root : Area → String
  | .secrets => "managed/secrets/"
  | .requests => "managed/requests/"

/-- `strings.HasPrefix(key, root)`. -/
def startsWith (key root : String) : Bool :=
  root.toList.isPrefixOf key.toList

/-- A key the area owns: under its root and not the root itself. -/
def Area.owns (area : Area) (key : String) : Bool :=
  startsWith key area.root && decide (key ≠ area.root)

/-- A row of the area's pending table. -/
structure Claim where
  key : String
  jobID : String
  deriving DecidableEq, Repr

/-- The cursor row of an area. -/
structure Cursor where
  token : String
  generation : Nat
  deriving DecidableEq, Repr

/-- The reconciliation tables of one area. -/
structure Book where
  cursor : Cursor
  claims : List Claim
  deriving DecidableEq, Repr

def Book.fresh : Book := ⟨⟨"", 0⟩, []⟩

/-- One page of a listing. -/
structure Page where
  keys : List String
  nextCursor : String
  deriving DecidableEq, Repr

inductive ScanErr where
  | protection
  | jobID
  | enqueue (err : OutboxErr)
  deriving DecidableEq, Repr

/-- `insert or ignore`: both columns are unique; `none` means ignored. -/
def insertClaim (claim : Claim) (claims : List Claim) : Option (List Claim) :=
  if claims.any fun c => decide (c.key = claim.key) || decide (c.jobID = claim.jobID) then
    none
  else
    some (claims ++ [claim])

/-- What the page loop writes. -/
structure Scan where
  claims : List Claim
  outbox : List OutboxRow
  count : Nat

/-- The delete job a scanner enqueues. -/
def orphanEvent (jobID key : String) (now : Nat) : JobEvent :=
  objectEvent jobID key .orphan now

/-- What one scan is configured with and finds in its environment: the protection test,
its clock reading, the job ids it draws and the outbox's own clock. -/
structure ScanEnv where
  codec : Codec
  subject : String
  carrier : List (String × String)
  area : Area
  protect : String → Except Unit Bool
  now : Nat
  newJobID : Nat → Option String
  enqueueNow : Nat → Nat

/-- The body of the page loop for the `i`-th key. -/
def visitKey (env : ScanEnv) (i : Nat) (key : String) (s : Scan) : Except ScanErr Scan :=
  if env.area.owns key = false then
    .ok s
  else
    match env.protect key with
    | .error () => .error .protection
    | .ok true => .ok s
    | .ok false =>
      match env.newJobID i with
      | none => .error .jobID
      | some jobID =>
        match insertClaim ⟨key, jobID⟩ s.claims with
        | none => .ok s
        | some claims =>
          match enqueueTx env.codec env.subject env.carrier (env.enqueueNow i)
              (orphanEvent jobID key env.now) s.outbox with
          | .error err => .error (.enqueue err)
          | .ok outbox => .ok ⟨claims, outbox, s.count + 1⟩

/-- The page loop. -/
def visitKeys (env : ScanEnv) : Nat → List String → Scan → Except ScanErr Scan
  | _, [], s => .ok s
  | i, key :: rest, s =>
    match visitKey env i key s with
    | .error err => .error err
    | .ok s' => visitKeys env (i + 1) rest s'

/-- The page checks before the transaction. -/
def Page.invalid (limit : Nat) (cursor : Cursor) (page : Page) : Bool :=
  decide (limit < page.keys.length) ||
    (decide (page.nextCursor ≠ "") && decide (page.nextCursor = cursor.token))

/-- The scan transaction.  `read` is the cursor row read before the listing; a scanner
that lost the race on its generation changes nothing and reports zero. -/
def commitPage (env : ScanEnv) (read : Cursor) (page : Page) (book : Book)
    (outbox : List OutboxRow) : Except ScanErr (Book × List OutboxRow × Nat) :=
  if book.cursor.generation ≠ read.generation then
    .ok (book, outbox, 0)
  else
    match visitKeys env 0 page.keys ⟨book.claims, outbox, 0⟩ with
    | .error err => .error err
    | .ok s => .ok (⟨⟨page.nextCursor, read.generation + 1⟩, s.claims⟩, s.outbox, s.count)

/-- The reset after the storage refused the cursor. -/
def resetCursor (read : Cursor) (book : Book) : Book :=
  if read.token ≠ "" ∧ book.cursor.generation = read.generation then
    { book with cursor := ⟨"", read.generation + 1⟩ }
  else
    book

/-- `AcknowledgeObjectCleanup` of one area; `none` is the refusal of its arguments. -/
def Area.acknowledgeObjectCleanup (area : Area) (jobID key : String) (claims : List Claim) :
    Option (List Claim) :=
  if blank jobID || !area.owns key then
    none
  else
    some (Table.delete (fun c => decide (c.key = key) && decide (c.jobID = jobID)) claims)

/-- The routing of `acknowledgeObjectCleanup` in `internal/httpapi/secrets.go`. -/
def acknowledgeArea (key : String) : Area :=
  if startsWith key Area.requests.root then .requests else .secrets

/-- Where one call of `ReconcileOnce` stands. -/
inductive Scanner where
  /-- the cursor is read, the listing is in flight -/
  | listing (area : Area) (read : Cursor)
  /-- the page is there and valid, the transaction comes next -/
  | listed (area : Area) (read : Cursor) (page : Page)

/-! ### The two areas -/

variable {env : ScanEnv} {key jobID : String} {area : Area} {count i : Nat} {read : Cursor}
  {page : Page}

theorem startsWith_iff {root : String} :
    startsWith key root = true ↔ root.toList <+: key.toList := by
  simp [startsWith]

/-- No key lies under both roots, so the routing finds the area that owns a key. -/
theorem acknowledgeArea_of_owns (h : area.owns key = true) : acknowledgeArea key = area := by
  have hroot : startsWith key area.root = true := by
    unfold Area.owns at h
    rw [Bool.and_eq_true] at h
    exact h.1
  cases area with
  | requests => exact if_pos hroot
  | secrets =>
    refine if_neg ?_
    intro hother
    rw [startsWith_iff] at hroot hother
    rcases List.prefix_or_prefix_of_prefix hroot hother with hle | hle
    · revert hle
      decide
    · revert hle
      decide

/-! ### What a scan writes -/

/-- One claimed key: the claim and the pending row of its job, under a job id that was
free. -/
structure ClaimsOne (codec : Codec) (area : Area) (s s' : Scan) (claim : Claim) (e : JobEvent)
    (row : OutboxRow) : Prop where
  claims : s'.claims = s.claims ++ [claim]
  outbox : s'.outbox = s.outbox ++ [row]
  owned : area.owns claim.key = true
  keyFree : ∀ c ∈ s.claims, c.key ≠ claim.key
  idFree : Table.lookup OutboxRow.id claim.jobID s.outbox = none
  rowID : row.id = claim.jobID
  pending : row.state = .pending
  encodes : Encodes codec e row.payloadJSON
  jobID : e.jobID = claim.jobID
  kind : e.kind = .deleteOCIObject
  key : e.objectKey = claim.key

theorem insertClaim_some {claim : Claim} {claims claims' : List Claim}
    (h : insertClaim claim claims = some claims') :
    claims' = claims ++ [claim] ∧ ∀ c ∈ claims, c.key ≠ claim.key := by
  unfold insertClaim at h
  split at h
  · cases h
  rename_i hnone
  refine ⟨(Option.some.inj h).symm, ?_⟩
  intro c hc hkey
  apply hnone
  rw [List.any_eq_true]
  exact ⟨c, hc, by simp [hkey]⟩

theorem visitKey_cases {s s' : Scan} (h : visitKey env i key s = .ok s') :
    s' = s ∨ ∃ claim e row, ClaimsOne env.codec env.area s s' claim e row ∧ claim.key = key ∧
      env.protect key = .ok false := by
  unfold visitKey at h
  split at h
  · exact Or.inl (Except.ok.inj h).symm
  · rename_i howns
    split at h
    · cases h
    · exact Or.inl (Except.ok.inj h).symm
    · rename_i hprotect
      split at h
      · cases h
      rename_i jobID _
      split at h
      · exact Or.inl (Except.ok.inj h).symm
      · rename_i claims hclaims
        split at h
        · cases h
        rename_i outbox henqueue
        obtain ⟨payloadJSON, hencodes, hfree, rfl⟩ := enqueueTx_ok henqueue
        obtain ⟨rfl, hkeyFree⟩ := insertClaim_some hclaims
        cases h
        exact Or.inr ⟨⟨key, jobID⟩, _, _,
          { claims := rfl
            outbox := rfl
            owned := by simpa using howns
            keyFree := hkeyFree
            idFree := hfree
            rowID := injectTraceContext_jobID _ _
            pending := rfl
            encodes := hencodes
            jobID := injectTraceContext_jobID _ _
            kind := injectTraceContext_kind _ _
            key := injectTraceContext_objectKey _ _ }, rfl, hprotect⟩

/-- What every claimed key keeps, the whole page keeps.  A claimed key is on the page and
not protected. -/
theorem visitKeys_invariant (Inv : Scan → Prop) {keys : List String}
    (hclaim : ∀ s s' claim e row, Inv s → ClaimsOne env.codec env.area s s' claim e row →
      claim.key ∈ keys → env.protect claim.key = .ok false → Inv s') {s s' : Scan} (hs : Inv s)
    (h : visitKeys env i keys s = .ok s') : Inv s' := by
  induction keys generalizing i s with
  | nil =>
    cases h
    exact hs
  | cons key rest ih =>
    rw [visitKeys] at h
    split at h
    · cases h
    rename_i mid hmid
    refine ih ?_ ?_ h
    · intro s s' claim e row hs hone hmem hprotect
      exact hclaim s s' claim e row hs hone (List.mem_cons_of_mem _ hmem) hprotect
    · rcases visitKey_cases hmid with rfl | ⟨claim, e, row, hone, hkey, hprotect⟩
      · exact hs
      · exact hclaim _ _ _ _ _ hs hone (hkey ▸ List.mem_cons_self) (hkey ▸ hprotect)

/-- Scans keep the outbox rows and the claims they find. -/
theorem commitPage_extends {book book' : Book} {outbox outbox' : List OutboxRow}
    (h : commitPage env read page book outbox = .ok (book', outbox', count)) :
    Extends outbox outbox' ∧ ∀ c ∈ book.claims, c ∈ book'.claims := by
  unfold commitPage at h
  split at h
  · cases h
    exact ⟨Extends.refl _, fun _ hc => hc⟩
  · split at h
    · cases h
    rename_i scan hvisit
    cases h
    refine visitKeys_invariant
      (fun s => Extends outbox s.outbox ∧ ∀ c ∈ book.claims, c ∈ s.claims) ?_
      ⟨Extends.refl _, fun _ hc => hc⟩ hvisit
    intro s s' claim e row hs hone _ _
    refine ⟨hs.1.trans ?_, ?_⟩
    · intro old hold
      refine ⟨old, ?_, rfl, rfl, fun hp => hp⟩
      rw [hone.outbox]
      exact List.mem_append_left _ hold
    · intro c hc
      rw [hone.claims]
      exact List.mem_append_left _ (hs.2 c hc)

/-- A scan schedules only keys of its page that nothing protects. -/
theorem scheduled_commitPage {book book' : Book} {outbox outbox' : List OutboxRow}
    (h : commitPage env read page book outbox = .ok (book', outbox', count))
    (hscheduled : Scheduled env.codec outbox' key) :
    Scheduled env.codec outbox key ∨ key ∈ page.keys ∧ env.protect key = .ok false := by
  unfold commitPage at h
  split at h
  · cases h
    exact Or.inl hscheduled
  · split at h
    · cases h
    rename_i scan hvisit
    cases h
    revert hscheduled
    refine visitKeys_invariant (fun s => Scheduled env.codec s.outbox key →
      Scheduled env.codec outbox key ∨ key ∈ page.keys ∧ env.protect key = .ok false)
      ?_ Or.inl hvisit
    rintro s s' claim e row hs hone hmem hprotect ⟨found, hfound, e', hencodes, hkind, hkey⟩
    rw [hone.outbox] at hfound
    rcases List.mem_append.mp hfound with hfound | hfound
    · exact hs ⟨found, hfound, e', hencodes, hkind, hkey⟩
    · obtain rfl := List.mem_singleton.mp hfound
      have hclaimed : claim.key = key := by
        rw [← hkey, hencodes.unique hone.encodes, hone.key]
      rw [← hclaimed]
      exact Or.inr ⟨hmem, hprotect⟩

/-- A change of the outbox by other parts of the API: no new delete job for an object of
`area`. -/
def Foreign (codec : Codec) (area : Area) (rows rows' : List OutboxRow) : Prop :=
  ∀ key, area.owns key = true → Scheduled codec rows' key → Scheduled codec rows key

theorem uniqueKey_acknowledge {claims claims' : List Claim}
    (h : area.acknowledgeObjectCleanup jobID key claims = some claims')
    (hunique : Table.UniqueKey Claim.key claims) : Table.UniqueKey Claim.key claims' := by
  unfold Area.acknowledgeObjectCleanup at h
  split at h
  · cases h
  obtain rfl := Option.some.inj h
  exact hunique.delete _

/-- An acknowledgement of job `jobID` for `key` removes nothing but the claim of that
key by that job. -/
theorem mem_acknowledge {claims claims' : List Claim}
    (h : area.acknowledgeObjectCleanup jobID key claims = some claims') (c : Claim) :
    c ∈ claims' ↔ c ∈ claims ∧ c ≠ ⟨key, jobID⟩ := by
  unfold Area.acknowledgeObjectCleanup at h
  split at h
  · cases h
  obtain rfl := Option.some.inj h
  have hclaim : c = ⟨key, jobID⟩ ↔ c.key = key ∧ c.jobID = jobID := by
    cases c
    simp
  rw [Table.delete, List.mem_filter, ne_eq, hclaim]
  simp only [Bool.not_eq_true', Bool.and_eq_false_imp, decide_eq_true_eq, decide_eq_false_iff_not,
    not_and]

end Events
end FlickDrop
