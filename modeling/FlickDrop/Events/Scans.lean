import Mathlib.Logic.Function.Basic
import FlickDrop.Events.Reconciliation
import FlickDrop.Foundations.Runs

/-!
# The cursor of a scanner

A call of `ReconcileOnce` reads the cursor row, lists a page without holding anything, and
only then commits; meanwhile other calls, resets and crashes happen.  The generation of the
cursor row orders the commits.  This module has the scanners of one area as a system of
their own, in which everything else the service does is a step that leaves the cursor row
alone, and proves that the committed cursors form a chain.
-/

namespace FlickDrop
namespace Events

open Foundations

/-- What the object store answers to a listing. -/
inductive Listing where
  | page (page : Page)
  /-- `storage.ErrInvalidCursor` -/
  | invalidCursor
  | failed

inductive ReconcileErr where
  | list
  | invalidPage
  | scan (err : ScanErr)
  deriving DecidableEq, Repr

/-- `ReconcileOnce` after its listing: the tables it leaves and its result.  Whatever fails
inside the transaction rolls it back. -/
def reconcileOnce (env : ScanEnv) (limit : Nat) (read : Cursor) (listing : Listing) (book : Book)
    (outbox : List OutboxRow) : (Book × List OutboxRow) × Except ReconcileErr Nat :=
  match listing with
  | .failed => ((book, outbox), .error .list)
  | .invalidCursor => ((resetCursor read book, outbox), .error .list)
  | .page page =>
    if page.invalid limit read then
      ((book, outbox), .error .invalidPage)
    else
      match commitPage env read page book outbox with
      | .error err => ((book, outbox), .error (.scan err))
      | .ok (book, outbox, count) => ((book, outbox), .ok count)

theorem reconcileOnce_page {env : ScanEnv} {limit : Nat} {read : Cursor} {page : Page}
    {book book' : Book} {outbox outbox' : List OutboxRow} {count : Nat}
    (hpage : page.invalid limit read = false)
    (hcommit : commitPage env read page book outbox = .ok (book', outbox', count)) :
    reconcileOnce env limit read (.page page) book outbox = ((book', outbox'), .ok count) := by
  simp [reconcileOnce, hpage, hcommit]

/-! ### The keys of a page -/

/-- Drawn job ids are new and differ from each other. -/
structure ScanEnv.Fresh (env : ScanEnv) (claims : List Claim) : Prop where
  unused : ∀ i jobID, env.newJobID i = some jobID → ∀ c ∈ claims, c.jobID ≠ jobID
  distinct : ∀ i j jobID, env.newJobID i = some jobID → env.newJobID j = some jobID → i = j

/-- A claim that a scan added, with the pending row of its job. -/
structure Claimed (codec : Codec) (outbox outbox' : List OutboxRow) (claim : Claim)
    (row : OutboxRow) (e : JobEvent) : Prop where
  mem : row ∈ outbox'
  id : row.id = claim.jobID
  new : ∀ old ∈ outbox, old.id ≠ row.id
  pending : row.state = .pending
  encodes : Encodes codec e row.payloadJSON
  kind : e.kind = .deleteOCIObject
  key : e.objectKey = claim.key

/-- What the loop has written before its `i`-th key: the claims it found, and claims of its
own under the ids it drew. -/
structure Progress (env : ScanEnv) (claims : List Claim) (outbox : List OutboxRow) (i : Nat)
    (s : Scan) : Prop where
  kept : outbox ⊆ s.outbox
  origin : ∀ c ∈ s.claims, c ∈ claims ∨
    (∃ j < i, env.newJobID j = some c.jobID) ∧ ∃ row e, Claimed env.codec outbox s.outbox c row e

section

variable {env : ScanEnv} {claims : List Claim} {outbox : List OutboxRow} {i : Nat}

theorem Progress.start : Progress env claims outbox 0 ⟨claims, outbox, 0⟩ :=
  ⟨fun _ h => h, fun _ hc => Or.inl hc⟩

theorem Progress.mono {j : Nat} {s : Scan} (h : Progress env claims outbox i s) (hij : i ≤ j) :
    Progress env claims outbox j s := by
  refine ⟨h.kept, fun c hc => (h.origin c hc).imp_right ?_⟩
  rintro ⟨⟨k, hk, hdrawn⟩, hclaimed⟩
  exact ⟨⟨k, Nat.lt_of_lt_of_le hk hij, hdrawn⟩, hclaimed⟩

/-- A key that the loop did not pass over is claimed afterwards: `insert or ignore` ignores
it only for the key, since the drawn id is new. -/
theorem visitKey_progress (hfresh : env.Fresh claims) {key : String} {s s' : Scan}
    (h : visitKey env i key s = .ok s') (hs : Progress env claims outbox i s) :
    Progress env claims outbox (i + 1) s' ∧ s.claims ⊆ s'.claims ∧
      (env.area.owns key = true → env.protect key = .ok true ∨ ∃ c ∈ s'.claims, c.key = key) := by
  unfold visitKey at h
  split at h
  · rename_i howns
    cases h
    refine ⟨hs.mono (Nat.le_succ i), fun _ hc => hc, fun hown => ?_⟩
    rw [hown] at howns
    cases howns
  · split at h
    · cases h
    · rename_i hprotect
      cases h
      exact ⟨hs.mono (Nat.le_succ i), fun _ hc => hc, fun _ => Or.inl hprotect⟩
    · split at h
      · cases h
      rename_i jobID hdrawn
      split at h
      · rename_i hignored
        cases h
        refine ⟨hs.mono (Nat.le_succ i), fun _ hc => hc, fun _ => Or.inr ?_⟩
        unfold insertClaim at hignored
        split at hignored
        · rename_i hany
          obtain ⟨c, hc, hsame⟩ := List.any_eq_true.mp hany
          rw [Bool.or_eq_true, decide_eq_true_eq, decide_eq_true_eq] at hsame
          refine ⟨c, hc, hsame.resolve_right fun hjob => ?_⟩
          rcases hs.origin c hc with hold | ⟨⟨j, hj, hearlier⟩, -⟩
          · exact hfresh.unused i jobID hdrawn c hold hjob
          · rw [hjob] at hearlier
            exact Nat.ne_of_lt hj (hfresh.distinct j i jobID hearlier hdrawn)
        · cases hignored
      · rename_i claims' hclaims
        split at h
        · cases h
        rename_i outbox' henqueue
        obtain ⟨rfl, -⟩ := insertClaim_some hclaims
        obtain ⟨payloadJSON, hencodes, hfree, rfl⟩ := enqueueTx_ok henqueue
        cases h
        refine ⟨⟨fun row hrow => List.mem_append_left _ (hs.kept hrow), ?_⟩,
          fun c hc => List.mem_append_left _ hc,
          fun _ => Or.inr ⟨⟨key, jobID⟩, List.mem_append_right _ List.mem_cons_self, rfl⟩⟩
        intro c hc
        rcases List.mem_append.mp hc with hc | hc
        · refine ((hs.mono (Nat.le_succ i)).origin c hc).imp_right ?_
          rintro ⟨hdraw, row, e, hclaimed⟩
          exact ⟨hdraw, row, e, { hclaimed with mem := List.mem_append_left _ hclaimed.mem }⟩
        · obtain rfl := List.mem_singleton.mp hc
          refine Or.inr ⟨⟨i, Nat.lt_succ_self i, hdrawn⟩, _, _, {
            mem := List.mem_append_right _ List.mem_cons_self
            id := injectTraceContext_jobID _ _
            new := ?_
            pending := rfl
            encodes := hencodes
            kind := injectTraceContext_kind _ _
            key := injectTraceContext_objectKey _ _ }⟩
          intro old hold hid
          exact Table.lookup_eq_none.mp hfree old (hs.kept hold)
            (hid.trans (injectTraceContext_jobID _ _))

theorem visitKeys_progress (hfresh : env.Fresh claims) {keys : List String} {s s' : Scan}
    (h : visitKeys env i keys s = .ok s') (hs : Progress env claims outbox i s) :
    (∃ j, Progress env claims outbox j s') ∧ s.claims ⊆ s'.claims ∧
      ∀ key ∈ keys, env.area.owns key = true →
        env.protect key = .ok true ∨ ∃ c ∈ s'.claims, c.key = key := by
  induction keys generalizing i s with
  | nil =>
    cases h
    exact ⟨⟨i, hs⟩, fun _ hc => hc, by simp⟩
  | cons key rest ih =>
    rw [visitKeys] at h
    split at h
    · cases h
    rename_i mid hmid
    obtain ⟨hprogress, hgrows, hkey⟩ := visitKey_progress hfresh hmid hs
    obtain ⟨hend, hgrows', hrest⟩ := ih h hprogress
    refine ⟨hend, fun c hc => hgrows' (hgrows hc), ?_⟩
    intro other hother howns
    rcases List.mem_cons.mp hother with rfl | hother
    · refine (hkey howns).imp_right ?_
      rintro ⟨c, hc, hckey⟩
      exact ⟨c, hgrows' hc, hckey⟩
    · exact hrest other hother howns

end

/-- The fate of a listed key in the commit of its page. -/
def Fate (env : ScanEnv) (book : Book) (outbox : List OutboxRow) (book' : Book)
    (outbox' : List OutboxRow) (key : String) : Prop :=
  env.protect key = .ok true ∨ (∃ c ∈ book.claims, c.key = key) ∨
    ∃ c ∈ book'.claims, c.key = key ∧ ∃ row e, Claimed env.codec outbox outbox' c row e

/-- A commit: it lost the race and changed nothing, or it advances the cursor by one
generation and settles every key of its page. -/
theorem commitPage_cases {env : ScanEnv} {read : Cursor} {page : Page} {book book' : Book}
    {outbox outbox' : List OutboxRow} {count : Nat}
    (h : commitPage env read page book outbox = .ok (book', outbox', count)) :
    book' = book ∧ outbox' = outbox ∨
      book.cursor.generation = read.generation ∧
        book'.cursor = ⟨page.nextCursor, read.generation + 1⟩ ∧
        (env.Fresh book.claims → ∀ key ∈ page.keys, env.area.owns key = true →
          Fate env book outbox book' outbox' key) := by
  unfold commitPage at h
  split at h
  · cases h
    exact Or.inl ⟨rfl, rfl⟩
  · rename_i hgeneration
    split at h
    · cases h
    rename_i scan hvisit
    cases h
    refine Or.inr ⟨not_not.mp hgeneration, rfl, fun hfresh key hkey howns => ?_⟩
    obtain ⟨⟨j, hprogress⟩, -, hkeys⟩ := visitKeys_progress hfresh hvisit Progress.start
    rcases hkeys key hkey howns with hprotected | ⟨c, hc, hckey⟩
    · exact Or.inl hprotected
    · rcases hprogress.origin c hc with hold | ⟨-, hclaimed⟩
      · exact Or.inr (Or.inl ⟨c, hold, hckey⟩)
      · exact Or.inr (Or.inr ⟨c, hc, hckey, hclaimed⟩)

/-! ### The system of scanners -/

/-- What the scanners of an area read and write; `reading` has the cursor that a call in
flight has read. -/
structure ScanState where
  book : Book
  outbox : List OutboxRow
  reading : Nat → Option Cursor

inductive ScanLabel where
  | began (pid : Nat)
  | finished (pid : Nat) (env : ScanEnv) (limit : Nat) (listing : Listing)
      (result : Except ReconcileErr Nat)
  | crashed (pid : Nat)
  /-- the rest of the service -/
  | other

inductive ScanStep (area : Area) : ScanState → ScanLabel → ScanState → Prop
  | began {s : ScanState} (pid : Nat) (hfree : s.reading pid = none) :
      ScanStep area s (.began pid)
        { s with reading := Function.update s.reading pid (some s.book.cursor) }
  | finished {s : ScanState} {read : Cursor} {book : Book} {outbox : List OutboxRow}
      {result : Except ReconcileErr Nat} (pid : Nat) (env : ScanEnv) (limit : Nat)
      (listing : Listing) (hat : s.reading pid = some read) (harea : env.area = area)
      (hscan : reconcileOnce env limit read listing s.book s.outbox = ((book, outbox), result)) :
      ScanStep area s (.finished pid env limit listing result)
        ⟨book, outbox, Function.update s.reading pid none⟩
  | crashed {s : ScanState} (pid : Nat) :
      ScanStep area s (.crashed pid) { s with reading := Function.update s.reading pid none }
  | other {s : ScanState} {book : Book} {outbox : List OutboxRow}
      (hcursor : book.cursor = s.book.cursor) :
      ScanStep area s .other ⟨book, outbox, s.reading⟩

/-- What a finished call was configured with and found. -/
def ScanLabel.env : ScanLabel → Option ScanEnv
  | .finished _ env _ _ _ => some env
  | .began _ | .crashed _ | .other => none

/-- The cursor a scanner has read. -/
def Scanner.read : Scanner → Cursor
  | .listing _ read | .listed _ read _ => read

/-- A page that is to be committed has passed its checks. -/
def Scanner.Valid : Scanner → Prop
  | .listing _ _ => True
  | .listed _ read page => ∃ limit, page.invalid limit read = false

/-- A call in flight has read an old cursor or the committed one. -/
def ScanState.Current (s : ScanState) : Prop :=
  ∀ pid read, s.reading pid = some read → read.generation ≤ s.book.cursor.generation ∧
    (read.generation = s.book.cursor.generation → read = s.book.cursor)

/-- The committed cursor becomes the next one of the page that the call `pid` listed from
it, and every key of the page under the area's root is settled by the same commit. -/
structure Advances (area : Area) (s : ScanState) (pid : Nat) (env : ScanEnv) (page : Page)
    (s' : ScanState) : Prop where
  listed : s.reading pid = some s.book.cursor
  cursor : s'.book.cursor = ⟨page.nextCursor, s.book.cursor.generation + 1⟩
  settled : env.Fresh s.book.claims → ∀ key ∈ page.keys, area.owns key = true →
    Fate env s.book s.outbox s'.book s'.outbox key

/-- The store refused the committed cursor to the call `pid`, which was not the empty one;
only the cursor changes. -/
structure Resets (s : ScanState) (pid : Nat) (s' : ScanState) : Prop where
  listed : s.reading pid = some s.book.cursor
  nonempty : s.book.cursor.token ≠ ""
  book : s'.book = { s.book with cursor := ⟨"", s.book.cursor.generation + 1⟩ }
  outbox : s'.outbox = s.outbox

/-- A step of the chain of committed cursors. -/
def Chained (area : Area) (s : ScanState) (label : ScanLabel) (s' : ScanState) : Prop :=
  match label with
  | .finished pid env _ (.page page) (.ok _) =>
    s'.book = s.book ∧ s'.outbox = s.outbox ∨ Advances area s pid env page s'
  | .finished pid _ _ .invalidCursor (.error _) =>
    s'.book = s.book ∧ s'.outbox = s.outbox ∨ Resets s pid s'
  | .other => s'.book.cursor = s.book.cursor
  | .began _ | .crashed _ | .finished _ _ _ _ _ => s'.book = s.book ∧ s'.outbox = s.outbox

theorem resetCursor_cases (read : Cursor) (book : Book) :
    resetCursor read book = book ∨ read.token ≠ "" ∧ book.cursor.generation = read.generation ∧
      resetCursor read book = { book with cursor := ⟨"", read.generation + 1⟩ } := by
  unfold resetCursor
  split
  · rename_i h
    exact Or.inr ⟨h.1, h.2, rfl⟩
  · exact Or.inl rfl

/-- **Every step of the scanners is a step of the chain.** -/
theorem ScanStep.chained {area : Area} {s s' : ScanState} {label : ScanLabel}
    (hcurrent : s.Current) (h : ScanStep area s label s') : Chained area s label s' := by
  cases h with
  | began | crashed => exact ⟨rfl, rfl⟩
  | other hcursor => exact hcursor
  | @finished read book outbox result pid env limit listing hat harea hscan =>
    cases listing with
    | failed =>
      cases hscan
      exact ⟨rfl, rfl⟩
    | invalidCursor =>
      cases hscan
      rcases resetCursor_cases read s.book with hsame | ⟨htoken, hgeneration, hreset⟩
      · exact Or.inl ⟨hsame, rfl⟩
      · -- the generation did not move, so what was read is what is committed
        have hread : read = s.book.cursor := (hcurrent pid read hat).2 hgeneration.symm
        subst hread
        exact Or.inr ⟨hat, htoken, hreset, rfl⟩
    | page page =>
      unfold reconcileOnce at hscan
      dsimp only at hscan
      split at hscan
      · cases hscan
        exact ⟨rfl, rfl⟩
      · split at hscan
        · cases hscan
          exact ⟨rfl, rfl⟩
        · rename_i book' outbox' count hcommit
          cases hscan
          rcases commitPage_cases hcommit with ⟨rfl, rfl⟩ | ⟨hgeneration, hcursor, hkeys⟩
          · exact Or.inl ⟨rfl, rfl⟩
          · have hread : read = s.book.cursor := (hcurrent pid read hat).2 hgeneration.symm
            subst hread
            exact Or.inr ⟨hat, hcursor, harea ▸ hkeys⟩

/-- The cursor stays or gets the next generation. -/
theorem Chained.generation {area : Area} {s s' : ScanState} {label : ScanLabel}
    (h : Chained area s label s') :
    s'.book.cursor = s.book.cursor ∨
      s'.book.cursor.generation = s.book.cursor.generation + 1 := by
  unfold Chained at h
  split at h
  · rcases h with h | h
    · exact Or.inl (by rw [h.1])
    · exact Or.inr (by rw [h.cursor])
  · rcases h with h | h
    · exact Or.inl (by rw [h.1])
    · exact Or.inr (by rw [h.book])
  · exact Or.inl h
  · exact Or.inl (by rw [h.1])
  · exact Or.inl (by rw [h.1])
  · exact Or.inl (by rw [h.1])

theorem ScanStep.current {area : Area} {s s' : ScanState} {label : ScanLabel} (hs : s.Current)
    (h : ScanStep area s label s') : s'.Current := by
  have hmoves := (h.chained hs).generation
  have hkept : ∀ pid read, s.reading pid = some read →
      read.generation ≤ s'.book.cursor.generation ∧
        (read.generation = s'.book.cursor.generation → read = s'.book.cursor) := by
    intro pid read hread
    obtain ⟨hle, heq⟩ := hs pid read hread
    rcases hmoves with hsame | hnext
    · rw [hsame]
      exact ⟨hle, heq⟩
    · rw [hnext]
      exact ⟨Nat.le_succ_of_le hle, fun hgeneration => by omega⟩
  intro pid read hread
  cases h with
  | other => exact hkept pid read hread
  | began other =>
    by_cases hpid : pid = other
    · subst hpid
      simp only [Function.update_self, Option.some.injEq] at hread
      subst hread
      exact ⟨Nat.le_refl _, fun _ => rfl⟩
    · simp only [Function.update_of_ne hpid] at hread
      exact hkept pid read hread
  | finished other | crashed other =>
    by_cases hpid : pid = other
    · subst hpid
      simp only [Function.update_self] at hread
      cases hread
    · simp only [Function.update_of_ne hpid] at hread
      exact hkept pid read hread

/-! ### A service as a system of scanners -/

/-- The scanners of a service with its reconciliation tables. -/
def ScanState.of (book : Book) (outbox : List OutboxRow) (scanners : Nat → Option Scanner) :
    ScanState :=
  ⟨book, outbox, Option.map Scanner.read ∘ scanners⟩

def ValidScanners (scanners : Nat → Option Scanner) : Prop :=
  ∀ pid scanner, scanners pid = some scanner → scanner.Valid

/-- A step of a service is a step of its scanners; a finished call had one of the allowed
environments. -/
def Scans (area : Area) (Allowed : ScanEnv → Prop) (s s' : ScanState) : Prop :=
  ∃ label, ScanStep area s label s' ∧ ∀ env, label.env = some env → Allowed env

section

variable {area : Area} {Allowed : ScanEnv → Prop} {book book' : Book}
  {outbox outbox' : List OutboxRow} {scanners : Nat → Option Scanner} {pid : Nat} {read : Cursor}
  {page : Page} {owner : Area} {env : ScanEnv}

theorem ValidScanners.update (h : ValidScanners scanners) {scanner : Option Scanner}
    (hnew : ∀ s, scanner = some s → s.Valid) :
    ValidScanners (Function.update scanners pid scanner) := by
  intro other s hs
  by_cases hpid : other = pid
  · subst hpid
    rw [Function.update_self] at hs
    exact hnew s hs
  · rw [Function.update_of_ne hpid] at hs
    exact h other s hs

theorem ScanState.of_update (book : Book) (outbox : List OutboxRow)
    (scanners : Nat → Option Scanner) (pid : Nat) (scanner : Option Scanner) :
    ScanState.of book outbox (Function.update scanners pid scanner) =
      ⟨book, outbox, Function.update (Option.map Scanner.read ∘ scanners) pid
        (scanner.map Scanner.read)⟩ := by
  rw [ScanState.of, Function.comp_update]

theorem Scans.other (hcursor : book'.cursor = book.cursor) :
    Scans area Allowed (.of book outbox scanners) (.of book' outbox' scanners) := by
  refine ⟨.other, ScanStep.other hcursor, ?_⟩
  rintro _ ⟨⟩

theorem Scans.begin (hfree : scanners pid = none) :
    Scans area Allowed (.of book outbox scanners)
      (.of book outbox (Function.update scanners pid (some (.listing owner book.cursor)))) := by
  rw [ScanState.of_update]
  refine ⟨.began pid, ScanStep.began pid (by simp [ScanState.of, hfree]), ?_⟩
  rintro _ ⟨⟩

/-- The arrival of the page is not seen in the tables. -/
theorem Scans.listed (hat : scanners pid = some (.listing owner read)) :
    Scans area Allowed (.of book outbox scanners)
      (.of book outbox (Function.update scanners pid (some (.listed owner read page)))) := by
  have hread : (Option.map Scanner.read ∘ scanners) pid = some read :=
    congrArg (Option.map Scanner.read) hat
  rw [ScanState.of_update, Option.map_some, Scanner.read, ← hread, Function.update_eq_self]
  exact Scans.other rfl

theorem Scans.reset (hat : scanners pid = some (.listing owner read)) (harea : env.area = area)
    (henv : Allowed env) :
    Scans area Allowed (.of book outbox scanners)
      (.of (resetCursor read book) outbox (Function.update scanners pid none)) := by
  rw [ScanState.of_update]
  refine ⟨.finished pid env 0 .invalidCursor (.error .list), ?_, ?_⟩
  · exact ScanStep.finished pid env 0 .invalidCursor
      (congrArg (Option.map Scanner.read) hat) harea rfl
  · rintro _ ⟨⟩
    exact henv

theorem Scans.commit (hvalid : ValidScanners scanners)
    (hat : scanners pid = some (.listed owner read page)) {count : Nat} (harea : env.area = area)
    (henv : Allowed env)
    (hcommit : commitPage env read page book outbox = .ok (book', outbox', count)) :
    Scans area Allowed (.of book outbox scanners)
      (.of book' outbox' (Function.update scanners pid none)) := by
  obtain ⟨limit, hpage⟩ := hvalid pid _ hat
  rw [ScanState.of_update]
  refine ⟨.finished pid env limit (.page page) (.ok count), ?_, ?_⟩
  · exact ScanStep.finished pid env limit (.page page)
      (congrArg (Option.map Scanner.read) hat) harea (reconcileOnce_page hpage hcommit)
  · rintro _ ⟨⟩
    exact henv

theorem Scans.ended :
    Scans area Allowed (.of book outbox scanners)
      (.of book outbox (Function.update scanners pid none)) := by
  rw [ScanState.of_update]
  refine ⟨.crashed pid, ScanStep.crashed pid, ?_⟩
  rintro _ ⟨⟩

end

end Events
end FlickDrop
