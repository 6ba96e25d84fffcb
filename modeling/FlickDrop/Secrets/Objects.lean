import FlickDrop.Secrets.OneTime

/-!
# No live or streaming object is scheduled for deletion

Five places enqueue delete jobs for objects of secrets.  Each of them does so for an
object whose secret is dead: nothing can open or activate it any more, and no body of it
streams.  Being dead is stable, so a scheduled object stays dead; what protects a
streaming body meanwhile is the row of its secret, which no purge takes away.

All of this rests on the time the open handler allows a stream (`World.InTime`), on the
order of instants under `julianday`, and on keys that are never reused.
-/

namespace FlickDrop
namespace Secrets

open Foundations Events

/-- At `clock` neither an open nor an activation can succeed on the row any more. -/
def DeadRow (pendingTTL clock : Nat) (row : SecretRow) : Prop :=
  row.consumedAt.isSome ∨ row.expiresAt ≤ clock ∨
    row.state = .pendingUpload ∧ row.pendingDeadline pendingTTL ≤ clock

/-- Nothing will be read from or activated on the object of `id` any more. -/
structure Dead (cfg : Config) (w : World) (id : String) : Prop where
  known : id ∈ w.issued ∨ objectKey id ∈ w.stored
  row : ∀ row, w.row id = some row → row.storageBackend = .s3Object →
    DeadRow cfg.pendingTTL w.clock row
  quiet : ∀ pid opened, w.flows pid ≠ some (.streaming (objectKey id) opened)

/-- What an opened body rests on: its secret is consumed, and while it streams the row of
the secret is there and says since when. -/
structure FlowOK (w : World) (flow : Flow) (id : String) : Prop where
  issued : id ∈ w.issued
  key : flow.key = objectKey id
  consumed : ∀ row, w.row id = some row → row.consumedAt.isSome
  protecting : ∀ key opened, flow = .streaming key opened →
    ∃ row, w.row id = some row ∧ row.storageBackend = .s3Object ∧ row.consumedAt = some opened

/-- A finalization in flight knows the deadline of its row. -/
def PendingOK (cfg : Config) (w : World) (id : String) (pending : Pending) : Prop :=
  id ∈ w.issued ∧
    ∀ row, w.row id = some row → pending.deadline = row.pendingDeadline cfg.pendingTTL

/-- Why a step may schedule `key`. -/
inductive JobCause (cfg : Config) (w : World) (label : Label) (w' : World) (key : String) : Prop
  | before (h : Scheduled cfg.codec w.db.outbox key)
  /-- the transaction ended the secret -/
  | ended {id : String} {row : SecretRow} (hrow : w.row id = some row)
      (hbackend : row.storageBackend = .s3Object) (hkey : row.storageKey = key)
      (hevent : label.event id = .terminal .locked ∨ label.event id = .terminal .cancelled ∨
        label.event id = .terminal .reclaimed)
  /-- the body was closed -/
  | streamed {pid : Nat} (hat : w.flows pid = some (.finished key))
      (hdone : ∀ other, other ≠ pid → w'.flows other = w.flows other)
      (hgone : w'.flows pid = none) (hrows : w'.db.secrets = w.db.secrets)
  /-- a scan found it unprotected -/
  | unprotected (hstored : key ∈ w.stored) (hrows : w'.db.secrets = w.db.secrets)
      (hflows : w'.flows = w.flows)
      (hfree : protectObjectTx cfg.pendingTTL w.clock key w.db.secrets = false)

/-- What a step does besides the rows. -/
structure Moves (cfg : Config) (w : World) (label : Label) (w' : World) : Prop where
  activated : ∀ id, label.event id = .activated →
    ∃ pid pending, w.finalizing pid = some (id, pending) ∧ w.clock < pending.deadline
  finalizing : ∀ pid id pending, w'.finalizing pid = some (id, pending) →
    w.finalizing pid = some (id, pending) ∨ ∃ row, w.row id = some row ∧
      pending.deadline = row.pendingDeadline cfg.pendingTTL
  flows : ∀ pid flow, w'.flows pid = some flow → w.flows pid = some flow ∨
    (∃ opened, w.flows pid = some (.streaming flow.key opened) ∧ flow = .finished flow.key) ∨
    ∃ id row now, label.event id = .terminal .opened ∧ w.row id = some row ∧
      row.consumedAt = none ∧ row.storageBackend = .s3Object ∧
      flow = .streaming row.storageKey now ∧ w'.row id = some (row.consume now) ∧
      ∀ other, other ≠ pid → w'.flows other = w.flows other
  bucket : w.bucket ⊆ w.stored → w'.bucket ⊆ w'.stored
  stored : w.stored ⊆ w'.stored
  pages : ∀ pid area read page, w'.scanners pid = some (.listed area read page) →
    w.scanners pid = some (.listed area read page) ∨ page.keys ⊆ w.bucket
  jobs : ∀ key, Area.secrets.owns key = true → Scheduled cfg.codec w'.db.outbox key →
    (∀ pid area read page, w.scanners pid = some (.listed area read page) →
      page.keys ⊆ w.stored) →
    JobCause cfg w label w' key

/-- The invariant. -/
structure ObjectInv (cfg : Config) (w : World) : Prop where
  inv : Inv w
  inTime : w.InTime
  finalizing : ∀ pid id pending, w.finalizing pid = some (id, pending) → PendingOK cfg w id pending
  flows : ∀ pid flow, w.flows pid = some flow → ∃ id, FlowOK w flow id
  distinct : ∀ pid pid' flow flow', w.flows pid = some flow → w.flows pid' = some flow' →
    flow.key = flow'.key → pid = pid'
  bucket : w.bucket ⊆ w.stored
  pages : ∀ pid area read page, w.scanners pid = some (.listed area read page) →
    page.keys ⊆ w.stored
  dead : ∀ id, Area.secrets.owns (objectKey id) = true →
    Scheduled cfg.codec w.db.outbox (objectKey id) → Dead cfg w id

/-! ### Rows -/

theorem objectKey_inj {id id' : String} (h : objectKey id = objectKey id') : id = id' := by
  have hlist := congrArg String.toList h
  simp only [objectKey, String.toList_append, List.append_cancel_left_eq] at hlist
  exact String.toList_inj.mp hlist

theorem owns_objectKey {key : String} (h : Area.secrets.owns key = true) :
    ∃ id, key = objectKey id := by
  unfold Area.owns at h
  rw [Bool.and_eq_true, startsWith_iff] at h
  obtain ⟨rest, hrest⟩ := h.1
  refine ⟨String.ofList rest, ?_⟩
  apply String.toList_inj.mp
  rw [objectKey, String.toList_append, String.toList_ofList, hrest]

section

variable {cfg : Config} {julian : JulianDay} {w w' : World} {label : Label}
  {id accessProofHash : String} {row : SecretRow} {event : Event} {flow : Flow}
  {pid now pendingTTL clock after opened : Nat} {secret : Secret} {found' : Option SecretRow}
  {pending : Pending}

/-- A consumed row stays as it is, or is purged when no body may stream. -/
theorem RowStep.of_consumed (h : RowStep julian clock after (some row) event found')
    (hinv : RowInv row) (hconsumed : row.consumedAt = some opened) :
    (∃ row', found' = some row' ∧ row'.storageBackend = row.storageBackend ∧
      row'.consumedAt = some opened) ∨
    found' = none ∧ ∃ now, now ≤ after ∧ row.streaming julian now = false := by
  cases h with
  | kept => exact Or.inl ⟨row, rfl, rfl, hconsumed⟩
  | touched => exact Or.inl ⟨_, rfl, rfl, hconsumed⟩
  | purged row now _ hquiet hnow => exact Or.inr ⟨rfl, now, hnow, hquiet⟩
  | activated row now hpending =>
    rw [hinv.pending hpending] at hconsumed
    cases hconsumed
  | refused row now hactive hunconsumed | locked row now hactive hunconsumed
  | opened row now hactive hunconsumed | cancelled row hunconsumed
  | reclaimed row hunconsumed =>
    rw [hunconsumed] at hconsumed
    cases hconsumed

/-- A row whose body may stream is not purged. -/
theorem streaming_of_inTime (hbackend : row.storageBackend = .s3Object)
    (hconsumed : row.consumedAt = some opened) (hnow : now ≤ clock)
    (hclock : clock ≤ opened + openStreamTimeout) : row.streaming julian now = true := by
  have hday : julian.day ((now : Int) - openObjectGrace) < julian.day opened := by
    apply julian.separates
    have hgrace : openObjectGrace = openStreamTimeout + 300000000000 := by decide
    omega
  simp [SecretRow.streaming, hbackend, hconsumed, hday]

/-- A dead row is neither opened nor activated. -/
theorem RowStep.of_dead (h : RowStep julian clock after (some row) event found') (hinv : RowInv row)
    (hdead : DeadRow pendingTTL clock row)
    (hactivated : event = .activated → clock < row.pendingDeadline pendingTTL) :
    event ≠ .terminal .opened ∧ event ≠ .activated := by
  have hdeadline : row.pendingDeadline pendingTTL ≤ row.expiresAt := Nat.min_le_left _ _
  constructor
  · rintro rfl
    cases h with
    | opened row now hactive hunconsumed hclock hearly =>
      rcases hdead with hconsumed | hexpired | ⟨hpending, -⟩
      · rw [hunconsumed] at hconsumed
        cases hconsumed
      · omega
      · rw [hactive] at hpending
        cases hpending
  · rintro rfl
    have hearly := hactivated rfl
    cases h with
    | activated row now hpending =>
      rcases hdead with hconsumed | hexpired | ⟨-, hlate⟩
      · rw [hinv.pending hpending] at hconsumed
        cases hconsumed
      · omega
      · omega

theorem DeadRow.mono (h : DeadRow pendingTTL clock row) (hclock : clock ≤ after) :
    DeadRow pendingTTL after row := by
  rcases h with h | h | ⟨hstate, h⟩
  · exact Or.inl h
  · exact Or.inr (Or.inl (h.trans hclock))
  · exact Or.inr (Or.inr ⟨hstate, h.trans hclock⟩)

/-- Death is permanent, for one row. -/
theorem RowStep.dead {row' : SecretRow}
    (h : RowStep julian clock after (some row) event (some row')) (hclock : clock ≤ after)
    (hdead : DeadRow pendingTTL clock row) (hnot : event ≠ .activated) :
    DeadRow pendingTTL after row' := by
  cases h with
  | kept => exact hdead.mono hclock
  | touched row now => exact hdead.mono hclock
  | activated => exact absurd rfl hnot
  | opened => exact Or.inl rfl
  | locked row now hactive hunconsumed hmany =>
    refine Or.inl ?_
    rw [SecretRow.countFailure, if_pos hmany]
    rfl
  | refused row now hactive hunconsumed hfew =>
    rcases hdead with hconsumed | hexpired | ⟨hpending, -⟩
    · rw [hunconsumed] at hconsumed
      cases hconsumed
    · exact Or.inr (Or.inl (hexpired.trans hclock))
    · rw [hactive] at hpending
      cases hpending

/-! ### What stays true -/

theorem PendingOK.mono (h : PendingOK cfg w id pending) (hadvance : Advance julian w label w') :
    PendingOK cfg w' id pending := by
  refine ⟨(hadvance.issued id).mpr (Or.inl h.1), ?_⟩
  intro row' hrow'
  rcases (hadvance.rows id).origin hrow' with ⟨-, hcreated⟩ | ⟨row, hrow, hsame⟩
  · exact absurd h.1 (hadvance.fresh id hcreated).1
  · rw [h.2 row hrow, SecretRow.pendingDeadline, SecretRow.pendingDeadline, hsame.expiresAt,
      hsame.createdAt]

theorem FlowOK.mono (h : FlowOK w flow id) (hinv : Inv w) (hadvance : Advance julian w label w')
    (hinTime : ∀ key opened, flow = .streaming key opened → w'.clock ≤ opened + openStreamTimeout) :
    FlowOK w' flow id := by
  have hrows := hadvance.rows id
  refine ⟨(hadvance.issued id).mpr (Or.inl h.issued), h.key, ?_, ?_⟩
  · intro row' hrow'
    rcases hrows.origin hrow' with ⟨-, hcreated⟩ | ⟨row, hrow, -⟩
    · exact absurd h.issued (hadvance.fresh id hcreated).1
    · obtain ⟨opened, hopened⟩ := Option.isSome_iff_exists.mp (h.consumed row hrow)
      rw [hrow] at hrows
      rcases hrows.of_consumed (hinv.rows id row hrow) hopened with
        ⟨row'', hrow'', -, hsame⟩ | ⟨hgone, -⟩
      · rw [hrow''] at hrow'
        obtain rfl := Option.some.inj hrow'
        rw [hsame]
        rfl
      · rw [hgone] at hrow'
        cases hrow'
  · intro key opened hflow
    obtain ⟨row, hrow, hbackend, hconsumed⟩ := h.protecting key opened hflow
    rw [hrow] at hrows
    rcases hrows.of_consumed (hinv.rows id row hrow) hconsumed with
      ⟨row', hrow', hbackend', hconsumed'⟩ | ⟨-, now, hnow, hquiet⟩
    · exact ⟨row', hrow', hbackend'.trans hbackend, hconsumed'⟩
    · rw [streaming_of_inTime hbackend hconsumed hnow (hinTime key opened hflow)] at hquiet
      cases hquiet

/-- The key of an object names its secret. -/
theorem Inv.key_eq (hinv : Inv w) (hrow : w.row id = some row)
    (hbackend : row.storageBackend = .s3Object) : row.storageKey = objectKey id := by
  rw [(hinv.rows id row hrow).key hbackend, Table.lookup_key hrow]

/-- What an unprotected object says about its row. -/
theorem unprotected_row (hinv : Inv w)
    (h : protectObjectTx pendingTTL now (objectKey id) w.db.secrets = false)
    (hrow : w.row id = some row) (hbackend : row.storageBackend = .s3Object) :
    (∃ consumed, row.consumedAt = some consumed ∧ consumed + openObjectGrace ≤ now) ∨
      row.consumedAt = none ∧ (row.expiresAt ≤ now ∨
        row.state = .pendingUpload ∧ row.createdAt + pendingTTL ≤ now) := by
  have hfind : (w.db.secrets.find? fun row => decide (row.storageBackend = .s3Object) &&
      decide (row.storageKey = objectKey id) && row.reclaimEnqueuedAt.isNone) = some row := by
    have hguard : (decide (row.storageBackend = .s3Object) &&
        decide (row.storageKey = objectKey id) && row.reclaimEnqueuedAt.isNone) = true := by
      simp [hbackend, hinv.key_eq hrow hbackend, (hinv.rows id row hrow).unclaimed]
    cases hfind : (w.db.secrets.find? fun row => decide (row.storageBackend = .s3Object) &&
        decide (row.storageKey = objectKey id) && row.reclaimEnqueuedAt.isNone) with
    | none => exact absurd hguard (List.find?_eq_none.mp hfind row (Table.lookup_mem hrow))
    | some other =>
      have hother := List.find?_some hfind
      simp only [Bool.and_eq_true, decide_eq_true_eq] at hother
      have hthere : w.row other.id = some other :=
        Table.lookup_of_mem hinv.unique (List.mem_of_find?_eq_some hfind)
      have hid : other.id = id :=
        objectKey_inj ((hinv.key_eq hthere hother.1.1).symm.trans hother.1.2)
      rw [hid, hrow] at hthere
      exact hthere.symm
  unfold protectObjectTx at h
  rw [hfind] at h
  dsimp only at h
  cases hconsumed : row.consumedAt with
  | some consumed =>
    rw [hconsumed] at h
    exact Or.inl ⟨consumed, rfl, by simpa using h⟩
  | none =>
    rw [hconsumed] at h
    dsimp only at h
    refine Or.inr ⟨rfl, ?_⟩
    split at h
    · rename_i hexpired
      exact Or.inl hexpired
    · cases hstate : row.state with
      | active =>
        rw [hstate] at h
        cases h
      | pendingUpload =>
        rw [hstate] at h
        exact Or.inr ⟨rfl, by simpa using h⟩

theorem ObjectInv.activation (h : ObjectInv cfg w) (hmoves : Moves cfg w label w')
    (hrow : w.row id = some row) (hevent : label.event id = .activated) :
    w.clock < row.pendingDeadline cfg.pendingTTL := by
  obtain ⟨pid, pending, hat, hearly⟩ := hmoves.activated id hevent
  rw [← (h.finalizing pid id pending hat).2 row hrow]
  exact hearly

/-- The object of a dead secret is neither opened nor activated. -/
theorem Dead.blocks (hdead : Dead cfg w id) (h : ObjectInv cfg w)
    (hadvance : Advance julian w label w') (hmoves : Moves cfg w label w')
    (hrow : w.row id = some row) (hbackend : row.storageBackend = .s3Object) :
    label.event id ≠ .terminal .opened ∧ label.event id ≠ .activated := by
  have hrows := hadvance.rows id
  rw [hrow] at hrows
  exact hrows.of_dead (h.inv.rows id row hrow) (hdead.row row hrow hbackend)
    (h.activation hmoves hrow)

theorem Dead.not_created (hdead : Dead cfg w id) (hadvance : Advance julian w label w') :
    label.event id ≠ .created := by
  intro hcreated
  obtain ⟨hissued, hstored⟩ := hadvance.fresh id hcreated
  exact hdead.known.elim hissued hstored

/-- **Death is permanent.** -/
theorem Dead.mono (hdead : Dead cfg w id) (h : ObjectInv cfg w)
    (hadvance : Advance julian w label w') (hmoves : Moves cfg w label w') : Dead cfg w' id := by
  refine ⟨?_, ?_, ?_⟩
  · exact hdead.known.imp (fun hissued => (hadvance.issued id).mpr (Or.inl hissued))
      (fun hstored => hmoves.stored hstored)
  · intro row' hrow' hbackend'
    rcases (hadvance.rows id).origin hrow' with ⟨-, hcreated⟩ | ⟨row, hrow, hsame⟩
    · exact absurd hcreated (hdead.not_created hadvance)
    · have hbackend : row.storageBackend = .s3Object := hsame.backend.symm.trans hbackend'
      have hrows := hadvance.rows id
      rw [hrow, hrow'] at hrows
      exact hrows.dead hadvance.clock (hdead.row row hrow hbackend)
        (hdead.blocks h hadvance hmoves hrow hbackend).2
  · intro pid opened hflow
    rcases hmoves.flows pid _ hflow with hold | ⟨_, -, hfinished⟩ |
      ⟨id', row, now, hevent, hrow, -, hbackend, hnew, -⟩
    · exact hdead.quiet pid opened hold
    · cases hfinished
    · -- a stream starts: then its secret was opened in this step
      have hkey : row.storageKey = objectKey id := (Flow.streaming.inj hnew).1.symm
      have hid : id' = id := objectKey_inj ((h.inv.key_eq hrow hbackend).symm.trans hkey)
      subst hid
      exact (hdead.blocks h hadvance hmoves hrow hbackend).1 hevent

/-- A flow of the next state, seen from this one: it was there under its key, or its
secret is opened in this step. -/
theorem Moves.flow_origin (hmoves : Moves cfg w label w') (hflow : w'.flows pid = some flow) :
    (∃ old, w.flows pid = some old ∧ old.key = flow.key) ∨
      ∃ id row, w.row id = some row ∧ row.consumedAt = none ∧ row.storageBackend = .s3Object ∧
        flow.key = row.storageKey ∧ ∀ other, other ≠ pid → w'.flows other = w.flows other := by
  rcases hmoves.flows pid flow hflow with hold | ⟨opened, hold, -⟩ |
    ⟨id, row, now, -, hrow, hunconsumed, hbackend, rfl, -, hothers⟩
  · exact Or.inl ⟨flow, hold, rfl⟩
  · exact Or.inl ⟨_, hold, rfl⟩
  · exact Or.inr ⟨id, row, hrow, hunconsumed, hbackend, rfl, hothers⟩

theorem ObjectInv.flow_step (h : ObjectInv cfg w) (hadvance : Advance julian w label w')
    (hmoves : Moves cfg w label w') (hinTime : w'.InTime) (hflow : w'.flows pid = some flow) :
    ∃ id, FlowOK w' flow id := by
  have hlate : ∀ key opened, flow = .streaming key opened →
      w'.clock ≤ opened + openStreamTimeout := by
    rintro key opened rfl
    exact hinTime pid key opened hflow
  rcases hmoves.flows pid flow hflow with hold | ⟨opened, hold, hfinished⟩ |
    ⟨id, row, now, -, hrow, -, hbackend, rfl, hrow', -⟩
  · obtain ⟨id, hok⟩ := h.flows pid flow hold
    exact ⟨id, hok.mono h.inv hadvance hlate⟩
  · obtain ⟨id, hok⟩ := h.flows pid _ hold
    have hfinishedOK : FlowOK w flow id := by
      refine ⟨hok.issued, hok.key, hok.consumed, ?_⟩
      intro key opened hstreaming
      rw [hfinished] at hstreaming
      cases hstreaming
    exact ⟨id, hfinishedOK.mono h.inv hadvance hlate⟩
  · refine ⟨id, (hadvance.issued id).mpr (Or.inl (h.inv.issued id row hrow)),
      h.inv.key_eq hrow hbackend, ?_, ?_⟩
    · intro row' hsome
      rw [hrow'] at hsome
      obtain rfl := Option.some.inj hsome
      rfl
    · rintro key opened ⟨⟩
      exact ⟨row.consume now, hrow', hbackend, rfl⟩

theorem ObjectInv.distinct_step (h : ObjectInv cfg w) (hmoves : Moves cfg w label w') {pid' : Nat}
    {flow' : Flow} (hflow : w'.flows pid = some flow) (hflow' : w'.flows pid' = some flow')
    (hkey : flow.key = flow'.key) : pid = pid' := by
  -- A new flow meets no older one: its secret was not consumed.
  have hnew : ∀ (a b : Nat) (f f' : Flow) (id : String) (row : SecretRow), w.row id = some row →
      row.consumedAt = none → row.storageBackend = .s3Object → f.key = row.storageKey →
      w.flows b = some f' → f.key = f'.key → a = b := by
    intro a b f f' id row hrow hunconsumed hbackend hf hold hsame
    obtain ⟨id', hok⟩ := h.flows b f' hold
    have hid : id' = id := by
      apply objectKey_inj
      rw [← hok.key, ← hsame, hf, h.inv.key_eq hrow hbackend]
    subst hid
    have hconsumed := hok.consumed row hrow
    rw [hunconsumed] at hconsumed
    cases hconsumed
  by_contra hne
  rcases hmoves.flow_origin hflow with ⟨old, hold, holdKey⟩ |
    ⟨id, row, hrow, hunconsumed, hbackend, hf, hothers⟩
  · rcases hmoves.flow_origin hflow' with ⟨old', hold', holdKey'⟩ |
      ⟨id, row, hrow, hunconsumed, hbackend, hf, -⟩
    · exact hne (h.distinct pid pid' old old' hold hold'
        (holdKey.trans (hkey.trans holdKey'.symm)))
    · exact hne (hnew pid' pid flow' old id row hrow hunconsumed hbackend hf hold
        (hkey.symm.trans holdKey.symm)).symm
  · rw [hothers pid' (Ne.symm hne)] at hflow'
    exact hne (hnew pid pid' flow flow' id row hrow hunconsumed hbackend hf hflow' hkey)

/-- The secret a transaction ends is dead afterwards. -/
theorem ObjectInv.dead_of_ended (h : ObjectInv cfg w) (hadvance : Advance julian w label w')
    (hmoves : Moves cfg w label w') (hrow : w.row id = some row)
    (hevent : label.event id = .terminal .locked ∨ label.event id = .terminal .cancelled ∨
      label.event id = .terminal .reclaimed) : Dead cfg w' id := by
  have hrows := hadvance.rows id
  rw [hrow] at hrows
  have hended : row.consumedAt = none ∧
      ∀ row', w'.row id = some row' → row'.consumedAt.isSome := by
    generalize w'.row id = found' at hrows ⊢
    rcases hevent with hevent | hevent | hevent <;> rw [hevent] at hrows <;> cases hrows
    case locked now hactive hunconsumed hmany =>
        refine ⟨hunconsumed, ?_⟩
        rintro row' ⟨rfl⟩
        rw [SecretRow.countFailure, if_pos hmany]
        rfl
    case cancelled hunconsumed => exact ⟨hunconsumed, fun row' hrow' => by cases hrow'⟩
    case reclaimed hunconsumed => exact ⟨hunconsumed, fun row' hrow' => by cases hrow'⟩
  refine ⟨Or.inl ((hadvance.issued id).mpr (Or.inl (h.inv.issued id row hrow))), ?_, ?_⟩
  · exact fun row' hrow' _ => Or.inl (hended.2 row' hrow')
  · intro pid opened hflow
    rcases hmoves.flows pid _ hflow with hold | ⟨_, -, hfinished⟩ |
      ⟨id', row', now, hopened, hrow', -, hbackend, hnew, -⟩
    · obtain ⟨id', hok⟩ := h.flows pid _ hold
      obtain rfl : id = id' := objectKey_inj hok.key
      have hconsumed := hok.consumed row hrow
      rw [hended.1] at hconsumed
      cases hconsumed
    · cases hfinished
    · have hid : id' = id := by
        apply objectKey_inj
        rw [← h.inv.key_eq hrow' hbackend, ← (Flow.streaming.inj hnew).1]
      subst hid
      rw [hopened] at hevent
      rcases hevent with hevent | hevent | hevent <;> cases hevent

/-- Every new job is for an object whose secret is dead after the step. -/
theorem ObjectInv.dead_step (h : ObjectInv cfg w) (hadvance : Advance julian w label w')
    (hmoves : Moves cfg w label w') (howns : Area.secrets.owns (objectKey id) = true)
    (hscheduled : Scheduled cfg.codec w'.db.outbox (objectKey id)) : Dead cfg w' id := by
  have hsameRow : w'.db.secrets = w.db.secrets → w'.row id = w.row id := by
    intro hrows
    rw [World.row, hrows, World.row]
  cases hmoves.jobs (objectKey id) howns hscheduled h.pages with
  | before hbefore => exact (h.dead id howns hbefore).mono h hadvance hmoves
  | @ended id' row hrow hbackend hkey hevent =>
    obtain rfl : id' = id := objectKey_inj ((h.inv.key_eq hrow hbackend).symm.trans hkey)
    exact h.dead_of_ended hadvance hmoves hrow hevent
  | @streamed pid hat hothers hgone hrows =>
    obtain ⟨id', hok⟩ := h.flows pid _ hat
    obtain rfl : id = id' := objectKey_inj hok.key
    refine ⟨Or.inl ((hadvance.issued id).mpr (Or.inl hok.issued)), ?_, ?_⟩
    · intro row hrow _
      rw [hsameRow hrows] at hrow
      exact Or.inl (hok.consumed row hrow)
    · intro pid' opened hflow
      by_cases heq : pid' = pid
      · rw [heq, hgone] at hflow
        cases hflow
      · rw [hothers pid' heq] at hflow
        exact heq (h.distinct pid' pid _ _ hflow hat rfl)
  | unprotected hstored hrows hflows hfree =>
    refine ⟨Or.inr (hmoves.stored hstored), ?_, ?_⟩
    · intro row hrow hbackend
      rw [hsameRow hrows] at hrow
      refine DeadRow.mono ?_ hadvance.clock
      rcases unprotected_row h.inv hfree hrow hbackend with
        ⟨consumed, hconsumed, -⟩ | ⟨-, hexpired | ⟨hpending, hlate⟩⟩
      · refine Or.inl ?_
        rw [hconsumed]
        rfl
      · exact Or.inr (Or.inl hexpired)
      · exact Or.inr (Or.inr ⟨hpending, (Nat.min_le_right _ _).trans hlate⟩)
    · intro pid opened hflow
      rw [hflows] at hflow
      obtain ⟨id', hok⟩ := h.flows pid _ hflow
      obtain rfl : id = id' := objectKey_inj hok.key
      obtain ⟨row, hrow, hbackend, hconsumed⟩ := hok.protecting _ _ rfl
      have hinTime := h.inTime pid _ opened hflow
      have hgrace : openObjectGrace = openStreamTimeout + 300000000000 := by decide
      rcases unprotected_row h.inv hfree hrow hbackend with
        ⟨consumed, hconsumed', hlate⟩ | ⟨hnone, -⟩
      · obtain rfl : opened = consumed := Option.some.inj (hconsumed.symm.trans hconsumed')
        omega
      · rw [hnone] at hconsumed
        cases hconsumed

/-- **Step lemma.** -/
theorem ObjectInv.step (h : ObjectInv cfg w) (hadvance : Advance julian w label w')
    (hmoves : Moves cfg w label w') (hinTime : w'.InTime) : ObjectInv cfg w' where
  inv := hadvance.inv h.inv
  inTime := hinTime
  finalizing := by
    intro pid id pending hat
    rcases hmoves.finalizing pid id pending hat with hold | ⟨row, hrow, hdeadline⟩
    · exact (h.finalizing pid id pending hold).mono hadvance
    · refine PendingOK.mono ⟨h.inv.issued id row hrow, ?_⟩ hadvance
      intro row' hrow'
      rw [hrow] at hrow'
      obtain rfl := Option.some.inj hrow'
      exact hdeadline
  flows := fun pid flow hflow => h.flow_step hadvance hmoves hinTime hflow
  distinct := fun pid pid' flow flow' hflow hflow' hkey =>
    h.distinct_step hmoves hflow hflow' hkey
  bucket := hmoves.bucket h.bucket
  pages := by
    intro pid area read page hat
    rcases hmoves.pages pid area read page hat with hold | hpage
    · exact fun key hkey => hmoves.stored (h.pages pid area read page hold hkey)
    · exact fun key hkey => hmoves.stored (h.bucket (hpage hkey))
  dead := fun id howns hscheduled => h.dead_step hadvance hmoves howns hscheduled

/-! ### What the steps do -/

/-- The jobs of a transaction. -/
theorem Effect.cause (julian : JulianDay)
    (heffect : Effect cfg julian w.clock w'.clock w.db label.event w'.db)
    {key : String} (howns : Area.secrets.owns key = true)
    (hscheduled : Scheduled cfg.codec w'.db.outbox key) : JobCause cfg w label w' key := by
  rcases heffect.jobs key howns hscheduled with hold | ⟨id, row, hrow, hbackend, hkey, hevent⟩
  · exact JobCause.before hold
  · exact JobCause.ended hrow hbackend hkey hevent

/-- A step that activates nothing, and stores nothing. -/
theorem Moves.of_flows (hactivated : ∀ id, label.event id ≠ .activated)
    (hfinalizing : w'.finalizing = w.finalizing) (hbucket : w'.bucket = w.bucket)
    (hstored : w'.stored = w.stored) (hscanners : w'.scanners = w.scanners)
    (hflows : ∀ pid flow, w'.flows pid = some flow → w.flows pid = some flow ∨
      (∃ opened, w.flows pid = some (.streaming flow.key opened) ∧ flow = .finished flow.key) ∨
      ∃ id row now, label.event id = .terminal .opened ∧ w.row id = some row ∧
        row.consumedAt = none ∧ row.storageBackend = .s3Object ∧
        flow = .streaming row.storageKey now ∧ w'.row id = some (row.consume now) ∧
        ∀ other, other ≠ pid → w'.flows other = w.flows other)
    (hjobs : ∀ key, Area.secrets.owns key = true → Scheduled cfg.codec w'.db.outbox key →
      JobCause cfg w label w' key) : Moves cfg w label w' where
  activated := fun id hevent => absurd hevent (hactivated id)
  finalizing := fun pid id pending hat => Or.inl (hfinalizing ▸ hat)
  flows := hflows
  bucket := by
    rw [hbucket, hstored]
    exact id
  stored := by
    rw [hstored]
    exact List.Subset.refl _
  pages := fun pid area read page hat => Or.inl (hscanners ▸ hat)
  jobs := fun key howns hscheduled _ => hjobs key howns hscheduled

/-- A step of the database alone. -/
theorem Moves.of_db (hactivated : ∀ id, label.event id ≠ .activated)
    (hfinalizing : w'.finalizing = w.finalizing) (hflows : w'.flows = w.flows)
    (hbucket : w'.bucket = w.bucket) (hstored : w'.stored = w.stored)
    (hscanners : w'.scanners = w.scanners)
    (hjobs : ∀ key, Area.secrets.owns key = true → Scheduled cfg.codec w'.db.outbox key →
      JobCause cfg w label w' key) : Moves cfg w label w' :=
  Moves.of_flows hactivated hfinalizing hbucket hstored hscanners
    (fun _ _ hflow => Or.inl (hflows ▸ hflow)) hjobs

/-- A step of a scanner. -/
theorem Moves.of_scanner {scanner : Option Scanner} (hfinalizing : w'.finalizing = w.finalizing)
    (hflows : w'.flows = w.flows) (hbucket : w'.bucket = w.bucket) (hstored : w'.stored = w.stored)
    (hscanners : w'.scanners = Function.update w.scanners pid scanner)
    (hpage : ∀ area read page, scanner = some (.listed area read page) → page.keys ⊆ w.bucket)
    (hjobs : ∀ key, Area.secrets.owns key = true → Scheduled cfg.codec w'.db.outbox key →
      (∀ pid area read page, w.scanners pid = some (.listed area read page) →
        page.keys ⊆ w.stored) →
      JobCause cfg w .other w' key) : Moves cfg w .other w' where
  activated := by simp [Label.event]
  finalizing := fun pid id pending hat => Or.inl (hfinalizing ▸ hat)
  flows := fun pid flow hflow => Or.inl (hflows ▸ hflow)
  bucket := by
    rw [hbucket, hstored]
    exact id
  stored := by
    rw [hstored]
    exact List.Subset.refl _
  pages := by
    intro pid' area read page hat
    rw [hscanners] at hat
    rcases update_cases hat with ⟨-, hnew⟩ | ⟨-, hold⟩
    · exact Or.inr (hpage area read page hnew)
    · exact Or.inl hold
  jobs := hjobs

/-- A step of a finalization. -/
theorem Moves.of_finalizing {call : Option (String × Pending)}
    (hactivated : ∀ id, label.event id = .activated →
      ∃ pid pending, w.finalizing pid = some (id, pending) ∧ w.clock < pending.deadline)
    (hfinalizing : w'.finalizing = Function.update w.finalizing pid call)
    (hcall : ∀ id pending, call = some (id, pending) →
      ∃ row, w.row id = some row ∧ pending.deadline = row.pendingDeadline cfg.pendingTTL)
    (hflows : w'.flows = w.flows) (hbucket : w'.bucket = w.bucket) (hstored : w'.stored = w.stored)
    (hscanners : w'.scanners = w.scanners)
    (hjobs : ∀ key, Area.secrets.owns key = true → Scheduled cfg.codec w'.db.outbox key →
      JobCause cfg w label w' key) : Moves cfg w label w' where
  activated := hactivated
  finalizing := by
    intro pid' id' pending' hat
    rw [hfinalizing] at hat
    rcases update_cases hat with ⟨-, hnew⟩ | ⟨-, hold⟩
    · exact Or.inr (hcall id' pending' hnew)
    · exact Or.inl hold
  flows := fun pid flow hflow => Or.inl (hflows ▸ hflow)
  bucket := by
    rw [hbucket, hstored]
    exact id
  stored := by
    rw [hstored]
    exact List.Subset.refl _
  pages := fun pid area read page hat => Or.inl (hscanners ▸ hat)
  jobs := fun key howns hscheduled _ => hjobs key howns hscheduled

theorem eventAt_ne_activated {other : String} (h : event ≠ .activated) :
    eventAt id event other ≠ .activated := by
  unfold eventAt
  split
  · exact h
  · decide

theorem openedFlow_eq (h : openedFlow secret now = some flow) :
    secret.storageBackend = .s3Object ∧ flow = .streaming secret.storageKey now := by
  unfold openedFlow at h
  split at h
  · rename_i hbackend
    exact ⟨hbackend, (Option.some.inj h).symm⟩
  · cases h

theorem Opened.consumed_row {now : Nat → Nat} {db db' : DB}
    (h : Opened cfg now id accessProofHash db db' secret row) :
    Table.lookup SecretRow.id id db'.secrets = some (row.consume (now 1)) := by
  have hid : ∀ row, (SecretRow.consume (now 1) row).id = row.id := fun _ => rfl
  have hguard : SecretRow.unconsumed id row = true := by
    simp [SecretRow.unconsumed, Table.lookup_key h.loaded.found, h.unconsumed]
  rw [h.secrets, Table.lookup_update hid, h.loaded.found, Option.map_some, if_pos hguard]

theorem finalizeLoad_ok {db : DB} (h : finalizeLoad cfg now id db = .ok (some pending)) :
    ∃ row, Table.lookup SecretRow.id id db.secrets = some row ∧
      pending.deadline = row.pendingDeadline cfg.pendingTTL := by
  unfold finalizeLoad at h
  split at h
  · cases h
  split at h
  · cases h
  rename_i row hfound
  split at h
  · cases h
  dsimp only at h
  split at h
  · cases h
  cases h
  exact ⟨row, hfound, rfl⟩

/-- **Step lemma.** -/
theorem Step.moves (hinv : Inv w) (hstep : Step cfg julian w label w') : Moves cfg w label w' := by
  cases hstep with
  | tick hclock =>
    exact Moves.of_db (by simp [Label.event]) rfl rfl rfl rfl rfl
      fun key _ hs => JobCause.before hs
  | put key =>
    exact {
      activated := by simp [Label.event]
      finalizing := fun pid id pending hat => Or.inl hat
      flows := fun pid flow hflow => Or.inl hflow
      bucket := fun hsub => List.cons_subset_cons key hsub
      stored := List.subset_cons_self key _
      pages := fun pid area read page hat => Or.inl hat
      jobs := fun key _ hs _ => JobCause.before hs }
  | objectGone key =>
    exact {
      activated := by simp [Label.event]
      finalizing := fun pid id pending hat => Or.inl hat
      flows := fun pid flow hflow => Or.inl hflow
      bucket := fun hsub other hother => hsub (List.mem_of_mem_filter hother)
      stored := List.Subset.refl _
      pages := fun pid area read page hat => Or.inl hat
      jobs := fun key _ hs _ => JobCause.before hs }
  | outbox hforeign =>
    exact Moves.of_db (by simp [Label.event]) rfl rfl rfl rfl rfl
      fun key howns hs => JobCause.before (hforeign key howns hs)
  | create now id raw input hnow hfresh hcreate =>
    refine Moves.of_db (fun _ => eventAt_ne_activated (by decide)) rfl rfl rfl rfl rfl ?_
    exact fun key howns hs => JobCause.before ((create_ok hcreate).2.1 ▸ hs)
  | createLarge now id raw presign input hnow hfresh hcreate =>
    refine Moves.of_db (fun _ => eventAt_ne_activated (by decide)) rfl rfl rfl rfl rfl ?_
    exact fun key howns hs => JobCause.before ((createLarge_ok hcreate).2.1 ▸ hs)
  | finalizeBegin pid id hfree hload =>
    refine Moves.of_finalizing (by simp [Label.event]) rfl ?_ rfl rfl rfl rfl
      fun key _ hs => JobCause.before hs
    rintro id pending ⟨⟩
    exact finalizeLoad_ok hload
  | @finalizeEnd id pending db pid head hat hactivate =>
    obtain ⟨hearly, -, heffect⟩ := finalizeActivate_effect hinv.unique hactivate
    refine Moves.of_finalizing ?_ rfl (fun _ _ hnone => by cases hnone) rfl rfl rfl rfl
      fun key howns hs => Effect.cause julian heffect howns hs
    intro other hevent
    obtain rfl : other = id := by
      by_contra hne
      rw [Label.event, eventAt, if_neg hne] at hevent
      cases hevent
    exact ⟨pid, pending, hat, hearly⟩
  | finalizeFail pid =>
    exact Moves.of_finalizing (by simp [Label.event]) rfl (fun _ _ hnone => by cases hnone)
      rfl rfl rfl rfl fun key _ hs => JobCause.before hs
  | opened pid readings draws object id accessProofHash hfree hopen =>
    rcases openAndEnqueueCleanup_commit hinv.unique hopen with ⟨_, row, hok, h⟩ | ⟨_, herr, -⟩
    · obtain rfl := Except.ok.inj hok
      refine Moves.of_flows (fun _ => eventAt_ne_activated (by decide)) rfl rfl rfl rfl ?_
        fun key _ hs => JobCause.before (h.jobs key hs)
      intro pid' flow hflow
      rcases update_cases hflow with ⟨rfl, hnew⟩ | ⟨-, hold⟩
      · obtain ⟨hbackend, rfl⟩ := openedFlow_eq hnew
        rw [h.loaded.backend] at hbackend
        rw [h.loaded.key]
        refine Or.inr (Or.inr ⟨id, row, _, if_pos rfl, h.loaded.found, h.unconsumed, hbackend,
          rfl, h.consumed_row, ?_⟩)
        exact fun other hne => Function.update_of_ne hne _ _
      · exact Or.inl hold
    · cases herr
  | refused readings draws object id accessProofHash hopen =>
    rcases openAndEnqueueCleanup_commit hinv.unique hopen with ⟨_, _, hok, -⟩ | ⟨row, -, h⟩
    · cases hok
    · have hevent := refusedLabel_event h
      refine Moves.of_db ?_ rfl rfl rfl rfl rfl ?_
      · intro other
        rw [hevent]
        apply eventAt_ne_activated
        unfold refusedEvent
        split <;> decide
      · refine fun key howns hs => Effect.cause julian ?_ howns hs
        rw [hevent]
        exact h.effect hinv.unique
  | streamEnd pid hat =>
    refine Moves.of_flows (by simp [Label.event]) rfl rfl rfl rfl ?_
      fun key _ hs => JobCause.before hs
    intro pid' flow hflow
    rcases update_cases hflow with ⟨rfl, hnew⟩ | ⟨-, hold⟩
    · obtain rfl := Option.some.inj hnew
      exact Or.inr (Or.inl ⟨_, hat, rfl⟩)
    · exact Or.inl hold
  | streamCleanup pid readings draws hat henqueue =>
    obtain ⟨hsecrets, -, hjobs⟩ := scheduled_enqueueObject henqueue
    refine Moves.of_flows (by simp [Label.event]) rfl rfl rfl rfl ?_ ?_
    · intro pid' flow hflow
      rcases update_cases hflow with ⟨-, hnone⟩ | ⟨-, hold⟩
      · cases hnone
      · exact Or.inl hold
    · intro key _ hs
      rcases hjobs key hs with hold | rfl
      · exact JobCause.before hold
      · exact JobCause.streamed hat (fun other hne => Function.update_of_ne hne _ _)
          (Function.update_self _ _ _) hsecrets
  | streamLost pid =>
    refine Moves.of_flows (by simp [Label.event]) rfl rfl rfl rfl ?_
      fun key _ hs => JobCause.before hs
    intro pid' flow hflow
    rcases update_cases hflow with ⟨-, hnone⟩ | ⟨-, hold⟩
    · cases hnone
    · exact Or.inl hold
  | @revoke db status after readings draws id token hrevoke =>
    rcases revokedLabel_event julian _ _ hinv.unique hrevoke with
      ⟨hother, rfl⟩ | ⟨hcancelled, -, -, heffect⟩
    · rw [hother]
      exact Moves.of_db (by simp [Label.event]) rfl rfl rfl rfl rfl
        fun key _ hs => JobCause.before hs
    · rw [hcancelled]
      exact Moves.of_db (fun _ => eventAt_ne_activated (by decide)) rfl rfl rfl rfl rfl
        fun key howns hs => Effect.cause julian heffect howns hs
  | cleanup id hcleanup =>
    refine Moves.of_db (by simp [Label.event]) rfl rfl rfl rfl rfl ?_
    exact fun key howns hs => Effect.cause julian (cleanup_effect hinv.unique hcleanup) howns hs
  | claimExpired batchSize now draws purgeRequests hclock hnow hforeign hclaim =>
    refine Moves.of_db ?_ rfl rfl rfl rfl rfl ?_
    · intro id
      simp only [Label.event]
      split <;> decide
    · exact fun key howns hs =>
        Effect.cause julian (claimExpired_effect hinv.unique (hnow 0) hforeign hclaim) howns hs
  | scanBegin pid hfree =>
    refine Moves.of_scanner rfl rfl rfl rfl rfl ?_ fun key _ hs _ => JobCause.before hs
    rintro area read page ⟨⟩
  | scanListed pid limit page hat hpage hthere =>
    refine Moves.of_scanner rfl rfl rfl rfl rfl ?_ fun key _ hs _ => JobCause.before hs
    rintro area read page ⟨⟩
    exact hthere
  | scanReset pid hat | scanEnd pid =>
    exact Moves.of_scanner rfl rfl rfl rfl rfl (fun _ _ _ hnone => by cases hnone)
      fun key _ hs _ => JobCause.before hs
  | scanCommit pid draws hat hcommit =>
    refine Moves.of_scanner rfl rfl rfl rfl rfl (fun _ _ _ hnone => by cases hnone) ?_
    intro key _ hs hpages
    rcases scheduled_commitPage hcommit hs with hold | ⟨hmem, hprotect⟩
    · exact JobCause.before hold
    · exact JobCause.unprotected (hpages pid _ _ _ hat hmem) rfl rfl (Except.ok.inj hprotect)
  | acknowledge jobID key hclaims =>
    exact Moves.of_db (by simp [Label.event]) rfl rfl rfl rfl rfl
      fun key _ hs => JobCause.before hs

/-! ### Runs -/

/-- A step after which every stream is within its time. -/
def TimelyStep (cfg : Config) (julian : JulianDay) (w : World) (label : Label) (w' : World) :
    Prop :=
  Step cfg julian w label w' ∧ w'.InTime

theorem ObjectInv.start (cfg : Config) (clock : Nat) : ObjectInv cfg (World.start clock) where
  inv := Inv.start clock
  inTime := by
    intro pid key opened hflow
    cases hflow
  finalizing := by
    intro pid id pending hat
    cases hat
  flows := by
    intro pid flow hflow
    cases hflow
  distinct := by
    intro pid pid' flow flow' hflow
    cases hflow
  bucket := List.Subset.refl _
  pages := by
    intro pid area read page hat
    cases hat
  dead := by
    rintro id - ⟨row, hrow, -⟩
    cases hrow

theorem TimelyStep.inv (hstep : TimelyStep cfg julian w label w') (h : ObjectInv cfg w) :
    ObjectInv cfg w' :=
  h.step (hstep.1.advance h.inv) (hstep.1.moves h.inv) hstep.2

theorem TimelyStep.dead (hstep : TimelyStep cfg julian w label w') (h : ObjectInv cfg w)
    (hdead : Dead cfg w id) : Dead cfg w' id :=
  hdead.mono h (hstep.1.advance h.inv) (hstep.1.moves h.inv)

/-- An open that returns an object's secret names the object of that secret. -/
theorem Step.opened_key (hinv : Inv w) (hstep : Step cfg julian w label w')
    (hlabel : label = .opened id accessProofHash now secret)
    (hbackend : secret.storageBackend = .s3Object) :
    ∃ row, w.row id = some row ∧ row.storageBackend = .s3Object ∧
      secret.storageKey = objectKey id := by
  obtain ⟨row, readings, h, -, -⟩ := hstep.opened_ok hinv hlabel
  have hrowBackend : row.storageBackend = .s3Object := h.loaded.backend.symm.trans hbackend
  refine ⟨row, h.loaded.found, hrowBackend, ?_⟩
  rw [h.loaded.key]
  exact hinv.key_eq h.loaded.found hrowBackend

/-- The object of a dead secret is neither opened nor activated by a step. -/
theorem TimelyStep.blocked (hstep : TimelyStep cfg julian w label w') (h : ObjectInv cfg w)
    (hdead : Dead cfg w id) :
    (∀ other accessProofHash now secret, label = .opened other accessProofHash now secret →
      secret.storageBackend = .s3Object → secret.storageKey ≠ objectKey id) ∧
    ∀ other row', label = .activated other → w'.row other = some row' →
      row'.storageKey ≠ objectKey id := by
  have hadvance := hstep.1.advance h.inv
  have hmoves := hstep.1.moves h.inv
  refine ⟨?_, ?_⟩
  · rintro other accessProofHash now secret rfl hbackend hkey
    obtain ⟨row, hrow, hrowBackend, hother⟩ := hstep.1.opened_key h.inv rfl hbackend
    obtain rfl : other = id := objectKey_inj (hother.symm.trans hkey)
    exact (hdead.blocks h hadvance hmoves hrow hrowBackend).1 (if_pos rfl)
  · rintro other row' rfl hrow' hkey
    have hrows := hadvance.rows other
    rw [hrow', show Label.event (.activated other) other = .activated from if_pos rfl] at hrows
    generalize hfound : w.row other = found at hrows
    cases hrows with
    | activated row now hpending =>
      have hbackend := (h.inv.rows other row hfound).upload hpending
      obtain rfl : other = id :=
        objectKey_inj ((h.inv.key_eq hfound hbackend).symm.trans hkey)
      exact (hdead.blocks h hadvance hmoves hfound hbackend).2 (if_pos rfl)

/-- **A live or streaming object is never scheduled for deletion.**  In every run in which
no stream outlasts its time:

* once a delete job for an object of the secrets area is in the outbox, no body of that
  object streams, and in whatever follows no open returns its secret, no finalization
  activates it and no body of it streams;
* the row of a streaming body is there, with the instant it was opened at: no purge took
  it. -/
theorem live_object_never_scheduled {clock : Nat} {trace : List (Label × World)}
    (hrun : Run (TimelyStep cfg julian) (World.start clock) trace w) :
    (∀ key, Area.secrets.owns key = true → Scheduled cfg.codec w.db.outbox key →
      ∀ later final, Run (TimelyStep cfg julian) w later final →
        (∀ id accessProofHash now secret,
          Label.opened id accessProofHash now secret ∈ labels later →
          secret.storageBackend = .s3Object → secret.storageKey ≠ key) ∧
        (∀ id after row, (Label.activated id, after) ∈ later → after.row id = some row →
          row.storageKey ≠ key) ∧
        ∀ pid opened, final.flows pid ≠ some (.streaming key opened)) ∧
    ∀ pid key opened, w.flows pid = some (.streaming key opened) →
      ∃ id row, w.row id = some row ∧ row.storageBackend = .s3Object ∧ row.storageKey = key ∧
        row.consumedAt = some opened := by
  have hinv : ObjectInv cfg w :=
    Run.invariant (ObjectInv cfg) (ObjectInv.start cfg clock)
    (fun _ _ _ h hstep => hstep.inv h) hrun
  refine ⟨?_, ?_⟩
  · intro key howns hscheduled later final hlater
    obtain ⟨id, rfl⟩ := owns_objectKey howns
    have hdead := hinv.dead id howns hscheduled
    -- death is kept along the rest of the run, so it holds before each of its steps
    have hkept : ∀ {later final}, Run (TimelyStep cfg julian) w later final →
        ObjectInv cfg final ∧ Dead cfg final id := by
      intro later final hlater
      refine Run.invariant (fun w => ObjectInv cfg w ∧ Dead cfg w id) ⟨hinv, hdead⟩ ?_ hlater
      rintro w label w' ⟨h, hdead⟩ hstep
      exact ⟨hstep.inv h, hstep.dead h hdead⟩
    have hblocked : ∀ label after, (label, after) ∈ later → ∃ before,
        TimelyStep cfg julian before label after ∧ ObjectInv cfg before ∧ Dead cfg before id := by
      intro label after hmem
      obtain ⟨front, back, rfl⟩ := List.append_of_mem hmem
      obtain ⟨before, hfront, hstep, -⟩ := hlater.split
      exact ⟨before, hstep, hkept hfront⟩
    refine ⟨?_, ?_, (hkept hlater).2.quiet⟩
    · intro other accessProofHash now secret hmem
      obtain ⟨⟨_, after⟩, hentry, rfl⟩ := List.mem_map.mp hmem
      obtain ⟨before, hstep, h, hdead⟩ := hblocked _ after hentry
      exact (hstep.blocked h hdead).1 other accessProofHash now secret rfl
    · intro other after row hmem
      obtain ⟨before, hstep, h, hdead⟩ := hblocked _ after hmem
      exact (hstep.blocked h hdead).2 other row rfl
  · intro pid key opened hflow
    obtain ⟨id, hok⟩ := hinv.flows pid _ hflow
    obtain ⟨row, hrow, hbackend, hconsumed⟩ := hok.protecting key opened rfl
    refine ⟨id, row, hrow, hbackend, ?_, hconsumed⟩
    rw [hinv.inv.key_eq hrow hbackend, ← hok.key]
    rfl

end

def sampleUpload : CreateLargeInput where
  kind := .file
  accessKDF := ⟨"", "", 0, 0⟩
  accessProofHash := ""
  wrappedIdentity := none
  encryptedFilename := some (stdEncoding.encodeToString ageMagic)
  contentType := none
  sizeBytes := 500
  ttlSeconds := 60
  maxViews := 0

def sampleToken : Bytes := List.replicate 32 7

/-- An upload is finalized and then cancelled, which schedules its object. -/
theorem live_object_never_scheduled_cancelled :
    ∃ (trace : List (Label × World)) (w : World),
      Run (TimelyStep (sampleConfig (objectEvent "job" (objectKey "a") .manual 1)) instantDay)
        (World.start 1) trace w ∧
      (labels trace).getLast? = some (.cancelled "a") ∧
      Scheduled (singleCodec (objectEvent "job" (objectKey "a") .manual 1)) w.db.outbox
        (objectKey "a") ∧
      ∀ pid opened, w.flows pid ≠ some (.streaming (objectKey "a") opened) := by
  have hquiet : ∀ w : World, w.flows = (fun _ => none) → w.InTime := by
    intro w hflows pid key opened hflow
    rw [hflows] at hflow
    cases hflow
  have hrun : Run (TimelyStep
      (sampleConfig (objectEvent "job" (objectKey "a") .manual 1)) instantDay)
      (World.start 1) _ _ :=
    (((Run.nil.snoc ⟨.createLarge 1 "a" sampleToken (some "url") sampleUpload (Nat.le_refl _)
          ⟨by simp [World.start], by simp [World.start]⟩ rfl, hquiet _ rfl⟩).snoc
        ⟨.finalizeBegin 0 "a" rfl rfl, hquiet _ rfl⟩).snoc
        ⟨.finalizeEnd 0 (some ⟨true, 500⟩) rfl rfl, hquiet _ rfl⟩).snoc
        ⟨.revoke (Readings.still 1) sampleDraws "a" (rawURLEncoding.encodeToString sampleToken) rfl,
          hquiet _ rfl⟩
  have hscheduled : Scheduled (singleCodec (objectEvent "job" (objectKey "a") .manual 1))
      [OutboxRow.pending "jobs" "event" 1 (objectEvent "job" (objectKey "a") .manual 1)]
      (objectKey "a") :=
    ⟨_, List.mem_singleton_self _, objectEvent "job" (objectKey "a") .manual 1, ⟨rfl, rfl⟩, rfl,
      rfl⟩
  refine ⟨_, _, hrun, rfl, hscheduled, ?_⟩
  exact ((live_object_never_scheduled hrun).1 _ (by decide) hscheduled _ _ Run.nil).2.2

end Secrets
end FlickDrop
