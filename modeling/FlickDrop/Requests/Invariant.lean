import FlickDrop.Requests.Purge

/-!
# Reachable request tables

What holds in every state: the columns of a row fit its state, rows belong to issued
requests, object keys are used once, and a finalization in flight knows both keys of the
reservation it copies.

`Advance` collects what any action does to the tables.  It is proved once for all actions;
the results of this development follow from it without looking at the actions again.
-/

namespace FlickDrop
namespace Requests

open Foundations Events

/-- The columns of a row fit its state. -/
structure RowInv (row : RequestRow) : Prop where
  first : 1 ≤ row.generation
  last : row.generation ≤ maxGeneration
  waiting : row.state = .waiting → row.attemptTokenHash = none
  attempted : row.state = .uploading ∨ row.state = .submitted → row.attemptTokenHash.isSome
  upload : row.uploadKey.isSome ↔ row.state = .uploading
  final : row.finalKey.isSome → row.storageBackend = .s3Object ∧
    (row.state = .uploading ∨ row.state = .submitted ∨ row.state = .consumed)
  consumed : row.state = .consumed → row.finalKey.isSome → row.consumedAt.isSome
  apart : ∀ key, row.uploadKey = some key → row.finalKey ≠ some key

/-- The upload a call copies or is about to copy. -/
def Phase.copies : Phase → Option ObjectAttempt
  | .passed a | .leading a | .spooled a _ | .copied a => some a
  | .entered | .following _ | .computed _ | .returned _ => none

/-- The final key of the upload names its reservation: a row that has the one key has no
other upload key. -/
structure Paired (w : World) (a : ObjectAttempt) : Prop where
  apart : a.uploadKey ≠ a.finalKey
  used : a.finalKey ∈ w.used
  upload : ∀ id row, w.row id = some row → row.finalKey = some a.finalKey →
    row.uploadKey = none ∨ row.uploadKey = some a.uploadKey

structure Inv (cfg : Config) (w : World) : Prop where
  unique : Table.UniqueKey RequestRow.id w.db.requests
  rows : ∀ id row, w.row id = some row → RowInv row
  issued : ∀ id row, w.row id = some row → id ∈ w.issued
  keys : ∀ id row key, w.row id = some row → row.holds key → key ∈ w.used
  apart : ∀ id id' row row' key, w.row id = some row → w.row id' = some row' → row.holds key →
    row'.holds key → id = id'
  valid : ∀ pid call, w.calls pid = some call → validateAttempt cfg call.input = .ok call.attempt
  calls : ∀ pid call a, w.calls pid = some call → call.phase.copies = some a → Paired w a

theorem Inv.start (cfg : Config) (clock : Nat) : Inv cfg (World.start clock) where
  unique := List.nodup_nil
  rows := by
    intro id row hrow
    cases hrow
  issued := by
    intro id row hrow
    cases hrow
  keys := by
    intro id row key hrow
    cases hrow
  apart := by
    intro id id' row row' key hrow
    cases hrow
  valid := by
    intro pid call hat
    cases hat
  calls := by
    intro pid call a hat
    cases hat

/-- Why an action may schedule an object. -/
inductive JobCause (cfg : Config) (w w' : World) (key : String) : Prop
  | before (h : Scheduled cfg.codec w.db.outbox key)
  /-- the row of a request lets go of it -/
  | released {id : String} {row : RequestRow} (hrow : w.row id = some row) (hholds : row.holds key)
      (hgone : ∀ row', w'.row id = some row' → ¬ row'.holds key)
  /-- a scan found it unprotected -/
  | unprotected {pid : Nat} {area : Area} {read : Cursor} {page : Page}
      (hat : w.scanners pid = some (.listed area read page)) (hmem : key ∈ page.keys)
      (hrows : w'.db.requests = w.db.requests) (hflows : w'.flows = w.flows)
      (hfree : w.db.requests.any (RequestRow.protects w.clock key) = false)

/-- How a call went on: it is the same call, and what it copies it copied before or the row
of its request says so; or it is a new call. -/
def CallStep (cfg : Config) (w : World) (pid : Nat) (call' : FinalizeCall) : Prop :=
  (∃ call, w.calls pid = some call ∧ call' = call.goto call'.phase ∧
    ∀ a, call'.phase.copies = some a → call.phase.copies = some a ∨
      ∃ row, w.row call.id = some row ∧ row.objectAttempt cfg = .ok a) ∨
  w.calls pid = none ∧ call'.phase = .entered ∧ validateAttempt cfg call'.input = .ok call'.attempt

/-- What an action does to the tables.  `drawn id` are the keys request `id` takes in it. -/
structure Advance (cfg : Config) (drawn : String → String → Prop) (w w' : World) : Prop where
  clock : w.clock ≤ w'.clock
  rows : ∀ id, RowStep (drawn id) (id ∉ w.issued ∧ id ∈ w'.issued) w.clock w'.clock (w.row id)
    (w'.row id)
  unique : Table.UniqueKey RequestRow.id w'.db.requests
  fresh : ∀ id key, drawn id key → key ∉ w.used ∧ key ∈ w'.used
  single : ∀ id id' key, drawn id key → drawn id' key → id = id'
  used : w.used ⊆ w'.used
  known : w.issued ⊆ w'.issued
  issued : ∀ id, id ∈ w'.issued → id ∈ w.issued ∨ (w'.row id).isSome
  calls : ∀ pid call', w'.calls pid = some call' → CallStep cfg w pid call'
  jobs : ∀ key, Area.requests.owns key = true → Scheduled cfg.codec w'.db.outbox key →
    JobCause cfg w w' key

section

variable {cfg : Config} {fresh : String → Prop} {new : Prop} {clock after : Nat}
  {found found' : Option RequestRow} {row' row : RequestRow} {key : String}

/-- What no action changes about a request. -/
structure SameRequest (row row' : RequestRow) : Prop where
  expiresAt : row'.expiresAt = row.expiresAt
  submission : row'.submissionTokenHash = row.submissionTokenHash
  generation : row.generation ≤ row'.generation

/-- A row that is there after a step was created by it or was there before. -/
theorem RowStep.origin (h : RowStep fresh new clock after found found')
    (hrow' : found' = some row') : new ∨ ∃ row, found = some row ∧ SameRequest row row' := by
  cases h with
  | kept => exact Or.inr ⟨row', hrow', rfl, rfl, le_refl _⟩
  | created _ _ _ _ _ _ hnew => exact Or.inl hnew
  | purged => cases hrow'
  | ended row =>
    cases hrow'
    refine Or.inr ⟨row, rfl, rfl, rfl, ?_⟩
    show row.generation ≤ if row.generation = maxGeneration then _ else _
    split <;> omega
  | submitted row | reserved row | accepted row | consumedInline row | consumedObject row
  | released row | cancelled row =>
    cases hrow'
    exact Or.inr ⟨row, rfl, rfl, rfl, le_refl _⟩

/-- The objects of a row were there before, or are new ones. -/
theorem RowStep.holds_origin (h : RowStep fresh new clock after found found')
    (hrow' : found' = some row') (hholds : row'.holds key) :
    (∃ row, found = some row ∧ row.holds key) ∨ fresh key := by
  cases h with
  | kept => exact Or.inl ⟨row', hrow', hholds⟩
  | purged => cases hrow'
  | created | ended row | consumedInline row | cancelled row =>
    cases hrow'
    exact absurd hholds (not_holds rfl rfl)
  | reserved row r hwaiting hupload hfinal =>
    cases hrow'
    rcases hholds with hheld | hheld
    · exact Or.inr (Option.some.inj hheld ▸ hupload)
    · exact Or.inr (Option.some.inj hheld ▸ hfinal)
  | submitted row | consumedObject row =>
    cases hrow'
    exact Or.inl ⟨row, rfl, hholds⟩
  | accepted row =>
    cases hrow'
    refine Or.inl ⟨row, rfl, ?_⟩
    rcases hholds with hheld | hheld
    · cases hheld
    · exact Or.inr hheld
  | released row =>
    cases hrow'
    refine Or.inl ⟨row, rfl, ?_⟩
    rcases hholds with hheld | hheld
    · exact Or.inl hheld
    · cases hheld

/-- A final key that is not new was there before, with the upload key it has now, if any. -/
theorem RowStep.final_origin (h : RowStep fresh new clock after found found')
    (hrow' : found' = some row') (hfinal : row'.finalKey = some key) (hold : ¬ fresh key) :
    ∃ row, found = some row ∧ row.finalKey = some key ∧
      (row'.uploadKey = none ∨ row'.uploadKey = row.uploadKey) := by
  cases h with
  | kept => exact ⟨row', hrow', hfinal, Or.inr rfl⟩
  | purged => cases hrow'
  | created | ended row | consumedInline row | cancelled row | released row =>
    cases hrow'
    cases hfinal
  | reserved row r hwaiting hupload hnew =>
    cases hrow'
    exact absurd (Option.some.inj hfinal ▸ hnew) hold
  | submitted row | consumedObject row =>
    cases hrow'
    exact ⟨row, rfl, hfinal, Or.inr rfl⟩
  | accepted row =>
    cases hrow'
    exact ⟨row, rfl, hfinal, Or.inl rfl⟩

/-- A row that waits has no objects. -/
theorem RowInv.waiting_keys (h : RowInv row) (hwaiting : row.state = .waiting) :
    row.uploadKey = none ∧ row.finalKey = none := by
  constructor
  · by_contra hne
    have hstate := h.upload.mp (Option.isSome_iff_ne_none.mpr hne)
    rw [hwaiting] at hstate
    cases hstate
  · by_contra hne
    have hstate := (h.final (Option.isSome_iff_ne_none.mpr hne)).2
    rw [hwaiting] at hstate
    rcases hstate with hstate | hstate | hstate <;> cases hstate

/-- Only a reservation has an upload key. -/
theorem RowInv.upload_none (h : RowInv row) (hstate : row.state ≠ .uploading) :
    row.uploadKey = none := by
  by_contra hne
  exact hstate (h.upload.mp (Option.isSome_iff_ne_none.mpr hne))

/-- A row without keys, in a state that asks for no attempt. -/
theorem RowInv.of_no_keys (hfirst : 1 ≤ row.generation) (hlast : row.generation ≤ maxGeneration)
    (hwaiting : row.state = .waiting → row.attemptTokenHash = none)
    (hattempted : row.state ≠ .uploading ∧ row.state ≠ .submitted) (hupload : row.uploadKey = none)
    (hfinal : row.finalKey = none) : RowInv row where
  first := hfirst
  last := hlast
  waiting := hwaiting
  attempted := fun hstate => absurd hstate (not_or.mpr hattempted)
  upload := by simp [hupload, hattempted.1]
  final := by simp [hfinal]
  consumed := by simp [hfinal]
  apart := by simp [hupload]

theorem RowStep.inv (h : RowStep fresh new clock after found found')
    (hfound : ∀ row, found = some row → RowInv row) (hrow' : found' = some row') : RowInv row' := by
  cases h with
  | kept => exact hfound row' hrow'
  | purged => cases hrow'
  | created =>
    cases hrow'
    exact RowInv.of_no_keys (by simp [newRow]) (by simp [newRow, maxGeneration]) (fun _ => rfl)
      (by simp [newRow]) rfl rfl
  | submitted row attempt bodyHash kind sizeBytes envelope hwaiting =>
    cases hrow'
    have hrow := hfound row rfl
    obtain ⟨hupload, hfinal⟩ := hrow.waiting_keys hwaiting
    exact {
      first := hrow.first
      last := hrow.last
      waiting := fun hstate => by cases hstate
      attempted := fun _ => rfl
      upload := by simp [RequestRow.submit, hupload]
      final := by simp [RequestRow.submit, hfinal]
      consumed := fun hstate => by cases hstate
      apart := hrow.apart }
  | reserved row r hwaiting hupload hfinal hne =>
    cases hrow'
    have hrow := hfound row rfl
    exact {
      first := hrow.first
      last := hrow.last
      waiting := fun hstate => by cases hstate
      attempted := fun _ => rfl
      upload := ⟨fun _ => rfl, fun _ => rfl⟩
      final := fun _ => ⟨rfl, Or.inl rfl⟩
      consumed := fun hstate => by cases hstate
      apart := by
        rintro key ⟨⟩ hsame
        exact hne (Option.some.inj hsame).symm }
  | ended row =>
    cases hrow'
    have hrow := hfound row rfl
    refine RowInv.of_no_keys ?_ ?_ (fun _ => rfl) ?_ rfl rfl
    · have := hrow.first
      show 1 ≤ if row.generation = maxGeneration then _ else _
      split <;> omega
    · have := hrow.last
      show (if row.generation = maxGeneration then _ else _) ≤ maxGeneration
      split <;> omega
    · show (if row.generation = maxGeneration then State.unavailable else .waiting) ≠ .uploading ∧
        (if row.generation = maxGeneration then State.unavailable else .waiting) ≠ .submitted
      split <;> decide
  | accepted row now huploading =>
    cases hrow'
    have hrow := hfound row rfl
    exact {
      first := hrow.first
      last := hrow.last
      waiting := fun hstate => by cases hstate
      attempted := fun _ => hrow.attempted (Or.inl huploading)
      upload := by simp [RequestRow.accept]
      final := fun hsome => ⟨(hrow.final hsome).1, Or.inr (Or.inl rfl)⟩
      consumed := fun hstate => by cases hstate
      apart := fun key hkey => by cases hkey }
  | consumedInline row now hsubmitted =>
    cases hrow'
    have hrow := hfound row rfl
    exact RowInv.of_no_keys hrow.first hrow.last (fun hstate => by cases hstate)
      (by constructor <;> exact fun hstate => by cases hstate) rfl rfl
  | consumedObject row key now hsubmitted hkey =>
    cases hrow'
    have hrow := hfound row rfl
    have hupload := hrow.upload_none (by rw [hsubmitted]; decide)
    exact {
      first := hrow.first
      last := hrow.last
      waiting := fun hstate => by cases hstate
      attempted := fun hstate => by rcases hstate with hstate | hstate <;> cases hstate
      upload := by simp [RequestRow.consumeObject, hupload]
      final := fun hsome => ⟨(hrow.final hsome).1, Or.inr (Or.inr rfl)⟩
      consumed := fun _ _ => rfl
      apart := hrow.apart }
  | released row key hconsumed =>
    cases hrow'
    have hrow := hfound row rfl
    refine RowInv.of_no_keys hrow.first hrow.last hrow.waiting ?_
      (hrow.upload_none (by rw [hconsumed]; decide)) rfl
    rw [RequestRow.releaseObject, hconsumed]
    decide
  | cancelled row now =>
    cases hrow'
    have hrow := hfound row rfl
    exact RowInv.of_no_keys hrow.first hrow.last (fun hstate => by cases hstate)
      (by constructor <;> exact fun hstate => by cases hstate) rfl rfl

end

/-! ### The invariant is kept -/

section

variable {cfg : Config} {drawn : String → String → Prop} {w w' : World} {a : ObjectAttempt}
  {call : FinalizeCall} {pid : Nat} {answers : List Answer} {row : RequestRow} {phase : Phase}

theorem Paired.mono (h : Paired w a) (hadvance : Advance cfg drawn w w') : Paired w' a := by
  refine ⟨h.apart, hadvance.used h.used, ?_⟩
  intro id row' hrow' hfinal
  have hold : ¬ drawn id a.finalKey := fun hdrawn => (hadvance.fresh id _ hdrawn).1 h.used
  obtain ⟨row, hrow, hfinal', hupload⟩ := (hadvance.rows id).final_origin hrow' hfinal hold
  rcases hupload with hnone | hsame
  · exact Or.inl hnone
  · rw [hsame]
    exact h.upload id row hrow hfinal'

theorem objectAttempt_ok (h : row.objectAttempt cfg = .ok a) :
    row.uploadKey = some a.uploadKey ∧ row.finalKey = some a.finalKey ∧
      row.sizeBytes = some a.sizeBytes ∧ row.ciphertextSHA256 = a.checksum := by
  unfold RequestRow.objectAttempt at h
  split at h
  · rename_i hupload hfinal hsize
    split at h
    · cases h
    cases h
    exact ⟨hupload, hfinal, hsize, rfl⟩
  · cases h

/-- The keys a finalization reads from a row are paired. -/
theorem Inv.paired (h : Inv cfg w) {id : String} (hrow : w.row id = some row)
    (ha : row.objectAttempt cfg = .ok a) : Paired w a := by
  obtain ⟨hupload, hfinal, -, -⟩ := objectAttempt_ok ha
  refine ⟨?_, h.keys id row _ hrow (Or.inr hfinal), ?_⟩
  · intro hsame
    exact (h.rows id row hrow).apart a.uploadKey hupload (hsame ▸ hfinal)
  · intro id' row' hrow' hfinal'
    obtain rfl : id' = id :=
      h.apart id' id row' row a.finalKey hrow' hrow (Or.inr hfinal') (Or.inr hfinal)
    rw [hrow] at hrow'
    obtain rfl := Option.some.inj hrow'
    exact Or.inr hupload

/-- A call that has copied its upload names the upload key of the row it accepts. -/
theorem Inv.pair (h : Inv cfg w) (hat : w.calls pid = some call) (hphase : call.phase = .copied a) :
    ∀ row, w.row call.id = some row → row.state = .uploading → row.finalKey = some a.finalKey →
      row.uploadKey = some a.uploadKey ∧ a.uploadKey ≠ a.finalKey := by
  have hpaired : Paired w a := h.calls pid call a hat (by rw [hphase]; rfl)
  intro row hrow huploading hfinal
  refine ⟨?_, hpaired.apart⟩
  rcases hpaired.upload call.id row hrow hfinal with hnone | hsame
  · have hsome := (h.rows call.id row hrow).upload.mpr huploading
    rw [hnone] at hsome
    cases hsome
  · exact hsame

theorem Advance.inv (hadvance : Advance cfg drawn w w') (h : Inv cfg w) : Inv cfg w' where
  unique := hadvance.unique
  rows := fun id row' hrow' => (hadvance.rows id).inv (h.rows id) hrow'
  issued := by
    intro id row' hrow'
    rcases (hadvance.rows id).origin hrow' with hnew | ⟨row, hrow, -⟩
    · exact hnew.2
    · exact hadvance.known (h.issued id row hrow)
  keys := by
    intro id row' key hrow' hholds
    rcases (hadvance.rows id).holds_origin hrow' hholds with ⟨row, hrow, hheld⟩ | hdrawn
    · exact hadvance.used (h.keys id row key hrow hheld)
    · exact (hadvance.fresh id key hdrawn).2
  apart := by
    intro id id' row row' key hrow hrow' hholds hholds'
    rcases (hadvance.rows id).holds_origin hrow hholds with ⟨old, hold, hheld⟩ | hdrawn
    · rcases (hadvance.rows id').holds_origin hrow' hholds' with ⟨old', hold', hheld'⟩ | hdrawn'
      · exact h.apart id id' old old' key hold hold' hheld hheld'
      · exact absurd (h.keys id old key hold hheld) (hadvance.fresh id' key hdrawn').1
    · rcases (hadvance.rows id').holds_origin hrow' hholds' with ⟨old', hold', hheld'⟩ | hdrawn'
      · exact absurd (h.keys id' old' key hold' hheld') (hadvance.fresh id key hdrawn).1
      · exact hadvance.single id id' key hdrawn hdrawn'
  valid := by
    intro pid call' hat
    rcases hadvance.calls pid call' hat with ⟨call, hold, hsame, -⟩ | ⟨-, -, hvalid⟩
    · rw [hsame]
      exact h.valid pid call hold
    · exact hvalid
  calls := by
    intro pid call' a hat hcopies
    rcases hadvance.calls pid call' hat with ⟨call, hold, -, hcopied⟩ | ⟨-, hentered, -⟩
    · rcases hcopied a hcopies with hcopied | ⟨row, hrow, ha⟩
      · exact (h.calls pid call a hold hcopied).mono hadvance
      · exact (h.paired hrow ha).mono hadvance
    · rw [hentered] at hcopies
      cases hcopies

/-! ### What the actions do -/

def CallsKeep (cfg : Config) (w w' : World) : Prop :=
  ∀ pid call', w'.calls pid = some call' → CallStep cfg w pid call'

theorem CallsKeep.same (hcalls : w'.calls = w.calls) : CallsKeep cfg w w' := by
  intro pid call' hat
  rw [hcalls] at hat
  exact Or.inl ⟨call', hat, rfl, fun _ hcopies => Or.inl hcopies⟩

/-- One call goes on. -/
theorem CallsKeep.goto (hat : w.calls pid = some call)
    (hcalls : w'.calls = Function.update w.calls pid (some (call.goto phase)))
    (hcopies : ∀ a, phase.copies = some a → call.phase.copies = some a ∨
      ∃ row, w.row call.id = some row ∧ row.objectAttempt cfg = .ok a) : CallsKeep cfg w w' := by
  intro pid' call' hat'
  rw [hcalls, Function.update_apply] at hat'
  split at hat'
  · rename_i heq
    obtain rfl := Option.some.inj hat'
    rw [heq]
    exact Or.inl ⟨call, hat, rfl, hcopies⟩
  · exact Or.inl ⟨call', hat', rfl, fun _ hcopied => Or.inl hcopied⟩

/-- A call that gets its answer copies nothing any more. -/
theorem CallsKeep.answer (hat : w.calls pid = some call)
    (hcalls : w'.calls = Function.update w.calls pid (some (call.goto phase)))
    (hcopies : phase.copies = none) : CallsKeep cfg w w' := by
  refine CallsKeep.goto hat hcalls fun a ha => ?_
  rw [hcopies] at ha
  cases ha

/-- An action that leaves the request table alone. -/
theorem Advance.silent (h : Inv cfg w) (hclock : w.clock ≤ w'.clock)
    (hrows : w'.db.requests = w.db.requests) (hissued : w'.issued = w.issued)
    (hused : w.used ⊆ w'.used) (hcalls : CallsKeep cfg w w')
    (hjobs : ∀ key, Area.requests.owns key = true → Scheduled cfg.codec w'.db.outbox key →
      JobCause cfg w w' key) : Advance cfg (fun _ _ => False) w w' where
  clock := hclock
  rows := by
    intro id
    rw [World.row, World.row, hrows]
    exact RowStep.kept _
  unique := hrows ▸ h.unique
  fresh := fun _ _ hdrawn => hdrawn.elim
  single := fun _ _ _ hdrawn => hdrawn.elim
  used := hused
  known := by
    rw [hissued]
    exact List.Subset.refl _
  issued := by
    intro id hid
    rw [hissued] at hid
    exact Or.inl hid
  calls := hcalls
  jobs := hjobs

/-- An action of the calls alone. -/
theorem Advance.of_calls (h : Inv cfg w) (hclock : w.clock ≤ w'.clock) (hdb : w'.db = w.db)
    (hissued : w'.issued = w.issued) (hused : w.used ⊆ w'.used) (hcalls : CallsKeep cfg w w') :
    Advance cfg (fun _ _ => False) w w' := by
  refine Advance.silent h hclock (hdb ▸ rfl) hissued hused hcalls ?_
  intro key _ hs
  rw [hdb] at hs
  exact JobCause.before hs

/-- An action that is one transaction of an issued request. -/
theorem Advance.of_effect
    (heffect : Effect cfg drawn
      (fun id => id ∉ w.issued ∧ id ∈ w'.issued) w.clock w'.clock w.db w'.db)
    (hclock : w.clock ≤ w'.clock)
    (hfresh : ∀ id key, drawn id key → key ∉ w.used ∧ key ∈ w'.used)
    (hsingle : ∀ id id' key, drawn id key → drawn id' key → id = id')
    (hused : w.used ⊆ w'.used) (hissued : w'.issued = w.issued) (hcalls : CallsKeep cfg w w') :
    Advance cfg drawn w w' where
  clock := hclock
  rows := heffect.rows
  unique := heffect.unique
  fresh := hfresh
  single := hsingle
  used := hused
  known := by
    rw [hissued]
    exact List.Subset.refl _
  issued := by
    intro id hid
    rw [hissued] at hid
    exact Or.inl hid
  calls := hcalls
  jobs := by
    intro key _ hs
    rcases heffect.jobs key hs with hold | ⟨-, id, row, hrow, hholds, hgone⟩
    · exact JobCause.before hold
    · exact JobCause.released hrow hholds hgone

/-- A transaction that draws no keys. -/
theorem Advance.of_plain
    (heffect : Effect cfg (fun _ _ => False) (fun id => id ∉ w.issued ∧ id ∈ w'.issued) w.clock
      w'.clock w.db w'.db)
    (hclock : w.clock ≤ w'.clock) (hused : w'.used = w.used) (hissued : w'.issued = w.issued)
    (hcalls : CallsKeep cfg w w') : Advance cfg (fun _ _ => False) w w' :=
  Advance.of_effect heffect hclock (fun _ _ hdrawn => hdrawn.elim) (fun _ _ _ hdrawn => hdrawn.elim)
    (hused ▸ List.Subset.refl _) hissued hcalls

theorem Env.Within.clock {env : Env} {before after : Nat} (h : env.Within before after) :
    before ≤ after :=
  (h.lower 0).trans (h.upper 0)

/-- The action is a new reservation. -/
structure Reserves (w w' : World) (id : String) (row : RequestRow) (r : Reservation) : Prop where
  found : w.row id = some row
  waiting : row.state = .waiting
  lookup : ∀ other, w'.row other = if other = id then some (row.reserve r) else w.row other
  upload : ∃ raw, r.uploadKey = uploadKeyOf raw
  final : ∃ raw, r.finalKey = finalKeyOf raw
  fresh : w.FreshKeys r.uploadKey r.finalKey
  rest : w' = { w with
    clock := w'.clock, db := w'.db, used := r.uploadKey :: r.finalKey :: w.used }

/-- An action draws no keys, or it is a new reservation. -/
theorem Action.advance_cases (hinv : Inv cfg w) (haction : Action cfg w answers w') :
    Advance cfg (fun _ _ => False) w w' ∨
      ∃ id row r, Reserves w w' id row r ∧
        Advance cfg (fun id' key => id' = id ∧ (key = r.uploadKey ∨ key = r.finalKey)) w w' := by
  cases haction with
  | tick hclock =>
    exact Or.inl (Advance.of_calls hinv hclock rfl rfl (List.Subset.refl _) (CallsKeep.same rfl))
  | put key body =>
    exact Or.inl (Advance.of_calls hinv (Nat.le_refl _) rfl rfl (List.subset_cons_self key _)
      (CallsKeep.same rfl))
  | outbox hforeign =>
    refine Or.inl (Advance.silent hinv (Nat.le_refl _) rfl rfl (List.Subset.refl _)
      (CallsKeep.same rfl) ?_)
    exact fun key howns hs => JobCause.before (hforeign key howns hs)
  | @create db created now rawID rawSubmit rawRetrieve publicKey ttl hnow hfresh hcreate =>
    obtain ⟨heffect, hsome⟩ : Effect cfg (fun _ _ => False)
        (fun id => id ∉ w.issued ∧ id ∈ created.id :: w.issued) w.clock w.clock w.db db ∧ _ :=
      create_ok hinv.unique ⟨hfresh, List.mem_cons_self⟩ hcreate
    exact Or.inl ({
      clock := Nat.le_refl _
      rows := heffect.rows
      unique := heffect.unique
      fresh := fun _ _ hdrawn => hdrawn.elim
      single := fun _ _ _ hdrawn => hdrawn.elim
      used := List.Subset.refl _
      known := List.subset_cons_self _ _
      issued := by
        intro id hid
        rcases List.mem_cons.mp hid with rfl | hold
        · exact Or.inr hsome
        · exact Or.inl hold
      calls := CallsKeep.same rfl
      jobs := by
        intro key _ hs
        rcases heffect.jobs key hs with hold | ⟨-, id, row, hrow, hholds, hgone⟩
        · exact JobCause.before hold
        · exact JobCause.released hrow hholds hgone })
  | expire env henv id token owner hbegin =>
    obtain ⟨generation, hend⟩ := begin_ended hbegin
    exact Or.inl (Advance.of_plain (endReservationTx_effect hinv.unique hend) henv.clock rfl rfl
      (CallsKeep.same rfl))
  | submit env henv id token input hsubmit =>
    exact Or.inl (Advance.of_plain ((submit_ok hinv.unique hsubmit).1 _ _ _ _) henv.clock rfl rfl
      (CallsKeep.same rfl))
  | reserve env henv rawUpload rawFinal presign id token input hfresh hreserve hanswer =>
    obtain ⟨heffect, -⟩ := reserve_ok hinv.unique hfresh.2.2 hreserve hanswer
    obtain ⟨_, _, _, row, _, -, hbegins, hgeneration, -, hbody⟩ := reserve_cases hreserve hanswer
    rcases hbody with ⟨-, -, -, hdb, -⟩ | ⟨hwaiting, -, deadline, -, hdb⟩
    · refine Or.inl (Advance.of_calls hinv henv.clock hdb rfl ?_ (CallsKeep.same rfl))
      exact fun key hkey => List.mem_cons_of_mem _ (List.mem_cons_of_mem _ hkey)
    · rw [← hgeneration] at hdb
      have hupdates := Updates.of_waiting hinv.unique hbegins.found hwaiting
        (congrArg DB.requests hdb) (fun _ => rfl)
      refine Or.inr ⟨id, row, _, ⟨hbegins.found, hwaiting, hupdates.lookup, ⟨rawUpload, rfl⟩,
        ⟨rawFinal, rfl⟩, hfresh, rfl⟩, Advance.of_effect (heffect _ _ _ _ ⟨rfl, Or.inl rfl⟩
          ⟨rfl, Or.inr rfl⟩) henv.clock ?_ ?_ ?_ rfl (CallsKeep.same rfl)⟩
      · rintro id' key ⟨-, rfl | rfl⟩
        · exact ⟨hfresh.1, List.mem_cons_self⟩
        · exact ⟨hfresh.2.1, List.mem_cons_of_mem _ List.mem_cons_self⟩
      · rintro id' id'' key ⟨rfl, -⟩ ⟨rfl, -⟩
        rfl
      · exact fun key hkey => List.mem_cons_of_mem _ (List.mem_cons_of_mem _ hkey)
  | attempt env henv id token generation attemptToken hattempt =>
    exact Or.inl (Advance.of_calls hinv henv.clock (attempt_ok hattempt).1 rfl (List.Subset.refl _)
      (CallsKeep.same rfl))
  | abandon env henv id token input habandon hanswer =>
    exact Or.inl (Advance.of_plain (abandon_effect hinv.unique habandon hanswer) henv.clock rfl rfl
      (CallsKeep.same rfl))
  | openInline env henv id token hopen =>
    exact Or.inl (Advance.of_plain (openTx_inline hinv.unique hopen) henv.clock rfl rfl
      (CallsKeep.same rfl))
  | openRead pid env henv id token object hfree hopen hobject =>
    exact Or.inl (Advance.of_calls hinv henv.clock (openTx_read hopen) rfl (List.Subset.refl _)
      (CallsKeep.same rfl))
  | openConsume pid env henv hat hfree hconsume =>
    exact Or.inl (Advance.of_plain (consumeObject_ok hinv.unique henv.lower henv.mono hconsume).1
      henv.clock rfl rfl (CallsKeep.same rfl))
  | finishOpen pid env henv hat hfinish =>
    refine Or.inl (Advance.of_plain (finishOpen_ok hinv.unique ?_ hfinish) henv.clock rfl rfl
      (CallsKeep.same rfl))
    intro row hrow hconsumed
    exact (hinv.rows _ row hrow).upload_none (by rw [hconsumed]; decide)
  | revoke env henv id token hrevoke =>
    exact Or.inl (Advance.of_plain (revoke_effect hinv.unique hrevoke) henv.clock rfl rfl
      (CallsKeep.same rfl))
  | purge env now limit hclock hnow hpurge =>
    exact Or.inl (Advance.of_plain (purgeExpiredTx_effect hinv.unique hnow hpurge) hclock rfl rfl
      (CallsKeep.same rfl))
  | finalizeEnter pid process id token input hfree hvalid =>
    refine Or.inl (Advance.of_calls hinv (Nat.le_refl _) rfl rfl (List.Subset.refl _) ?_)
    intro pid' call' hat
    change Function.update w.calls pid _ pid' = some call' at hat
    rw [Function.update_apply] at hat
    split at hat
    · rename_i heq
      obtain rfl := Option.some.inj hat
      rw [heq]
      exact Or.inr ⟨hfree, rfl, hvalid⟩
    · exact Or.inl ⟨call', hat, rfl, fun _ hcopied => Or.inl hcopied⟩
  | finalizePass pid env henv hat hphase hfirst =>
    obtain ⟨hdb, row, hbegins, -, -, -, ha⟩ := finalizeTx_ok hfirst
    refine Or.inl (Advance.of_calls hinv henv.clock hdb rfl (List.Subset.refl _)
      (CallsKeep.goto hat rfl ?_))
    rintro a ⟨⟩
    exact Or.inr ⟨row, hbegins.found, ha⟩
  | finalizeReceipt pid env henv hat hphase hfirst =>
    exact Or.inl (Advance.of_calls hinv henv.clock (finalizeTx_ok hfirst).1 rfl (List.Subset.refl _)
      (CallsKeep.answer hat rfl rfl))
  | finalizeRefused pid env henv hat hphase hfirst =>
    exact Or.inl (Advance.of_calls hinv henv.clock rfl rfl (List.Subset.refl _)
      (CallsKeep.answer hat rfl rfl))
  | finalizeFail pid hat | finalizeFollow pid hat | copyReject pid hat | copyFail pid hat
  | acceptFail pid hat | finalizeReturn pid hat | finalizeShared pid hat =>
    exact Or.inl (Advance.of_calls hinv (Nat.le_refl _) rfl rfl (List.Subset.refl _)
      (CallsKeep.answer hat rfl rfl))
  | finalizeLead pid hat hphase | copySpool pid hat hphase =>
    refine Or.inl (Advance.of_calls hinv (Nat.le_refl _) rfl rfl (List.Subset.refl _)
      (CallsKeep.goto hat rfl ?_))
    rintro a ⟨⟩
    rw [hphase]
    exact Or.inl rfl
  | copyWrite pid hat hphase =>
    refine Or.inl (Advance.of_calls hinv (Nat.le_refl _) rfl rfl (List.subset_cons_self _ _)
      (CallsKeep.goto hat rfl ?_))
    rintro a ⟨⟩
    rw [hphase]
    exact Or.inl rfl
  | copyLost pid hat =>
    exact Or.inl (Advance.of_calls hinv (Nat.le_refl _) rfl rfl (List.subset_cons_self _ _)
      (CallsKeep.answer hat rfl rfl))
  | @accept call a receipt db after pid env henv hat hphase hsecond =>
    exact Or.inl (Advance.of_plain
      ((acceptTx_ok hinv.unique henv.mono (hinv.pair hat hphase) hsecond).1
      _ _ _ _ (henv.lower 3)) henv.clock rfl rfl (CallsKeep.answer hat rfl rfl))
  | acceptRefused pid env henv hat =>
    exact Or.inl (Advance.of_calls hinv henv.clock rfl rfl (List.Subset.refl _)
      (CallsKeep.answer hat rfl rfl))
  | scanCommit pid env hat hcommit =>
    refine Or.inl (Advance.silent hinv (Nat.le_refl _) rfl rfl (List.Subset.refl _)
      (CallsKeep.same rfl) ?_)
    intro key _ hs
    rcases scheduled_commitPage hcommit hs with hold | ⟨hmem, hprotect⟩
    · exact JobCause.before hold
    · exact JobCause.unprotected hat hmem rfl rfl (Except.ok.inj hprotect)
  | objectGone | openFail | streamEnd | streamLost | scanBegin | scanListed | scanEnd =>
    exact Or.inl (Advance.of_calls hinv (Nat.le_refl _) rfl rfl (List.Subset.refl _)
      (CallsKeep.same rfl))
  | scanReset | acknowledge =>
    refine Or.inl (Advance.silent hinv (Nat.le_refl _) rfl rfl (List.Subset.refl _)
      (CallsKeep.same rfl) fun key _ hs => JobCause.before hs)

/-- **Step lemma.** -/
theorem Action.advance (hinv : Inv cfg w) (haction : Action cfg w answers w') :
    ∃ drawn, Advance cfg drawn w w' := by
  rcases haction.advance_cases hinv with hadvance | ⟨id, row, r, -, hadvance⟩
  · exact ⟨_, hadvance⟩
  · exact ⟨_, hadvance⟩

theorem Step.inv {label : Label} (hstep : Step cfg w label w') (h : Inv cfg w) : Inv cfg w' := by
  obtain ⟨drawn, hadvance⟩ := hstep.1.advance h
  exact hadvance.inv h

end

end Requests
end FlickDrop
