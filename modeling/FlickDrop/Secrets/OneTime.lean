import FlickDrop.Secrets.Sweep
import FlickDrop.Secrets.System

/-!
# A secret ends once

Every step of the service acts on the row of each secret by a `RowStep`, so the tables
refine the machine of `Life`: whatever runs against whatever, at most one of opened,
locked, cancelled and reclaimed commits, and nothing follows it.
-/

namespace FlickDrop
namespace Secrets

open Foundations Events

/-- What a step is for one secret. -/
def Label.event : Label → String → Event
  | .other | .refused _ => fun _ => .silent
  | .created row => eventAt row.id .created
  | .activated id => eventAt id .activated
  | .opened id _ _ _ => eventAt id (.terminal .opened)
  | .locked id => eventAt id (.terminal .locked)
  | .cancelled id => eventAt id (.terminal .cancelled)
  | .reclaimed ids => fun id => if id ∈ ids then .terminal .reclaimed else .silent

/-- What stays true of a row. -/
structure RowInv (row : SecretRow) : Prop where
  unclaimed : row.reclaimEnqueuedAt = none
  pending : row.state = .pendingUpload → row.consumedAt = none
  proof : ∀ access, row.access = some access → access.proofHash ≠ ""
  key : row.storageBackend = .s3Object → row.storageKey = objectKey row.id
  upload : row.state = .pendingUpload → row.storageBackend = .s3Object

/-- The columns no statement changes. -/
structure SameSecret (row row' : SecretRow) : Prop where
  id : row'.id = row.id
  access : row'.access = row.access
  backend : row'.storageBackend = row.storageBackend
  key : row'.storageKey = row.storageKey
  expiresAt : row'.expiresAt = row.expiresAt
  createdAt : row'.createdAt = row.createdAt

section

variable {julian : JulianDay} {clock after : Nat} {found found' : Option SecretRow} {event : Event}
  {row' : SecretRow}

/-- A row that is there after a step was created by it or was there before. -/
theorem RowStep.origin (h : RowStep julian clock after found event found')
    (hrow' : found' = some row') :
    found = none ∧ event = .created ∨ ∃ row, found = some row ∧ SameSecret row row' := by
  cases h with
  | kept => exact Or.inr ⟨row', hrow', ⟨rfl, rfl, rfl, rfl, rfl, rfl⟩⟩
  | created => exact Or.inl ⟨rfl, rfl⟩
  | purged | cancelled | reclaimed => cases hrow'
  | touched row now =>
    cases hrow'
    exact Or.inr ⟨row, rfl, ⟨rfl, rfl, rfl, rfl, rfl, rfl⟩⟩
  | refused row | locked row | opened row | activated row =>
    cases hrow'
    exact Or.inr ⟨row, rfl, ⟨rfl, rfl, rfl, rfl, rfl, rfl⟩⟩

theorem RowStep.inv (h : RowStep julian clock after found event found')
    (hfound : ∀ row, found = some row → RowInv row) (hrow' : found' = some row') : RowInv row' := by
  cases h with
  | kept => exact hfound row' hrow'
  | purged | cancelled | reclaimed => cases hrow'
  | created row hunconsumed hunclaimed hproof hkey hupload =>
    cases hrow'
    exact ⟨hunclaimed, fun _ => hunconsumed, hproof, hkey, hupload⟩
  | touched row now =>
    cases hrow'
    obtain ⟨hunclaimed, hpending, hproof, hkey, hupload⟩ := hfound row rfl
    exact ⟨hunclaimed, hpending, hproof, hkey, hupload⟩
  | activated row now hpending =>
    cases hrow'
    obtain ⟨hunclaimed, hunconsumed, hproof, hkey, hupload⟩ := hfound row rfl
    exact ⟨hunclaimed, fun _ => hunconsumed hpending, hproof, hkey, fun _ => hupload hpending⟩
  | refused row now hactive | locked row now hactive | opened row now hactive =>
    cases hrow'
    obtain ⟨hunclaimed, -, hproof, hkey, hupload⟩ := hfound row rfl
    refine ⟨hunclaimed, fun hpending => ?_, hproof, hkey, hupload⟩
    exact absurd (hactive.symm.trans hpending) (by decide)

/-- The place of a secret in its life. -/
def lifeOf (issued : Prop) [Decidable issued] : Option SecretRow → Life
  | none => if issued then .gone else .unborn
  | some row =>
    if row.consumedAt.isSome then .consumed
    else
      match row.state with
      | .active => .active
      | .pendingUpload => .pending

section

variable {issued : Prop} [Decidable issued] {row : SecretRow}

theorem lifeOf_consumed (h : row.consumedAt.isSome) : lifeOf issued (some row) = .consumed :=
  if_pos h

theorem lifeOf_active (hstate : row.state = .active) (h : row.consumedAt = none) :
    lifeOf issued (some row) = .active := by
  simp [lifeOf, h, hstate]

theorem lifeOf_pending (hstate : row.state = .pendingUpload) (h : row.consumedAt = none) :
    lifeOf issued (some row) = .pending := by
  simp [lifeOf, h, hstate]

theorem lifeOf_unconsumed (h : row.consumedAt = none) :
    lifeOf issued (some row) = .pending ∨ lifeOf issued (some row) = .active := by
  cases hstate : row.state with
  | active => exact Or.inr (lifeOf_active hstate h)
  | pendingUpload => exact Or.inl (lifeOf_pending hstate h)

theorem lifeOf_none (h : issued) : lifeOf issued none = .gone :=
  if_pos h

end

/-- **One-step refinement**, for one row. -/
theorem RowStep.life (h : RowStep julian clock after found event found')
    (hfound : ∀ row, found = some row → RowInv row) {issued issued' : Prop} [Decidable issued]
    [Decidable issued'] (hissued : ∀ row, found = some row → issued)
    (hnew : event = .created → ¬ issued) (hold : event ≠ .created → (issued ↔ issued')) :
    LifeStep (lifeOf issued found) event (lifeOf issued' found') := by
  cases h with
  | kept =>
    have hsame : lifeOf issued found = lifeOf issued' found := by
      cases found with
      | none => simp only [lifeOf, hold (by decide)]
      | some row => rfl
    rw [← hsame]
    exact LifeStep.stay _
  | touched row now => exact LifeStep.stay (lifeOf issued (some row))
  | refused row now hactive hunconsumed hfew =>
    have hstill : (row.countFailure now).consumedAt = none := by
      rw [SecretRow.countFailure, if_neg (Nat.not_le_of_lt hfew)]
      exact hunconsumed
    have hactive' : (row.countFailure now).state = .active := hactive
    rw [lifeOf_active hactive hunconsumed, lifeOf_active hactive' hstill]
    exact LifeStep.stay _
  | purged row now hconsumed hquiet hnow =>
    rw [lifeOf_consumed hconsumed, lifeOf_none ((hold (by decide)).mp (hissued row rfl))]
    exact LifeStep.purge
  | created row hunconsumed hunclaimed hproof hkey hupload =>
    rw [show lifeOf issued none = .unborn from if_neg (hnew rfl)]
    have hlive : lifeOf issued' (some row) = .pending ∨ lifeOf issued' (some row) = .active :=
      lifeOf_unconsumed hunconsumed
    rcases hlive with hlife | hlife
    · rw [hlife]
      exact LifeStep.createLarge
    · rw [hlife]
      exact LifeStep.create
  | activated row now hpending =>
    have hunconsumed := (hfound row rfl).pending hpending
    have hactive : (row.activate now).state = .active := rfl
    have hstill : (row.activate now).consumedAt = none := hunconsumed
    rw [lifeOf_pending hpending hunconsumed, lifeOf_active hactive hstill]
    exact LifeStep.activate
  | opened row now hactive hunconsumed hclock hearly =>
    rw [lifeOf_active hactive hunconsumed, lifeOf_consumed rfl]
    exact LifeStep.openSecret
  | locked row now hactive hunconsumed hmany =>
    have hconsumed : (row.countFailure now).consumedAt.isSome := by
      rw [SecretRow.countFailure, if_pos hmany]
      rfl
    rw [lifeOf_active hactive hunconsumed, lifeOf_consumed hconsumed]
    exact LifeStep.lock
  | cancelled row hunconsumed =>
    rw [lifeOf_none ((hold (by decide)).mp (hissued row rfl))]
    exact LifeStep.cancel (lifeOf_unconsumed hunconsumed)
  | reclaimed row hunconsumed =>
    rw [lifeOf_none ((hold (by decide)).mp (hissued row rfl))]
    exact LifeStep.reclaim (lifeOf_unconsumed hunconsumed)

end

/-! ### The system refines the machine -/

/-- The rows of every state: sound, and of issued secrets only. -/
structure Inv (w : World) : Prop where
  unique : Table.UniqueKey SecretRow.id w.db.secrets
  rows : ∀ id row, w.row id = some row → RowInv row
  issued : ∀ id row, w.row id = some row → id ∈ w.issued

theorem Inv.start (clock : Nat) : Inv (World.start clock) := by
  refine ⟨List.nodup_nil, ?_, ?_⟩
  · intro id row hrow
    cases hrow
  · intro id row hrow
    cases hrow

/-- Everything the secrets of a state go through in one step. -/
structure Advance (julian : JulianDay) (w : World) (label : Label) (w' : World) : Prop where
  clock : w.clock ≤ w'.clock
  unique : Table.UniqueKey SecretRow.id w'.db.secrets
  rows : ∀ id, RowStep julian w.clock w'.clock (w.row id) (label.event id) (w'.row id)
  issued : ∀ id, id ∈ w'.issued ↔ id ∈ w.issued ∨ label.event id = .created
  fresh : ∀ id, label.event id = .created → w.FreshID id

section

variable {cfg : Config} {julian : JulianDay} {w w' : World} {label : Label} {clock : Nat}
  {trace : List (Label × World)} {row : SecretRow} {now : Nat → Nat} {db db' : DB} {secret : Secret}
  {id accessProofHash : String}

theorem Advance.inv (h : Advance julian w label w') (hinv : Inv w) : Inv w' := by
  refine ⟨h.unique, ?_, ?_⟩
  · intro id row hrow
    exact (h.rows id).inv (hinv.rows id) hrow
  · intro id row hrow
    rw [h.issued id]
    rcases (h.rows id).origin hrow with ⟨-, hcreated⟩ | ⟨old, hold, -⟩
    · exact Or.inr hcreated
    · exact Or.inl (hinv.issued id old hold)

/-- A step that leaves the rows of all secrets alone. -/
theorem Advance.silent (hinv : Inv w) (hclock : w.clock ≤ w'.clock)
    (hsecrets : w'.db.secrets = w.db.secrets) (hissued : w'.issued = w.issued) :
    Advance julian w .other w' := by
  refine ⟨hclock, hsecrets ▸ hinv.unique, ?_, ?_, ?_⟩
  · intro id
    have hrow : w'.row id = w.row id := by rw [World.row, hsecrets, World.row]
    rw [hrow]
    exact RowStep.kept _
  · intro id
    rw [hissued]
    exact ⟨Or.inl, fun h => h.resolve_right (by simp [Label.event])⟩
  · intro id h
    cases h

/-- A step that is one transaction of an issued secret. -/
theorem Advance.of_effect (cfg : Config)
    (heffect : Effect cfg julian w.clock w'.clock w.db label.event w'.db)
    (hclock : w.clock ≤ w'.clock) (hissued : w'.issued = w.issued)
    (hnew : ∀ id, label.event id ≠ .created) : Advance julian w label w' := by
  refine ⟨hclock, heffect.unique, heffect.rows, ?_, fun id h => absurd h (hnew id)⟩
  intro id
  rw [hissued]
  exact ⟨Or.inl, fun h => h.resolve_right (hnew id)⟩

theorem eventAt_ne_created {other : String} {event : Event} (h : event ≠ .created) :
    eventAt id event other ≠ .created := by
  unfold eventAt
  split
  · exact h
  · decide

/-- A committed creation. -/
theorem Advance.of_create {after : Nat} (hfresh : w.FreshID row.id)
    (heffect : Effect cfg julian w.clock after w.db (eventAt row.id .created) db)
    (hafter : after = w.clock) : Advance julian w (.created row) (w.issue row.id db) := by
  subst hafter
  have hevent : ∀ id, Label.event (.created row) id = .created ↔ id = row.id := by
    intro id
    simp [Label.event, eventAt]
  refine ⟨Nat.le_refl _, heffect.unique, heffect.rows, ?_, ?_⟩
  · intro id
    rw [hevent id]
    show id ∈ row.id :: w.issued ↔ _
    rw [List.mem_cons, or_comm]
  · intro id h
    rw [hevent id] at h
    exact h ▸ hfresh

theorem Refused.counted (h : Refused cfg now id db db' row) :
    Table.lookup SecretRow.id id db'.secrets = some (row.countFailure (now 0)) := by
  have hguard : SecretRow.unconsumed id row = true := by
    simp [SecretRow.unconsumed, Table.lookup_key h.found, h.unconsumed]
  have hid : ∀ row, (SecretRow.countFailure (now 0) row).id = row.id := fun _ => rfl
  rw [h.secrets, Table.lookup_update hid, h.found, Option.map_some, if_pos hguard]

theorem refusedLabel_event (h : Refused cfg now id db db' row) :
    (refusedLabel id db').event = eventAt id (refusedEvent row) := by
  unfold refusedLabel refusedEvent
  rw [h.counted]
  dsimp only [SecretRow.countFailure]
  split
  · rfl
  · rw [h.unconsumed]
    funext other
    simp [Label.event, eventAt]

theorem revokedLabel_self (id : String) (db : DB) : revokedLabel id db db = .other := by
  refine if_neg ?_
  rintro ⟨hsome, hnone⟩
  rw [Option.isNone_iff_eq_none] at hnone
  rw [hnone] at hsome
  cases hsome

/-- A revocation is what its label says. -/
theorem revokedLabel_event (julian : JulianDay) (clock after : Nat) {draws : Draws} {token : String}
    {answer : Except Err ManagementStatus} (hunique : Table.UniqueKey SecretRow.id db.secrets)
    (h : revoke cfg now draws id token db = .commit db' answer) :
    revokedLabel id db db' = .other ∧ db' = db ∨
      revokedLabel id db db' = .cancelled id ∧
        db'.secrets = Table.delete (SecretRow.cancellable id) db.secrets ∧
        db'.management = recordManagementOutcomeTx id .cancelled db.management ∧
        Effect cfg julian clock after db (eventAt id (.terminal .cancelled)) db' := by
  rcases revoke_commit hunique h with rfl | ⟨hsecrets, hmanagement, ⟨row, hfound⟩, hgone, heffect⟩
  · exact Or.inl ⟨revokedLabel_self id _, rfl⟩
  · refine Or.inr ⟨?_, hsecrets, hmanagement, heffect⟩
    simp [revokedLabel, hfound, hgone]

/-- **Step lemma.** -/
theorem Step.advance (hinv : Inv w) (hstep : Step cfg julian w label w') :
    Advance julian w label w' := by
  cases hstep with
  | create now id raw input hnow hfresh hcreate =>
    exact Advance.of_create hfresh (create_effect hinv.unique hcreate) rfl
  | createLarge now id raw presign input hnow hfresh hcreate =>
    exact Advance.of_create hfresh (createLarge_effect hinv.unique hcreate) rfl
  | finalizeEnd pid head hat hactivate =>
    refine Advance.of_effect cfg (finalizeActivate_effect hinv.unique hactivate).2.2 (Nat.le_refl _)
      rfl ?_
    exact fun id => eventAt_ne_created (by decide)
  | opened pid readings draws object id accessProofHash hfree hopen =>
    rcases openAndEnqueueCleanup_commit hinv.unique hopen with ⟨_, row, hok, h⟩ | ⟨_, herr, -⟩
    · refine Advance.of_effect cfg (h.effect hinv.unique (readings.lower 1))
        readings.before_le_after rfl ?_
      exact fun id => eventAt_ne_created (by decide)
    · cases herr
  | refused readings draws object id accessProofHash hopen =>
    rcases openAndEnqueueCleanup_commit hinv.unique hopen with ⟨_, _, hok, -⟩ | ⟨row, -, h⟩
    · cases hok
    · have hevent := refusedLabel_event h
      refine Advance.of_effect cfg ?_ readings.before_le_after rfl ?_
      · rw [hevent]
        exact h.effect hinv.unique
      · intro other
        rw [hevent]
        apply eventAt_ne_created
        unfold refusedEvent
        split <;> decide
  | revoke readings draws id token hrevoke =>
    rcases revokedLabel_event julian _ _ hinv.unique hrevoke with
      ⟨hother, rfl⟩ | ⟨hcancelled, -, -, heffect⟩
    · rw [hother]
      exact Advance.silent hinv readings.before_le_after rfl rfl
    · rw [hcancelled]
      refine Advance.of_effect cfg heffect readings.before_le_after rfl ?_
      exact fun id => eventAt_ne_created (by decide)
  | cleanup id hcleanup =>
    refine Advance.of_effect cfg (cleanup_effect hinv.unique hcleanup) (Nat.le_refl _) rfl ?_
    exact fun id => by simp [Label.event]
  | claimExpired batchSize now draws purgeRequests hclock hnow hforeign hclaim =>
    refine Advance.of_effect cfg (claimExpired_effect hinv.unique (hnow 0) hforeign hclaim) hclock
      rfl ?_
    intro id
    simp only [Label.event]
    split <;> decide
  | tick hclock => exact Advance.silent hinv hclock rfl rfl
  | streamCleanup pid readings draws hat henqueue =>
    exact Advance.silent hinv readings.before_le_after (scheduled_enqueueObject henqueue).1 rfl
  | put | objectGone | outbox | finalizeBegin | finalizeFail | streamEnd | streamLost | scanBegin
  | scanListed | scanReset | scanCommit | scanEnd | acknowledge =>
    exact Advance.silent hinv (Nat.le_refl _) rfl rfl

theorem Step.inv (hinv : Inv w) (hstep : Step cfg julian w label w') : Inv w' :=
  (hstep.advance hinv).inv hinv

/-- The place of a secret in its life. -/
def World.life (w : World) (id : String) : Life :=
  lifeOf (id ∈ w.issued) (w.row id)

/-- **Refinement.**  For every secret, every step of the service is a step of its life. -/
theorem Step.life (hinv : Inv w) (hstep : Step cfg julian w label w') (id : String) :
    LifeStep (w.life id) (label.event id) (w'.life id) := by
  have h := hstep.advance hinv
  refine (h.rows id).life (hinv.rows id) (hinv.issued id) ?_ ?_
  · exact fun hcreated => (h.fresh id hcreated).1
  · intro hne
    rw [h.issued id]
    exact ⟨Or.inl, fun hor => hor.resolve_right hne⟩

/-! ### Runs -/

theorem inv_of_run (hrun : Run (Step cfg julian) (World.start clock) trace w) : Inv w :=
  Run.invariant Inv (Inv.start clock) (fun _ _ _ hinv hstep => hstep.inv hinv) hrun

theorem event_eq_created (h : label.event id = .created) :
    ∃ row, label = .created row ∧ row.id = id := by
  cases label with
  | created row =>
    simp only [Label.event, eventAt] at h
    split at h
    · rename_i heq
      exact ⟨row, rfl, heq.symm⟩
    · cases h
  | other | refused => simp [Label.event] at h
  | activated | opened | locked | cancelled => exact absurd h (eventAt_ne_created (by decide))
  | reclaimed ids =>
    simp only [Label.event] at h
    split at h <;> cases h

theorem refusedLabel_ne_created (id : String) (db : DB) (row : SecretRow) :
    refusedLabel id db ≠ .created row := by
  intro hlabel
  unfold refusedLabel at hlabel
  split at hlabel
  · split at hlabel <;> cases hlabel
  · cases hlabel

theorem revokedLabel_ne_created (id : String) (db db' : DB) (row : SecretRow) :
    revokedLabel id db db' ≠ .created row := by
  intro hlabel
  unfold revokedLabel at hlabel
  split at hlabel <;> cases hlabel

/-- A creation inserts the row it names. -/
theorem Step.created_row (hinv : Inv w) (hstep : Step cfg julian w label w')
    (hlabel : label = .created row) : w'.row row.id = some row := by
  have hinserted : ∀ db : DB, db.secrets = w.db.secrets ++ [row] →
      Table.UniqueKey SecretRow.id db.secrets →
      Table.lookup SecretRow.id row.id db.secrets = some row := by
    intro db hsecrets hunique
    exact Table.lookup_of_mem hunique (hsecrets ▸ List.mem_append_right _ List.mem_cons_self)
  have hunique := (hstep.inv hinv).unique
  cases hstep with
  | create now id raw input hnow hfresh hcreate =>
    cases hlabel
    exact hinserted _ (create_ok hcreate).2.2.1 hunique
  | createLarge now id raw presign input hnow hfresh hcreate =>
    cases hlabel
    exact hinserted _ (createLarge_ok hcreate).2.2.1 hunique
  | refused readings draws object id accessProofHash hopen =>
    exact absurd hlabel (refusedLabel_ne_created _ _ _)
  | revoke readings draws id token hrevoke => exact absurd hlabel (revokedLabel_ne_created _ _ _ _)
  | _ => cases hlabel

/-- Every row goes back to a creation of its run, with the columns no statement changes. -/
theorem created_of_run (hrun : Run (Step cfg julian) (World.start clock) trace w)
    (hrow : w.row id = some row) :
    ∃ row₀, Label.created row₀ ∈ labels trace ∧ SameSecret row₀ row := by
  revert id row
  refine Run.history_invariant (fun trace w => ∀ {id : String} {row : SecretRow},
    w.row id = some row → ∃ row₀, Label.created row₀ ∈ labels trace ∧ SameSecret row₀ row)
    ?_ ?_ hrun
  · intro id row hrow
    cases hrow
  · intro trace w label w' hprefix hpast hstep id row' hrow'
    have hinv := inv_of_run hprefix
    rw [labels_append, labels_cons, labels_nil]
    rcases ((hstep.advance hinv).rows id).origin hrow' with ⟨-, hcreated⟩ | ⟨row, hrow, hsame⟩
    · obtain ⟨row₀, rfl, hid⟩ := event_eq_created hcreated
      have hthere := hstep.created_row hinv rfl
      rw [hid, hrow'] at hthere
      obtain rfl := Option.some.inj hthere
      exact ⟨row', List.mem_append_right _ List.mem_cons_self, ⟨rfl, rfl, rfl, rfl, rfl, rfl⟩⟩
    · obtain ⟨row₀, hmem, hsame₀⟩ := hpast hrow
      refine ⟨row₀, List.mem_append_left _ hmem, ?_⟩
      exact ⟨hsame.id.trans hsame₀.id, hsame.access.trans hsame₀.access,
        hsame.backend.trans hsame₀.backend, hsame.key.trans hsame₀.key,
        hsame.expiresAt.trans hsame₀.expiresAt, hsame.createdAt.trans hsame₀.createdAt⟩

/-- The transaction behind an open that returns the secret. -/
theorem Step.opened_ok (hinv : Inv w) (hstep : Step cfg julian w label w') {now : Nat}
    (hlabel : label = .opened id accessProofHash now secret) :
    ∃ row readings, Opened cfg readings id accessProofHash w.db w'.db secret row ∧
      readings 1 = now ∧ w.clock ≤ now := by
  cases hstep with
  | opened pid readings draws object id' accessProofHash' hfree hopen =>
    cases hlabel
    rcases openAndEnqueueCleanup_commit hinv.unique hopen with ⟨secret', row, hok, h⟩ | ⟨_, herr, -⟩
    · obtain rfl := Except.ok.inj hok
      exact ⟨row, readings.now, h, rfl, readings.lower 1⟩
    · cases herr
  | refused readings draws object id accessProofHash hopen =>
    unfold refusedLabel at hlabel
    split at hlabel
    · split at hlabel <;> cases hlabel
    · cases hlabel
  | revoke readings draws id token hrevoke =>
    unfold revokedLabel at hlabel
    split at hlabel <;> cases hlabel
  | _ => cases hlabel

/-- What an open that returns the secret found. -/
theorem Step.opened_row (hinv : Inv w) (hstep : Step cfg julian w label w') {now : Nat}
    (hlabel : label = .opened id accessProofHash now secret) :
    ∃ row, w.row id = some row ∧ row.state = .active ∧ row.consumedAt = none ∧
      w.clock ≤ now ∧ now < row.expiresAt ∧
      ∀ access, row.access = some access → access.proofHash = accessProofHash := by
  obtain ⟨row, readings, h, rfl, hclock⟩ := hstep.opened_ok hinv hlabel
  refine ⟨row, h.loaded.found, h.loaded.active, h.unconsumed, hclock, h.early, ?_⟩
  intro access haccess
  have hproof := h.proof
  rw [Secret.accessProofHash, h.loaded.access, haccess] at hproof
  exact hproof.resolve_left ((hinv.rows id row h.loaded.found).proof access haccess)

/-- **Refinement of runs.** -/
theorem life_of_run {w₀ : World} (hinv : Inv w₀) (hrun : Run (Step cfg julian) w₀ trace w)
    (id : String) :
    Run LifeStep (w₀.life id) (trace.map fun entry => (entry.1.event id, entry.2.life id))
      (w.life id) :=
  Run.simulate Inv (fun w => w.life id) (fun label => label.event id) hinv
    (fun _ _ _ hinv hstep => hstep.inv hinv) (fun _ _ _ hinv hstep => hstep.life hinv id) hrun

end

theorem labels_life (trace : List (Label × World)) (id : String) :
    labels (trace.map fun entry => (entry.1.event id, entry.2.life id)) =
      (labels trace).map fun label => label.event id := by
  simp [labels]

/-- **Exactly one terminal transition.**  In every run and for every secret: at most one
of opened, locked, cancelled and reclaimed commits; after it nothing happens to the
secret any more, no open, no activation and no cancellation; and an open that returns
the secret found it active and unconsumed, at an instant of its transaction before the
expiry it was created with, and, if it was created with a proof hash, with that hash. -/
theorem one_terminal_transition {cfg : Config} {julian : JulianDay} {clock : Nat}
    {trace : List (Label × World)} {w : World}
    (hrun : Run (Step cfg julian) (World.start clock) trace w) (id : String) :
    ((labels trace).flatMap fun label => (label.event id).terminals).length ≤ 1 ∧
    (∀ front label after back, trace = front ++ (label, after) :: back →
      (label.event id).terminals ≠ [] → ∀ later ∈ labels back, later.event id = .silent) ∧
    (∀ front accessProofHash now secret after back,
      trace = front ++ (.opened id accessProofHash now secret, after) :: back →
      ∃ before row row₀, Run (Step cfg julian) (World.start clock) front before ∧
        before.row id = some row ∧ row.state = .active ∧ row.consumedAt = none ∧
        Label.created row₀ ∈ labels front ∧ row₀.id = id ∧ before.clock ≤ now ∧
        now < row₀.expiresAt ∧
        ∀ access, row₀.access = some access → access.proofHash = accessProofHash) := by
  refine ⟨?_, ?_, ?_⟩
  · have hlife := terminals_le_one (life_of_run (Inv.start clock) hrun id)
    rwa [labels_life, List.flatMap_map] at hlife
  · rintro front label after back rfl hterminal later hlater
    obtain ⟨before, hfront, hstep, hback⟩ := hrun.split
    have hinv := inv_of_run hfront
    have hended := (hstep.life hinv id).ended_of_terminal hterminal
    refine silent_after_end (life_of_run (hstep.inv hinv) hback id) hended _ ?_
    rw [labels_life]
    exact List.mem_map_of_mem hlater
  · rintro front accessProofHash now secret after back rfl
    obtain ⟨before, hfront, hstep, -⟩ := hrun.split
    obtain ⟨row, hrow, hactive, hunconsumed, hclock, hearly, hproof⟩ :=
      hstep.opened_row (inv_of_run hfront) rfl
    obtain ⟨row₀, hcreated, hsame⟩ := created_of_run hfront hrow
    refine ⟨before, row, row₀, hfront, hrow, hactive, hunconsumed, hcreated, ?_, hclock, ?_, ?_⟩
    · rw [← hsame.id]
      exact Table.lookup_key hrow
    · rw [← hsame.expiresAt]
      exact hearly
    · rw [← hsame.access]
      exact hproof

/-! ### A concrete run -/

/-- A deployment that can enqueue the one event `e`. -/
def sampleConfig (e : JobEvent) : Config where
  codec := singleCodec e
  subject := "jobs"
  sha256 := id
  payloadInlineMaxBytes := 1000
  maxObjectBytes := 1000
  pendingTTL := 15 * minute
  minTTL := 60
  maxTTL := 3600
  objects := true
  outbox := true

/-- Days of one nanosecond. -/
def instantDay : JulianDay where
  day := id
  mono := fun _ _ h => h
  separates := by
    intro a b h
    show a < b
    omega

def sampleInput : CreateInput where
  kind := .text
  ciphertext := ageMagic
  accessKDF := ⟨"", "", 0, 0⟩
  accessProofHash := ""
  wrappedIdentity := none
  encryptedFilename := none
  contentType := none
  sizeBytes := 22
  ttlSeconds := 60
  maxViews := 0

def sampleDraws : Draws := ⟨[], fun _ => some "job"⟩

/-- A text is created and opened. -/
theorem one_terminal_transition_text :
    ∃ (trace : List (Label × World)) (w : World),
      Run (Step (sampleConfig (secretEvent "job" "a" 1)) instantDay) (World.start 1) trace w ∧
      ((labels trace).flatMap fun label => (label.event "a").terminals) = [.opened] ∧
      ((labels trace).flatMap fun label => (label.event "a").terminals).length ≤ 1 := by
  have hrun : Run (Step (sampleConfig (secretEvent "job" "a" 1)) instantDay) (World.start 1) _ _ :=
    (Run.nil.snoc (.create 1 "a" [] sampleInput (Nat.le_refl _) ⟨by simp [World.start],
      by simp [World.start]⟩ rfl)).snoc
      (.opened 0 (Readings.still 1) sampleDraws none "a" "" rfl rfl)
  exact ⟨_, _, hrun, rfl, (one_terminal_transition hrun "a").1⟩

end Secrets
end FlickDrop
