import Mathlib.Algebra.BigOperators.Group.List.Basic
import Mathlib.Algebra.Order.Ring.Int
import FlickDrop.Secrets.Objects

/-!
# The gauge of pending uploads

Model of `telemetry.ActiveUploads`, which `main` seeds with `CountPendingUploads` and which
`CreateLarge`, `Finalize`, `Revoke` and the reaper change after they commit.  A commit and the
updates that follow it are separate steps, so that operations may overlap: an update is owed from
the commit on and is made at some later step.
-/

namespace FlickDrop
namespace Secrets

open Foundations Events

def SecretRow.isPendingUpload (row : SecretRow) : Bool := decide (row.state = .pendingUpload)

/-- `CountPendingUploads`. -/
def countPendingUploads (db : DB) : Nat := Table.affected SecretRow.isPendingUpload db.secrets

/-- The updates that follow a committed `Revoke`: it goes by the status it read last. -/
def revokeUpdates (cfg : Config) (now : Nat → Nat) (id token : String) (db : DB) : List Int :=
  match management cfg (now 0) id token db with
  | .error _ => []
  | .ok status =>
    if status.status = .recorded .cancelled then
      []
    else
      match management cfg (now 1) id token db with
      | .error _ => []
      | .ok status => if status.status = .pendingUpload then [-1] else []

/-- The updates behind the commit of `claimExpired`: one for each orphan of the batch. -/
def claimUpdates (batch : List SecretRow) : List Int :=
  (batch.filter SecretRow.isPendingUpload).map fun _ => -1

/-- A step that belongs to no upload. -/
def Label.uncounted : Label → Prop
  | .created row => row.state = .active
  | .activated _ | .cancelled _ | .reclaimed _ => False
  | .other | .opened .. | .refused _ | .locked _ => True

/-- The updates of the gauge that a step owes. -/
inductive Owes (cfg : Config) (julian : JulianDay) : World → Label → World → List Int → Prop
  | createLarge {w : World} {db : DB} {token upload : String} (now : Nat) (id : String)
      (raw : Bytes) (presign : Option String) (input : CreateLargeInput) (hnow : now ≤ w.clock)
      (hfresh : w.FreshID id)
      (hcreate : createLarge cfg now id raw presign input w.db = .ok (db, token, upload)) :
      Owes cfg julian w
        (.created ({ input with maxViews := defaultViews input.maxViews }.row id now))
        (w.issue id db) [1]
  | finalizeEnd {w : World} {id : String} {pending : Pending} {db : DB} (pid : Nat)
      (head : Option ObjectInfo) (hat : w.finalizing pid = some (id, pending))
      (hactivate : finalizeActivate w.clock id pending head w.db = .ok db) :
      Owes cfg julian w (.activated id) ((w.setDB w.clock db).setFinalizing pid none) [-1]
  | revoke {w : World} {db : DB} {status : ManagementStatus} {after : Nat}
      (readings : Readings w.clock after) (draws : Draws) (id token : String)
      (hrevoke : revoke cfg readings.now draws id token w.db = .commit db (.ok status)) :
      Owes cfg julian w (revokedLabel id w.db db) (w.setDB after db)
        (revokeUpdates cfg readings.now id token w.db)
  | claimExpired {w : World} {db : DB} {batch : List SecretRow} {after : Nat} (batchSize : Nat)
      (now : Nat → Nat) (draws : Draws)
      (purgeRequests : List OutboxRow → Except Unit (List OutboxRow)) (hclock : w.clock ≤ after)
      (hnow : ∀ i, now i ≤ after)
      (hforeign : ∀ rows rows', purgeRequests rows = .ok rows' →
        Foreign cfg.codec .secrets rows rows')
      (hclaim : claimExpired cfg julian batchSize now draws purgeRequests w.db = .ok (db, batch)) :
      Owes cfg julian w (.reclaimed (batch.map SecretRow.id)) (w.setDB after db)
        (claimUpdates batch)
  | other {w w' : World} {label : Label} (hstep : Step cfg julian w label w')
      (huncounted : label.uncounted) : Owes cfg julian w label w' []

/-- The service with the gauge of its one API process. -/
structure Metered where
  world : World
  gauge : Int
  /-- the updates of the operations that have committed and not made them yet -/
  owed : List Int

/-- The gauge at boot. -/
def Metered.seeded (w : World) : Metered := ⟨w, countPendingUploads w.db, []⟩

/-- A step of the service, or (`none`) an update of the gauge. -/
inductive MeteredStep (cfg : Config) (julian : JulianDay) :
    Metered → Option Label → Metered → Prop
  | act {m : Metered} {label : Label} {w' : World} {updates : List Int}
      (howes : Owes cfg julian m.world label w' updates) :
      MeteredStep cfg julian m (some label) ⟨w', m.gauge, m.owed ++ updates⟩
  | update {m : Metered} {front back : List Int} {d : Int} (hat : m.owed = front ++ d :: back) :
      MeteredStep cfg julian m none ⟨m.world, m.gauge + d, front ++ back⟩

/-- Operations one after the other: none starts while another has updates to make. -/
def MeteredStep.alone (cfg : Config) (julian : JulianDay) (m : Metered) (label : Option Label)
    (m' : Metered) : Prop :=
  MeteredStep cfg julian m label m' ∧ (label ≠ none → m.owed = [])

theorem Owes.step {cfg : Config} {julian : JulianDay} {w w' : World} {label : Label}
    {updates : List Int} (h : Owes cfg julian w label w' updates) : Step cfg julian w label w' := by
  cases h with
  | createLarge now id raw presign input hnow hfresh hcreate =>
    exact .createLarge now id raw presign input hnow hfresh hcreate
  | finalizeEnd pid head hat hactivate => exact .finalizeEnd pid head hat hactivate
  | revoke readings draws id token hrevoke => exact .revoke readings draws id token hrevoke
  | claimExpired batchSize now draws purgeRequests hclock hnow hforeign hclaim =>
    exact .claimExpired batchSize now draws purgeRequests hclock hnow hforeign hclaim
  | other hstep => exact hstep

/-! ### The pending uploads of a step -/

/-- The secrets whose row awaits its upload. -/
def World.pendingIDs (w : World) : Finset String :=
  Table.keysWhere SecretRow.id SecretRow.isPendingUpload w.db.secrets

section Pending

variable {cfg : Config} {julian : JulianDay} {w w' : World} {label : Label} {id token : String}
  {updates : List Int}

theorem Inv.mem_pendingIDs (hinv : Inv w) :
    id ∈ w.pendingIDs ↔ ∃ row, w.row id = some row ∧ row.state = .pendingUpload := by
  rw [World.pendingIDs, Table.mem_keysWhere hinv.unique]
  simp only [SecretRow.isPendingUpload, decide_eq_true_eq]
  rfl

theorem Inv.countPendingUploads_eq (hinv : Inv w) :
    countPendingUploads w.db = w.pendingIDs.card :=
  Table.affected_eq_card hinv.unique _

/-- The events that leave an upload pending, or never concern one. -/
def Event.keepsUpload : Event → Bool
  | .silent | .terminal .opened | .terminal .locked => true
  | .created | .activated | .terminal .cancelled | .terminal .reclaimed => false

/-- The events behind which no upload of the secret is pending. -/
def Event.endsUpload : Event → Bool
  | .activated | .terminal .cancelled | .terminal .reclaimed => true
  | .silent | .created | .terminal .opened | .terminal .locked => false

theorem RowStep.keepsUpload {clock after : Nat} {found found' : Option SecretRow} {event : Event}
    (h : RowStep julian clock after found event found')
    (hfound : ∀ row, found = some row → RowInv row) (hevent : event.keepsUpload = true) :
    (∃ row, found' = some row ∧ row.state = .pendingUpload) ↔
      ∃ row, found = some row ∧ row.state = .pendingUpload := by
  cases h with
  | kept => exact Iff.rfl
  | created | activated | cancelled | reclaimed => cases hevent
  | touched row now => simp [SecretRow.touch]
  | refused row now | locked row now => simp [SecretRow.countFailure]
  | opened row now => simp [SecretRow.consume]
  | purged row now hconsumed =>
    -- a consumed row is not pending
    have hnot : row.state ≠ .pendingUpload := by
      intro hpending
      rw [(hfound row rfl).pending hpending] at hconsumed
      cases hconsumed
    simp [hnot]

theorem RowStep.endsUpload {clock after : Nat} {found found' : Option SecretRow} {event : Event}
    (h : RowStep julian clock after found event found') (hevent : event.endsUpload = true) :
    ¬∃ row, found' = some row ∧ row.state = .pendingUpload := by
  cases h with
  | activated row now => simp [SecretRow.activate]
  | cancelled | reclaimed => simp
  | kept | touched | refused | purged | created | opened | locked => cases hevent

/-- The pending uploads behind a step. -/
def Label.pendingAfter (label : Label) (ids : Finset String) : Finset String :=
  match label with
  | .created row => if row.state = .pendingUpload then insert row.id ids else ids
  | .activated id | .cancelled id => ids.erase id
  | .reclaimed gone => ids.filter (· ∉ gone)
  | .other | .opened .. | .refused _ | .locked _ => ids

/-- **Step lemma.** -/
theorem Step.pendingIDs (hinv : Inv w) (hstep : Step cfg julian w label w') :
    w'.pendingIDs = label.pendingAfter w.pendingIDs := by
  have hadvance := hstep.advance hinv
  have hkeeps (id : String) (hevent : (label.event id).keepsUpload = true) :
      id ∈ w'.pendingIDs ↔ id ∈ w.pendingIDs := by
    rw [(hstep.inv hinv).mem_pendingIDs, hinv.mem_pendingIDs]
    exact (hadvance.rows id).keepsUpload (hinv.rows id) hevent
  have hends (id : String) (hevent : (label.event id).endsUpload = true) :
      id ∉ w'.pendingIDs := by
    rw [(hstep.inv hinv).mem_pendingIDs]
    exact (hadvance.rows id).endsUpload hevent
  have hother {other id : String} {event : Event} (hne : id ≠ other) :
      (eventAt other event id).keepsUpload = true := by
    rw [eventAt, if_neg hne]
    rfl
  ext id
  cases label with
  | other => exact hkeeps id rfl
  | refused other => exact hkeeps id rfl
  | opened other | locked other =>
    by_cases hid : id = other
    · exact hkeeps id (by simp [Label.event, eventAt, hid, Event.keepsUpload])
    · exact hkeeps id (hother hid)
  | activated other | cancelled other =>
    rw [Label.pendingAfter, Finset.mem_erase]
    by_cases hid : id = other
    · subst hid
      have hgone := hends id (by simp [Label.event, eventAt, Event.endsUpload])
      simp [hgone]
    · rw [hkeeps id (hother hid)]
      simp [hid]
  | reclaimed ids =>
    rw [Label.pendingAfter, Finset.mem_filter]
    by_cases hid : id ∈ ids
    · have hgone := hends id (by simp [Label.event, hid, Event.endsUpload])
      simp [hgone, hid]
    · rw [hkeeps id (by simp [Label.event, hid, Event.keepsUpload])]
      simp [hid]
  | created row =>
    have hthere := hstep.created_row hinv rfl
    have hmem : row.id ∈ w'.pendingIDs ↔ row.state = .pendingUpload := by
      rw [(hstep.inv hinv).mem_pendingIDs, hthere]
      simp
    have hnone : row.id ∉ w.pendingIDs := by
      rw [hinv.mem_pendingIDs]
      rintro ⟨old, hold, -⟩
      exact (hadvance.fresh row.id (by simp [Label.event, eventAt])).1 (hinv.issued _ _ hold)
    unfold Label.pendingAfter
    by_cases hid : id = row.id
    · subst hid
      by_cases hpending : row.state = .pendingUpload <;> simp [hmem, hpending, hnone]
    · rw [hkeeps id (hother hid)]
      by_cases hpending : row.state = .pendingUpload <;> simp [hpending, hid]

/-! ### What each operation owes -/

/-- A delivery that can be cancelled has the status of its row. -/
theorem management_canCancel {now : Nat} {db : DB} {status : ManagementStatus} {row : SecretRow}
    (h : management cfg now id token db = .ok status) (hcancel : status.canCancel = true)
    (hfound : Table.lookup SecretRow.id id db.secrets = some row) :
    status.status = .pendingUpload ↔ row.state = .pendingUpload := by
  obtain ⟨m, live, -, -, hlive, rfl⟩ := management_ok h
  rw [hfound] at hlive
  unfold liveStatus at hlive
  split at hlive
  · cases hlive
    cases hcancel
  dsimp only at hlive
  split at hlive
  · rename_i hstate
    cases hlive
    simp [hstate]
  · rename_i hstate
    split at hlive
    · cases hlive
      cases hcancel
    · cases hlive
      simp [hstate]

/-- What a committed revocation read, and what it owes. -/
theorem revoke_updates {now : Nat → Nat} {draws : Draws} {db db' : DB}
    {answer : Except Err ManagementStatus} (hunique : Table.UniqueKey SecretRow.id db.secrets)
    (h : revoke cfg now draws id token db = .commit db' answer) :
    revokedLabel id db db' = .other ∧ revokeUpdates cfg now id token db = [] ∨
      revokedLabel id db db' = .cancelled id ∧
        ∃ row, Table.lookup SecretRow.id id db.secrets = some row ∧
          revokeUpdates cfg now id token db =
            if row.state = .pendingUpload then [-1] else [] := by
  obtain ⟨first, hfirst, ⟨hcancelled, rfl⟩ |
    ⟨hcancelled, row, second, hfound, hsecond, hcancel, haffected, henqueue⟩⟩ := revoke_cases h
  · refine Or.inl ⟨revokedLabel_self id _, ?_⟩
    rw [revokeUpdates, hfirst]
    exact if_pos hcancelled
  · refine Or.inr ⟨?_, row, hfound, ?_⟩
    · -- the row that the delete counted is gone
      obtain ⟨row', hfound', hguard⟩ := Table.lookup_of_affected hunique (fun _ => cancellable_id)
        (by rw [haffected]; decide)
      have hgone : Table.lookup SecretRow.id id db'.secrets = none := by
        rw [(enqueueCancellation_ok henqueue).1]
        show Table.lookup SecretRow.id id (Table.delete _ db.secrets) = none
        rw [Table.lookup_delete hunique, hfound']
        simp [Option.filter, hguard]
      simp [revokedLabel, hfound, hgone]
    · have hstatus := management_canCancel hsecond hcancel hfound
      rw [revokeUpdates, hfirst]
      dsimp only
      rw [if_neg hcancelled, hsecond]
      dsimp only
      simp only [hstatus]

theorem claimReclaimable_nodup {pendingTTL now limit : Nat} {rows : List SecretRow}
    (hunique : Table.UniqueKey SecretRow.id rows) :
    ((claimReclaimable pendingTTL now limit rows).1.map SecretRow.id).Nodup := by
  unfold claimReclaimable
  refine List.Nodup.sublist ((List.take_sublist _ _).map _) ?_
  rw [((List.mergeSort_perm _ _).map _).nodup_iff]
  exact List.Nodup.sublist (List.filter_sublist.map _) hunique

/-- The orphans of a batch are its pending uploads. -/
theorem card_reclaimed (hinv : Inv w) {pendingTTL now limit : Nat} :
    (w.pendingIDs.filter
        (· ∈ (claimReclaimable pendingTTL now limit w.db.secrets).1.map SecretRow.id)).card =
      ((claimReclaimable pendingTTL now limit w.db.secrets).1.filter
        SecretRow.isPendingUpload).length := by
  have hnodup := @claimReclaimable_nodup pendingTTL now limit _ hinv.unique
  generalize hbatch : (claimReclaimable pendingTTL now limit w.db.secrets).1 = batch at hnodup ⊢
  have hthere : ∀ row ∈ batch, w.row row.id = some row := by
    intro row hrow
    exact Table.lookup_of_mem hinv.unique (mem_claimReclaimable (hbatch ▸ hrow)).1
  have hset : w.pendingIDs.filter (· ∈ batch.map SecretRow.id) =
      ((batch.filter SecretRow.isPendingUpload).map SecretRow.id).toFinset := by
    ext id
    simp only [Finset.mem_filter, hinv.mem_pendingIDs, List.mem_toFinset, List.mem_map,
      List.mem_filter, SecretRow.isPendingUpload, decide_eq_true_eq]
    constructor
    · rintro ⟨⟨row, hrow, hpending⟩, row', hrow', rfl⟩
      rw [hthere row' hrow'] at hrow
      cases hrow
      exact ⟨row, ⟨hrow', hpending⟩, rfl⟩
    · rintro ⟨row, ⟨hrow, hpending⟩, rfl⟩
      exact ⟨⟨row, hthere row hrow, hpending⟩, row, hrow, rfl⟩
  rw [hset, List.toFinset_card_of_nodup, List.length_map]
  exact List.Nodup.sublist (List.filter_sublist.map _) hnodup

theorem sum_claimUpdates (batch : List SecretRow) :
    (claimUpdates batch).sum = -((batch.filter SecretRow.isPendingUpload).length : Int) := by
  rw [claimUpdates, List.map_const', List.sum_replicate]
  simp

/-- **Balance.**  What a step owes is what it changes. -/
theorem Owes.balance (hinv : Inv w) (h : Owes cfg julian w label w' updates) :
    (countPendingUploads w'.db : Int) = countPendingUploads w.db + updates.sum := by
  have hpending := h.step.pendingIDs hinv
  rw [(h.step.inv hinv).countPendingUploads_eq, hinv.countPendingUploads_eq, hpending]
  cases h with
  | createLarge now id raw presign input hnow hfresh hcreate =>
    have hnew : id ∉ w.pendingIDs := by
      rw [hinv.mem_pendingIDs]
      rintro ⟨row, hrow, -⟩
      exact hfresh.1 (hinv.issued id row hrow)
    have hafter : Label.pendingAfter
        (.created ({ input with maxViews := defaultViews input.maxViews }.row id now))
        w.pendingIDs = insert id w.pendingIDs := by
      simp [Label.pendingAfter, CreateLargeInput.row]
    rw [hafter, Finset.card_insert_of_notMem hnew]
    simp
  | finalizeEnd pid head hat hactivate =>
    obtain ⟨-, ⟨row, hrow, hstate⟩, -⟩ :=
      @finalizeActivate_effect cfg julian 0 0 _ _ _ _ _ _ hinv.unique hactivate
    have hmem := hinv.mem_pendingIDs.mpr ⟨row, hrow, hstate⟩
    have hpos := Finset.card_pos.mpr ⟨_, hmem⟩
    rw [Label.pendingAfter, Finset.card_erase_of_mem hmem]
    simp
    omega
  | revoke readings draws id token hrevoke =>
    rcases revoke_updates hinv.unique hrevoke with ⟨hlabel, hnone⟩ | ⟨hlabel, row, hrow, hsome⟩
    · rw [hlabel, hnone]
      simp [Label.pendingAfter]
    · rw [hlabel, hsome, Label.pendingAfter]
      by_cases hstate : row.state = .pendingUpload
      · have hmem := hinv.mem_pendingIDs.mpr ⟨row, hrow, hstate⟩
        have hpos := Finset.card_pos.mpr ⟨_, hmem⟩
        rw [if_pos hstate, Finset.card_erase_of_mem hmem]
        simp
        omega
      · have hnot : id ∉ w.pendingIDs := by
          rw [hinv.mem_pendingIDs]
          rintro ⟨row', hrow', hstate'⟩
          have hsame : some row = some row' := hrow.symm.trans hrow'
          cases hsame
          exact hstate hstate'
        rw [if_neg hstate, Finset.erase_eq_of_notMem hnot]
        simp
  | claimExpired batchSize now draws purgeRequests hclock hnow hforeign hclaim =>
    obtain ⟨rfl, -⟩ := claimExpired_cases hclaim
    have hsplit := @Finset.card_filter_add_card_filter_not _ w.pendingIDs
      (fun id => id ∈ (claimReclaimable cfg.pendingTTL (now 0) batchSize w.db.secrets).1.map
        SecretRow.id) _ _
    rw [card_reclaimed hinv] at hsplit
    rw [sum_claimUpdates, Label.pendingAfter]
    omega
  | other hstep huncounted =>
    cases label with
    | created row =>
      have hactive : row.state = .active := huncounted
      simp [Label.pendingAfter, hactive]
    | activated | cancelled | reclaimed => exact absurd huncounted not_false
    | other | opened | refused | locked => simp [Label.pendingAfter]

/-- A step owes one increment, or decrements only. -/
theorem Owes.updates_cases (h : Owes cfg julian w label w' updates) :
    updates = [1] ∨ ∀ d ∈ updates, d = -1 := by
  cases h with
  | createLarge => exact Or.inl rfl
  | finalizeEnd => exact Or.inr (by simp)
  | revoke readings draws id token hrevoke =>
    refine Or.inr ?_
    unfold revokeUpdates
    grind
  | claimExpired =>
    refine Or.inr ?_
    intro d hd
    obtain ⟨row, -, rfl⟩ := List.mem_map.mp hd
    rfl
  | other => exact Or.inr (by simp)

end Pending

/-! ### Runs -/

section Runs

variable {cfg : Config} {julian : JulianDay} {m m' : Metered} {label : Option Label}

/-- The gauge and the owed updates make up the pending uploads. -/
structure Metered.Balanced (m : Metered) : Prop where
  inv : Inv m.world
  balance : m.gauge + m.owed.sum = countPendingUploads m.world.db
  unit : ∀ d ∈ m.owed, d = 1 ∨ d = -1

theorem MeteredStep.balanced (h : m.Balanced) (hstep : MeteredStep cfg julian m label m') :
    m'.Balanced := by
  cases hstep with
  | act howes =>
    refine ⟨howes.step.inv h.inv, ?_, ?_⟩
    · rw [howes.balance h.inv, List.sum_append, ← h.balance]
      exact (add_assoc _ _ _).symm
    · intro d hd
      rcases List.mem_append.mp hd with hd | hd
      · exact h.unit d hd
      · rcases howes.updates_cases with rfl | hdown
        · exact Or.inl (List.mem_singleton.mp hd)
        · exact Or.inr (hdown d hd)
  | update hat =>
    refine ⟨h.inv, ?_, ?_⟩
    · have hbalance := h.balance
      rw [hat] at hbalance
      simp only [List.sum_append, List.sum_cons] at hbalance ⊢
      omega
    · intro d hd
      refine h.unit d ?_
      rw [hat]
      rcases List.mem_append.mp hd with hd | hd
      · exact List.mem_append_left _ hd
      · exact List.mem_append_right _ (List.mem_cons_of_mem _ hd)

/-- Between operations at most one increment is owed, by an upload that is still pending. -/
def Metered.Settling (m : Metered) : Prop :=
  (m.owed = [1] ∧ 0 < countPendingUploads m.world.db) ∨ ∀ d ∈ m.owed, d = -1

theorem MeteredStep.alone_settling (h : m.Balanced) (hsettling : m.Settling)
    (hstep : MeteredStep.alone cfg julian m label m') : m'.Settling := by
  obtain ⟨hstep, halone⟩ := hstep
  cases hstep with
  | act howes =>
    have hquiet := halone (by simp)
    rw [Metered.Settling, hquiet, List.nil_append]
    rcases howes.updates_cases with rfl | hdown
    · have hgrown := howes.balance h.inv
      refine Or.inl ⟨rfl, ?_⟩
      simp only [List.sum_cons, List.sum_nil] at hgrown
      dsimp only
      omega
    · exact Or.inr hdown
  | update hat =>
    rename_i front back d
    rcases hsettling with ⟨hone, -⟩ | hdown
    · -- the one update that was owed is made
      have hlength := congrArg List.length (hat.symm.trans hone)
      simp only [List.length_append, List.length_cons, List.length_nil] at hlength
      have hfront : front = [] := List.length_eq_zero_iff.mp (by omega)
      have hback : back = [] := List.length_eq_zero_iff.mp (by omega)
      exact Or.inr (by simp [hfront, hback])
    · refine Or.inr fun e he => hdown e ?_
      rw [hat]
      rcases List.mem_append.mp he with he | he
      · exact List.mem_append_left _ he
      · exact List.mem_append_right _ (List.mem_cons_of_mem _ he)

theorem sum_nonpos_of_down {owed : List Int} (h : ∀ d ∈ owed, d = -1) : owed.sum ≤ 0 := by
  rw [List.eq_replicate_of_mem h, List.sum_replicate]
  simp

theorem Metered.Balanced.nonneg_of_down (h : m.Balanced) (hdown : ∀ d ∈ m.owed, d = -1) :
    0 ≤ m.gauge := by
  have hsum := sum_nonpos_of_down hdown
  have hbalance := h.balance
  omega

theorem Metered.Balanced.nonneg (h : m.Balanced) (hsettling : m.Settling) : 0 ≤ m.gauge := by
  rcases hsettling with ⟨hone, hpos⟩ | hdown
  · have hbalance := h.balance
    rw [hone] at hbalance
    simp only [List.sum_cons, List.sum_nil] at hbalance
    omega
  · exact h.nonneg_of_down hdown

end Runs

/-- **Pending-upload accounting.**  From a seeded gauge, in every interleaving of the service's
operations: when no operation has updates to make, the gauge is the number of rows in state
`pending_upload`; and it is not negative unless an upload that has just been created is still to
be counted.  When operations follow one another it is never negative at all. -/
theorem activeUploads_balanced {cfg : Config} {julian : JulianDay} {clock : Nat}
    {history : List (Label × World)} {w₀ : World} {trace : List (Option Label × Metered)}
    {m : Metered} (hreach : Run (Step cfg julian) (World.start clock) history w₀)
    (hrun : Run (MeteredStep cfg julian) (Metered.seeded w₀) trace m) :
    (m.owed = [] → m.gauge = countPendingUploads m.world.db) ∧ (1 ∉ m.owed → 0 ≤ m.gauge) ∧
      (Run (MeteredStep.alone cfg julian) (Metered.seeded w₀) trace m → 0 ≤ m.gauge) := by
  have hstart : (Metered.seeded w₀).Balanced :=
    ⟨inv_of_run hreach, by simp [Metered.seeded], by simp [Metered.seeded]⟩
  have hbalanced : m.Balanced :=
    Run.invariant Metered.Balanced hstart (fun _ _ _ h hstep => hstep.balanced h) hrun
  refine ⟨?_, ?_, ?_⟩
  · intro hquiet
    have hbalance := hbalanced.balance
    rwa [hquiet, List.sum_nil, add_zero] at hbalance
  · intro hcounted
    refine hbalanced.nonneg_of_down fun d hd => (hbalanced.unit d hd).resolve_left ?_
    rintro rfl
    exact hcounted hd
  · intro halone
    have hboth : m.Balanced ∧ m.Settling := by
      refine Run.invariant (fun m => m.Balanced ∧ m.Settling)
        ⟨hstart, Or.inr (by simp [Metered.seeded])⟩ ?_ halone
      intro _ _ _ h hstep
      exact ⟨hstep.1.balanced h.1, MeteredStep.alone_settling h.1 h.2 hstep⟩
    exact hboth.1.nonneg hboth.2

/-- An upload is created and counted. -/
theorem activeUploads_balanced_upload :
    ∃ (trace : List (Option Label × Metered)) (m : Metered),
      Run (MeteredStep.alone (sampleConfig (secretEvent "job" "a" 1)) instantDay)
        (Metered.seeded (World.start 1)) trace m ∧
      m.owed = [] ∧ countPendingUploads m.world.db = 1 ∧
      m.gauge = countPendingUploads m.world.db ∧ 0 ≤ m.gauge := by
  have hrun : Run (MeteredStep.alone (sampleConfig (secretEvent "job" "a" 1)) instantDay)
      (Metered.seeded (World.start 1)) _ _ :=
    (Run.nil.snoc ⟨.act (.createLarge 1 "a" sampleToken (some "url") sampleUpload (Nat.le_refl _)
        ⟨by simp [Metered.seeded, World.start], by simp [Metered.seeded, World.start]⟩ rfl),
          fun _ => rfl⟩).snoc
      ⟨@MeteredStep.update _ _ _ [] [] 1 rfl, fun h => absurd rfl h⟩
  have hbalanced := activeUploads_balanced Run.nil (hrun.mono fun _ _ _ h => h.1)
  exact ⟨_, _, hrun, rfl, rfl, hbalanced.1 rfl, hbalanced.2.2 hrun⟩

end Secrets
end FlickDrop
