import FlickDrop.Secrets.Life
import FlickDrop.Secrets.Reaper

/-!
# What the transactions do to one row

Every transaction of the service acts on the row of each secret in one of a few ways
(`RowStep`), and the object jobs it enqueues belong to rows it ends.  `Effect` says so for
a whole transaction; the theorems below establish it for each of them, and nothing
later looks into a transaction again.
-/

namespace FlickDrop
namespace Secrets

open Foundations Events

/-- What a transaction between the instants `clock` and `after` may do to the row of one
secret. -/
inductive RowStep (julian : JulianDay) (clock after : Nat) :
    Option SecretRow → Event → Option SecretRow → Prop
  | kept (found : Option SecretRow) : RowStep julian clock after found .silent found
  | touched (row : SecretRow) (now : Nat) :
      RowStep julian clock after (some row) .silent (some (row.touch now))
  | refused (row : SecretRow) (now : Nat) (hactive : row.state = .active)
      (hunconsumed : row.consumedAt = none)
      (hfew : row.failedAccessCount + 1 < maxFailedAccessAttempts) :
      RowStep julian clock after (some row) .silent (some (row.countFailure now))
  | purged (row : SecretRow) (now : Nat) (hconsumed : row.consumedAt.isSome)
      (hquiet : row.streaming julian now = false) (hnow : now ≤ after) :
      RowStep julian clock after (some row) .silent none
  | created (row : SecretRow) (hunconsumed : row.consumedAt = none)
      (hunclaimed : row.reclaimEnqueuedAt = none)
      (hproof : ∀ access, row.access = some access → access.proofHash ≠ "")
      (hkey : row.storageBackend = .s3Object → row.storageKey = Area.secrets.root ++ row.id)
      (hupload : row.state = .pendingUpload → row.storageBackend = .s3Object) :
      RowStep julian clock after none .created (some row)
  | activated (row : SecretRow) (now : Nat) (hpending : row.state = .pendingUpload) :
      RowStep julian clock after (some row) .activated (some (row.activate now))
  | opened (row : SecretRow) (now : Nat) (hactive : row.state = .active)
      (hunconsumed : row.consumedAt = none) (hclock : clock ≤ now) (hearly : now < row.expiresAt) :
      RowStep julian clock after (some row) (.terminal .opened) (some (row.consume now))
  | locked (row : SecretRow) (now : Nat) (hactive : row.state = .active)
      (hunconsumed : row.consumedAt = none)
      (hmany : maxFailedAccessAttempts ≤ row.failedAccessCount + 1) :
      RowStep julian clock after (some row) (.terminal .locked) (some (row.countFailure now))
  | cancelled (row : SecretRow) (hunconsumed : row.consumedAt = none) :
      RowStep julian clock after (some row) (.terminal .cancelled) none
  | reclaimed (row : SecretRow) (hunconsumed : row.consumedAt = none) :
      RowStep julian clock after (some row) (.terminal .reclaimed) none

/-- The event `event` for secret `id` and nothing for the others. -/
def eventAt (id : String) (event : Event) : String → Event :=
  fun other => if other = id then event else .silent

/-- What a whole transaction does: to every row, and to the object jobs of the area.  The
last part names the ends that delete the object themselves; an open leaves that to the
stream's own cleanup. -/
structure Effect (cfg : Config) (julian : JulianDay) (clock after : Nat) (db : DB)
    (event : String → Event) (db' : DB) : Prop where
  rows : ∀ id, RowStep julian clock after (Table.lookup SecretRow.id id db.secrets) (event id)
    (Table.lookup SecretRow.id id db'.secrets)
  unique : Table.UniqueKey SecretRow.id db'.secrets
  jobs : ∀ key, Area.secrets.owns key = true → Scheduled cfg.codec db'.outbox key →
    Scheduled cfg.codec db.outbox key ∨
    ∃ id row, Table.lookup SecretRow.id id db.secrets = some row ∧
      row.storageBackend = .s3Object ∧ row.storageKey = key ∧
      (event id = .terminal .locked ∨ event id = .terminal .cancelled ∨
        event id = .terminal .reclaimed)

section

variable {julian : JulianDay} {clock after : Nat} {rows : List SecretRow} {id : String}
  {row : SecretRow} {event : Event} {cond : SecretRow → Bool}

theorem RowStep.of_none {found : Option SecretRow}
    (h : RowStep julian clock after none .silent found) : found = none := by
  cases h
  rfl

/-- An update of one row. -/
theorem rowStep_update {change : SecretRow → SecretRow} (hid : ∀ row, (change row).id = row.id)
    (hpin : ∀ row, cond row = true → row.id = id)
    (hfound : Table.lookup SecretRow.id id rows = some row) (hcond : cond row = true)
    (hstep : RowStep julian clock after (some row) event (some (change row))) (other : String) :
    RowStep julian clock after (Table.lookup SecretRow.id other rows) (eventAt id event other)
      (Table.lookup SecretRow.id other (Table.update cond change rows)) := by
  by_cases heq : other = id
  · subst heq
    rw [Table.lookup_update hid, hfound, eventAt, if_pos rfl, Option.map_some, if_pos hcond]
    exact hstep
  · rw [Table.lookup_update_other hid hpin heq, eventAt, if_neg heq]
    exact RowStep.kept _

/-- A delete of one row. -/
theorem rowStep_delete (hunique : Table.UniqueKey SecretRow.id rows)
    (hpin : ∀ row, cond row = true → row.id = id)
    (hfound : Table.lookup SecretRow.id id rows = some row) (hcond : cond row = true)
    (hstep : RowStep julian clock after (some row) event none) (other : String) :
    RowStep julian clock after (Table.lookup SecretRow.id other rows) (eventAt id event other)
      (Table.lookup SecretRow.id other (Table.delete cond rows)) := by
  rw [Table.lookup_delete hunique]
  by_cases heq : other = id
  · subst heq
    rw [hfound, eventAt, if_pos rfl]
    simpa [Option.filter, hcond] using hstep
  · rw [eventAt, if_neg heq]
    cases hother : Table.lookup SecretRow.id other rows with
    | none => exact RowStep.kept none
    | some found =>
      have hnot : cond found = false := by
        by_contra hcontra
        rw [Bool.not_eq_false] at hcontra
        exact heq ((Table.lookup_key hother).symm.trans (hpin found hcontra))
      simpa [Option.filter, hnot] using RowStep.kept (some found)

end

/-! ### Object jobs -/

section

variable {cfg : Config} {draws : Draws} {object : Option (Bytes × Int)}
  {id accessProofHash key enqueueText drawText : String} {row : SecretRow} {db db' : DB}
  {answer : Except Err Secret} {enqueueNow now i : Nat} {secret : Secret} {reason : Reason}

theorem enqueueObject_ok
    (h : enqueueObject cfg draws i enqueueNow key reason now drawText enqueueText db = .ok db') :
    ∃ jobID outbox, enqueueTx cfg.codec cfg.subject draws.carrier enqueueNow
        (objectEvent jobID key reason now) db.outbox = .ok outbox ∧
      db' = { db with outbox := outbox } := by
  unfold enqueueObject at h
  split at h
  · cases h
  rename_i jobID _
  split at h
  · cases h
  rename_i outbox henqueue
  cases h
  exact ⟨jobID, outbox, henqueue, rfl⟩

theorem scheduled_enqueueObject
    (h : enqueueObject cfg draws i enqueueNow key reason now drawText enqueueText db = .ok db') :
    db'.secrets = db.secrets ∧ db'.management = db.management ∧
      ∀ other, Scheduled cfg.codec db'.outbox other →
        Scheduled cfg.codec db.outbox other ∨ key = other := by
  obtain ⟨jobID, outbox, henqueue, rfl⟩ := enqueueObject_ok h
  refine ⟨rfl, rfl, fun other hscheduled => ?_⟩
  rcases scheduled_enqueueTx henqueue hscheduled with hold | ⟨-, hkey⟩
  · exact Or.inl hold
  · exact Or.inr hkey

/-! ### Open -/

/-- What `load` found. -/
structure Loaded (id : String) (rows : List SecretRow) (secret : Secret) (row : SecretRow) :
    Prop where
  found : Table.lookup SecretRow.id id rows = some row
  active : row.state = .active
  access : secret.access = row.access
  backend : secret.storageBackend = row.storageBackend
  key : secret.storageKey = row.storageKey
  expiresAt : secret.expiresAt = row.expiresAt

theorem load_ok {consumedAt : Option Nat} (hunique : Table.UniqueKey SecretRow.id db.secrets)
    (h : load id db = .ok (secret, consumedAt)) :
    ∃ row, Loaded id db.secrets secret row ∧ row.consumedAt = consumedAt := by
  unfold load at h
  split at h
  · cases h
  split at h
  · cases h
  rename_i row hfind
  dsimp only at h
  split at h
  · cases h
  cases h
  have hguard := List.find?_some hfind
  simp only [Bool.and_eq_true, decide_eq_true_eq] at hguard
  have hfound := Table.lookup_of_mem hunique (List.mem_of_find?_eq_some hfind)
  rw [hguard.1] at hfound
  exact ⟨row, ⟨hfound, hguard.2, rfl, rfl, rfl, rfl⟩, rfl⟩

theorem openBody_ok {secret' : Secret} (h : openBody cfg object secret = .ok secret') :
    secret'.access = secret.access ∧ secret'.storageBackend = secret.storageBackend ∧
      secret'.storageKey = secret.storageKey ∧ secret'.expiresAt = secret.expiresAt := by
  unfold openBody at h
  split at h
  · cases h
    exact ⟨rfl, rfl, rfl, rfl⟩
  · split at h
    · cases h
    split at h
    · cases h
    split at h
    · cases h
    cases h
    exact ⟨rfl, rfl, rfl, rfl⟩

/-- An open that committed and returned the secret. -/
structure Opened (cfg : Config) (now : Nat → Nat) (id accessProofHash : String) (db db' : DB)
    (secret : Secret) (row : SecretRow) : Prop where
  loaded : Loaded id db.secrets secret row
  unconsumed : row.consumedAt = none
  proof : secret.accessProofHash = "" ∨ secret.accessProofHash = accessProofHash
  early : now 1 < row.expiresAt
  secrets : db'.secrets =
    Table.update (SecretRow.unconsumed id) (SecretRow.consume (now 1)) db.secrets
  management : db'.management = recordManagementOutcomeTx id .opened db.management
  jobs : ∀ key, Scheduled cfg.codec db'.outbox key → Scheduled cfg.codec db.outbox key

/-- The payload of a locked secret is gone, or a job deletes it. -/
def Purged (cfg : Config) (id : String) (row : SecretRow) (db db' : DB) : Prop :=
  if row.storageBackend = .s3Object then
    cfg.outbox = true → Enqueued cfg.codec db.outbox db'.outbox row.storageKey
  else
    db'.payloads = Table.delete (fun p => decide (p.secretID = id)) db.payloads

/-- An open that committed a refused proof. -/
structure Refused (cfg : Config) (now : Nat → Nat) (id : String) (db db' : DB) (row : SecretRow) :
    Prop where
  found : Table.lookup SecretRow.id id db.secrets = some row
  active : row.state = .active
  unconsumed : row.consumedAt = none
  early : now 0 < row.expiresAt
  secrets : db'.secrets =
    Table.update (SecretRow.unconsumed id) (SecretRow.countFailure (now 0)) db.secrets
  management : db'.management =
    if maxFailedAccessAttempts ≤ row.failedAccessCount + 1 then
      recordManagementOutcomeTx id .locked db.management
    else db.management
  purged : maxFailedAccessAttempts ≤ row.failedAccessCount + 1 → Purged cfg id row db db'
  jobs : ∀ key, Scheduled cfg.codec db'.outbox key → Scheduled cfg.codec db.outbox key ∨
    row.storageBackend = .s3Object ∧ row.storageKey = key ∧
      maxFailedAccessAttempts ≤ row.failedAccessCount + 1

theorem consumeTx_ok (h : consumeTx now id db = .ok db') :
    db'.secrets = Table.update (SecretRow.unconsumed id) (SecretRow.consume now) db.secrets ∧
      db'.outbox = db.outbox ∧
      db'.management = recordManagementOutcomeTx id .opened db.management := by
  unfold consumeTx at h
  split at h
  · cases h
  cases h
  exact ⟨rfl, rfl, rfl⟩

theorem purgeLocked_ok
    (h : purgeLocked cfg draws enqueueNow id row.storageBackend row.storageKey now db = .ok db') :
    db'.secrets = db.secrets ∧ db'.management = db.management ∧ Purged cfg id row db db' ∧
      ∀ other, Scheduled cfg.codec db'.outbox other → Scheduled cfg.codec db.outbox other ∨
        row.storageBackend = .s3Object ∧ row.storageKey = other := by
  unfold purgeLocked at h
  split at h
  · rename_i hbackend
    cases h
    refine ⟨rfl, rfl, ?_, fun _ => Or.inl⟩
    rw [Purged, if_neg hbackend]
  · rename_i hbackend
    have hobject : row.storageBackend = .s3Object := not_not.mp hbackend
    split at h
    · obtain ⟨hsecrets, hmanagement, hjobs⟩ := scheduled_enqueueObject h
      obtain ⟨jobID, outbox, henqueue, rfl⟩ := enqueueObject_ok h
      refine ⟨hsecrets, hmanagement, ?_, fun other hs => (hjobs other hs).imp_right ?_⟩
      · rw [Purged, if_pos hobject]
        exact fun _ => (enqueued_enqueueTx henqueue rfl).2
      · exact fun hkey => ⟨hobject, hkey⟩
    · rename_i houtbox
      cases h
      refine ⟨rfl, rfl, ?_, fun _ => Or.inl⟩
      rw [Purged, if_pos hobject]
      exact fun htrue => absurd htrue houtbox

theorem recordFailedAccessTx_ok {now : Nat → Nat}
    (hfound : Table.lookup SecretRow.id id db.secrets = some row) (hactive : row.state = .active)
    (hunconsumed : row.consumedAt = none) (hearly : now 0 < row.expiresAt)
    (h : recordFailedAccessTx cfg draws enqueueNow id row.storageBackend row.storageKey (now 0) db =
      .ok db') : Refused cfg now id db db' row := by
  have hguard : SecretRow.unconsumed id row = true := by
    simp [SecretRow.unconsumed, Table.lookup_key hfound, hunconsumed]
  have hid : ∀ row, (SecretRow.countFailure (now 0) row).id = row.id := fun _ => rfl
  unfold recordFailedAccessTx at h
  split at h
  · cases h
  dsimp only at h
  rw [Table.lookup_update hid, hfound, Option.map_some, if_pos hguard] at h
  dsimp only [SecretRow.countFailure] at h
  by_cases hmany : maxFailedAccessAttempts ≤ row.failedAccessCount + 1
  · rw [if_pos ⟨hmany, by rw [if_pos hmany]; rfl⟩] at h
    obtain ⟨hsecrets, hmanagement, hpurged, hjobs⟩ := purgeLocked_ok h
    exact {
      found := hfound
      active := hactive
      unconsumed := hunconsumed
      early := hearly
      secrets := hsecrets
      management := by rw [if_pos hmany, hmanagement]
      purged := fun _ => hpurged
      jobs := fun other hs => (hjobs other hs).imp_right fun hjob => ⟨hjob.1, hjob.2, hmany⟩ }
  · rw [if_neg fun hlock => hmany hlock.1] at h
    cases h
    exact {
      found := hfound
      active := hactive
      unconsumed := hunconsumed
      early := hearly
      secrets := rfl
      management := by rw [if_neg hmany]
      purged := fun hlock => absurd hlock hmany
      jobs := fun _ => Or.inl }

/-! No step of `OpenTx` but its own check answers `invalidAccess`. -/

theorem load_ne_invalidAccess : load id db ≠ .error .invalidAccess := by
  unfold load
  grind

theorem openBody_ne_invalidAccess : openBody cfg object secret ≠ .error .invalidAccess := by
  unfold openBody
  grind

theorem recordFailedAccessTx_ne_invalidAccess {backend : Backend} :
    recordFailedAccessTx cfg draws enqueueNow id backend key now db ≠ .error .invalidAccess := by
  unfold recordFailedAccessTx purgeLocked enqueueObject
  grind

theorem consumeTx_ne_invalidAccess : consumeTx now id db ≠ .error .invalidAccess := by
  unfold consumeTx
  grind

/-- The results of `OpenTx` that its caller commits. -/
theorem openTx_cases {now : Nat → Nat} (hunique : Table.UniqueKey SecretRow.id db.secrets)
    (h : openTx cfg now draws object id accessProofHash db = (db', answer)) :
    (∃ err, answer = .error err ∧ err ≠ .invalidAccess) ∨
      (∃ secret row, answer = .ok secret ∧ Opened cfg now id accessProofHash db db' secret row) ∨
      ∃ row, answer = .error .invalidAccess ∧ Refused cfg now id db db' row := by
  unfold openTx at h
  split at h
  · rename_i err hload
    cases h
    exact Or.inl ⟨err, rfl, fun heq => load_ne_invalidAccess (heq ▸ hload)⟩
  · rename_i secret consumedAt hload
    obtain ⟨row, hloaded, hconsumedAt⟩ := load_ok hunique hload
    split at h
    · cases h
      exact Or.inl ⟨_, rfl, by simp⟩
    · rename_i hunconsumed
      have hnone : row.consumedAt = none := by
        rw [hconsumedAt]
        simpa using hunconsumed
      split at h
      · cases h
        exact Or.inl ⟨_, rfl, by simp⟩
      · rename_i hearly
        split at h
        · -- the proof does not match
          split at h
          · rename_i err hrecord
            cases h
            exact Or.inl ⟨err, rfl,
              fun heq => recordFailedAccessTx_ne_invalidAccess (heq ▸ hrecord)⟩
          · rename_i recorded hrecord
            cases h
            rw [hloaded.backend, hloaded.key] at hrecord
            refine Or.inr (Or.inr ⟨row, rfl, ?_⟩)
            exact recordFailedAccessTx_ok hloaded.found hloaded.active hnone
              (hloaded.expiresAt ▸ Nat.lt_of_not_le hearly) hrecord
        · rename_i hproof
          split at h
          · rename_i err hbody
            cases h
            exact Or.inl ⟨err, rfl, fun heq => openBody_ne_invalidAccess (heq ▸ hbody)⟩
          · rename_i opened hbody
            obtain ⟨haccess, hbackend, hkey, hexpires⟩ := openBody_ok hbody
            split at h
            · cases h
              exact Or.inl ⟨_, rfl, by simp⟩
            · rename_i hstill
              split at h
              · rename_i err hconsume
                cases h
                exact Or.inl ⟨err, rfl, fun heq => consumeTx_ne_invalidAccess (heq ▸ hconsume)⟩
              · rename_i consumed hconsume
                cases h
                obtain ⟨hsecrets, houtbox, hmanagement⟩ := consumeTx_ok hconsume
                refine Or.inr (Or.inl ⟨opened, row, rfl, ?_⟩)
                have hsame : opened.accessProofHash = secret.accessProofHash := by
                  rw [Secret.accessProofHash, Secret.accessProofHash, haccess]
                exact {
                  loaded := ⟨hloaded.found, hloaded.active, haccess.trans hloaded.access,
                    hbackend.trans hloaded.backend, hkey.trans hloaded.key,
                    hexpires.trans hloaded.expiresAt⟩
                  unconsumed := hnone
                  proof := by
                    rw [hsame]
                    by_cases hempty : secret.accessProofHash = ""
                    · exact Or.inl hempty
                    · exact Or.inr (not_not.mp fun hne => hproof ⟨hempty, hne⟩)
                  early := by
                    rw [← hloaded.expiresAt, ← hexpires]
                    exact Nat.lt_of_not_le hstill
                  secrets := hsecrets
                  management := hmanagement
                  jobs := fun key hs => houtbox ▸ hs }

/-- The parts of an open that committed. -/
theorem openAndEnqueueCleanup_cases {now : Nat → Nat}
    (h : openAndEnqueueCleanup cfg now draws object id accessProofHash db = .commit db' answer) :
    (openTx cfg now draws object id accessProofHash db = (db', .error .invalidAccess) ∧
        answer = .error .invalidAccess) ∨
      ∃ jobID opened outbox secret,
        openTx cfg now draws object id accessProofHash db = (opened, .ok secret) ∧
        enqueueTx cfg.codec cfg.subject draws.carrier (now 3) (secretEvent jobID id (now 2))
          opened.outbox = .ok outbox ∧
        db' = { opened with outbox := outbox } ∧ answer = .ok secret := by
  unfold openAndEnqueueCleanup at h
  split at h
  · cases h
  split at h
  · cases h
  rename_i jobID _
  split at h
  · rename_i hopen
    cases h
    exact Or.inl ⟨hopen, rfl⟩
  · cases h
  · rename_i opened secret hopen
    split at h
    · cases h
    rename_i outbox henqueue
    cases h
    exact Or.inr ⟨jobID, opened, outbox, secret, hopen, henqueue, rfl, rfl⟩

/-- The two ways an open commits. -/
theorem openAndEnqueueCleanup_commit {now : Nat → Nat}
    (hunique : Table.UniqueKey SecretRow.id db.secrets)
    (h : openAndEnqueueCleanup cfg now draws object id accessProofHash db = .commit db' answer) :
    (∃ secret row, answer = .ok secret ∧ Opened cfg now id accessProofHash db db' secret row) ∨
      ∃ row, answer = .error .invalidAccess ∧ Refused cfg now id db db' row := by
  rcases openAndEnqueueCleanup_cases h with
    ⟨hopen, rfl⟩ | ⟨jobID, opened, outbox, secret, hopen, henqueue, rfl, rfl⟩
  · rcases openTx_cases hunique hopen with ⟨err, herr, hne⟩ | ⟨_, _, hok, -⟩ | hrefused
    · exact absurd (Except.error.inj herr).symm hne
    · cases hok
    · exact Or.inr hrefused
  · rcases openTx_cases hunique hopen with ⟨err, herr, -⟩ | ⟨_, row, hok, h⟩ | ⟨_, herr, -⟩
    · cases herr
    · obtain rfl := Except.ok.inj hok
      refine Or.inl ⟨secret, row, rfl, { h with secrets := h.secrets, jobs := ?_ }⟩
      intro key hs
      rcases scheduled_enqueueTx henqueue hs with hold | ⟨hkind, -⟩
      · exact h.jobs key hold
      · cases hkind
    · cases herr

end

section

variable {cfg : Config} {julian : JulianDay} {clock after : Nat} {now : Nat → Nat} {draws : Draws}
  {db db' : DB} {id accessProofHash : String} {row : SecretRow} {raw : Bytes}
  {presign : Option String} {token upload : String} {input : CreateInput}
  {answer : Except Err ManagementStatus} {deleted : Bool}

/-- A transaction that leaves rows and object jobs alone. -/
theorem effect_refl (hunique : Table.UniqueKey SecretRow.id db.secrets)
    (hsecrets : db'.secrets = db.secrets) (houtbox : db'.outbox = db.outbox) :
    Effect cfg julian clock after db (fun _ => .silent) db' := by
  refine ⟨?_, hsecrets ▸ hunique, fun key _ hs => Or.inl (houtbox ▸ hs)⟩
  intro id
  rw [hsecrets]
  exact RowStep.kept _

theorem Opened.effect {secret : Secret} (hunique : Table.UniqueKey SecretRow.id db.secrets)
    (h : Opened cfg now id accessProofHash db db' secret row) (hclock : clock ≤ now 1) :
    Effect cfg julian clock after db (eventAt id (.terminal .opened)) db' := by
  have hid : ∀ row, (SecretRow.consume (now 1) row).id = row.id := fun _ => rfl
  have hguard : SecretRow.unconsumed id row = true := by
    simp [SecretRow.unconsumed, Table.lookup_key h.loaded.found, h.unconsumed]
  refine ⟨?_, ?_, fun key _ hs => Or.inl (h.jobs key hs)⟩
  · rw [h.secrets]
    apply rowStep_update hid _ h.loaded.found hguard
    · exact RowStep.opened row (now 1) h.loaded.active h.unconsumed hclock h.early
    · intro row hrow
      simp only [SecretRow.unconsumed, Bool.and_eq_true, decide_eq_true_eq] at hrow
      exact hrow.1
  · rw [h.secrets]
    exact hunique.update hid

/-- The event of a refused proof. -/
def refusedEvent (row : SecretRow) : Event :=
  if maxFailedAccessAttempts ≤ row.failedAccessCount + 1 then .terminal .locked else .silent

theorem Refused.effect (hunique : Table.UniqueKey SecretRow.id db.secrets)
    (h : Refused cfg now id db db' row) :
    Effect cfg julian clock after db (eventAt id (refusedEvent row)) db' := by
  have hid : ∀ row, (SecretRow.countFailure (now 0) row).id = row.id := fun _ => rfl
  have hguard : SecretRow.unconsumed id row = true := by
    simp [SecretRow.unconsumed, Table.lookup_key h.found, h.unconsumed]
  refine ⟨?_, ?_, ?_⟩
  · rw [h.secrets]
    apply rowStep_update hid _ h.found hguard
    · unfold refusedEvent
      split
      · rename_i hmany
        exact RowStep.locked row (now 0) h.active h.unconsumed hmany
      · rename_i hfew
        exact RowStep.refused row (now 0) h.active h.unconsumed (Nat.lt_of_not_le hfew)
    · intro row hrow
      simp only [SecretRow.unconsumed, Bool.and_eq_true, decide_eq_true_eq] at hrow
      exact hrow.1
  · rw [h.secrets]
    exact hunique.update hid
  · intro key _ hs
    refine (h.jobs key hs).imp_right ?_
    rintro ⟨hbackend, hkey, hmany⟩
    refine ⟨id, row, h.found, hbackend, hkey, Or.inl ?_⟩
    rw [eventAt, if_pos rfl, refusedEvent, if_pos hmany]

/-! ### Creation, finalization, cleanup -/

theorem insertSecret_ok (h : insertSecret row db = .ok db') :
    Table.lookup SecretRow.id row.id db.secrets = none ∧
    db' = { db with secrets := db.secrets ++ [row] } := by
  unfold insertSecret at h
  split at h
  · cases h
  rename_i hnone
  cases h
  exact ⟨by simpa using hnone, rfl⟩

/-- The record of a new secret, and the token that goes with it. -/
structure Recorded (cfg : Config) (id : String) (expires : Nat) (raw : Bytes) (token : String)
    (db db' : DB) : Prop where
  free : Table.lookup ManagementRow.secretID id db.management = none
  management : db'.management = db.management ++ [⟨id, cfg.sha256 raw, expires, none⟩]
  token : token = rawURLEncoding.encodeToString raw

theorem createManagementTx_ok {expires : Nat}
    (h : createManagementTx cfg id expires raw db = .ok (db', token)) :
    db'.secrets = db.secrets ∧ db'.outbox = db.outbox ∧
      Recorded cfg id expires raw token db db' := by
  unfold createManagementTx at h
  split at h
  · cases h
  rename_i hfree
  cases h
  exact ⟨rfl, rfl, Option.not_isSome_iff_eq_none.mp hfree, rfl, rfl⟩

/-- An inserted row. -/
theorem effect_insert (hunique : Table.UniqueKey SecretRow.id db.secrets)
    (hfree : Table.lookup SecretRow.id row.id db.secrets = none)
    (hsecrets : db'.secrets = db.secrets ++ [row]) (houtbox : db'.outbox = db.outbox)
    (hcreated : RowStep julian clock after none .created (some row)) :
    Effect cfg julian clock after db (eventAt row.id .created) db' := by
  refine ⟨?_, ?_, fun key _ hs => Or.inl (houtbox ▸ hs)⟩
  · intro other
    rw [hsecrets, Table.lookup_append, eventAt]
    by_cases heq : other = row.id
    · subst heq
      rw [if_pos rfl, if_pos rfl, hfree]
      exact hcreated
    · rw [if_neg heq, if_neg (fun h => heq h.symm), Option.or_none]
      exact RowStep.kept _
  · rw [hsecrets]
    exact hunique.append (Table.lookup_eq_none.mp hfree)

theorem modelAColumns_proofHash {kdf : KDFParams} {wrapped : Option String} {access : Access}
    (h : modelAColumns kdf accessProofHash wrapped = some access) : access.proofHash ≠ "" := by
  unfold modelAColumns at h
  split at h
  · split at h
    · cases h
    rename_i hne
    cases h
    exact hne
  · cases h

/-- The parts of a `Create` that committed. -/
theorem create_cases {now : Nat} (h : create cfg now id raw input db = .ok (db', token)) :
    ∃ row : SecretRow, row = { input with maxViews := defaultViews input.maxViews }.row id now ∧
      validateCreate cfg { input with maxViews := defaultViews input.maxViews } = .ok () ∧
      Table.lookup SecretRow.id id db.secrets = none ∧
      createManagementTx cfg id row.expiresAt raw
        { db with
          secrets := db.secrets ++ [row]
          payloads := db.payloads ++ [⟨id, input.ciphertext, now⟩] } = .ok (db', token) := by
  unfold create at h
  dsimp only at h
  split at h
  · cases h
  rename_i hvalid
  split at h
  · cases h
  rename_i inserted hinsert
  obtain ⟨hfree, rfl⟩ := insertSecret_ok hinsert
  split at h
  · cases h
  exact ⟨_, rfl, hvalid, hfree, h⟩

/-- The parts of a `CreateLarge` that committed. -/
theorem createLarge_cases {now : Nat} {input : CreateLargeInput}
    (h : createLarge cfg now id raw presign input db = .ok (db', token, upload)) :
    ∃ row : SecretRow, row = { input with maxViews := defaultViews input.maxViews }.row id now ∧
      cfg.objects = true ∧ Table.lookup SecretRow.id id db.secrets = none ∧
      createManagementTx cfg id row.expiresAt raw { db with secrets := db.secrets ++ [row] } =
        .ok (db', token) := by
  unfold createLarge at h
  dsimp only at h
  split at h
  · cases h
  rename_i hobjects
  split at h
  · cases h
  split at h
  · cases h
  split at h
  · cases h
  rename_i inserted hinsert
  obtain ⟨hfree, rfl⟩ := insertSecret_ok hinsert
  split at h
  · cases h
  rename_i managed token' hmanagement
  cases h
  exact ⟨_, rfl, by simpa using hobjects, hfree, hmanagement⟩

/-- The row `Create` commits. -/
theorem create_ok {now : Nat} (h : create cfg now id raw input db = .ok (db', token)) :
    Table.lookup SecretRow.id id db.secrets = none ∧ db'.outbox = db.outbox ∧
      db'.secrets = db.secrets ++
        [{ input with maxViews := defaultViews input.maxViews }.row id now] ∧
      Recorded cfg id ({ input with maxViews := defaultViews input.maxViews }.row id now).expiresAt
        raw token db db' := by
  obtain ⟨_, rfl, -, hfree, hmanagement⟩ := create_cases h
  obtain ⟨hsecrets, houtbox, hrecorded⟩ := createManagementTx_ok hmanagement
  exact ⟨hfree, houtbox, hsecrets, hrecorded.free, hrecorded.management, hrecorded.token⟩

theorem create_effect {now : Nat} (hunique : Table.UniqueKey SecretRow.id db.secrets)
    (h : create cfg now id raw input db = .ok (db', token)) :
    Effect cfg julian clock after db (eventAt id .created) db' := by
  obtain ⟨hfree, houtbox, hsecrets, -⟩ := create_ok h
  refine effect_insert hunique hfree hsecrets houtbox (RowStep.created _ rfl rfl ?_ ?_ ?_)
  · exact fun access haccess => modelAColumns_proofHash haccess
  · exact fun hbackend => by cases hbackend
  · exact fun hpending => by cases hpending

/-- The row `CreateLarge` commits. -/
theorem createLarge_ok {now : Nat} {input : CreateLargeInput}
    (h : createLarge cfg now id raw presign input db = .ok (db', token, upload)) :
    Table.lookup SecretRow.id id db.secrets = none ∧ db'.outbox = db.outbox ∧
      db'.secrets = db.secrets ++
        [{ input with maxViews := defaultViews input.maxViews }.row id now] ∧
      Recorded cfg id ({ input with maxViews := defaultViews input.maxViews }.row id now).expiresAt
        raw token db db' := by
  obtain ⟨_, rfl, -, hfree, hmanagement⟩ := createLarge_cases h
  obtain ⟨hsecrets, houtbox, hrecorded⟩ := createManagementTx_ok hmanagement
  exact ⟨hfree, houtbox, hsecrets, hrecorded.free, hrecorded.management, hrecorded.token⟩

theorem createLarge_effect {now : Nat} {input : CreateLargeInput}
    (hunique : Table.UniqueKey SecretRow.id db.secrets)
    (h : createLarge cfg now id raw presign input db = .ok (db', token, upload)) :
    Effect cfg julian clock after db (eventAt id .created) db' := by
  obtain ⟨hfree, houtbox, hsecrets, -⟩ := createLarge_ok h
  refine effect_insert hunique hfree hsecrets houtbox (RowStep.created _ rfl rfl ?_ ?_ ?_)
  · exact fun access haccess => modelAColumns_proofHash haccess
  · exact fun _ => rfl
  · exact fun _ => rfl

theorem finalizeActivate_effect {now : Nat} {pending : Pending} {head : Option ObjectInfo}
    (hunique : Table.UniqueKey SecretRow.id db.secrets)
    (h : finalizeActivate now id pending head db = .ok db') :
    now < pending.deadline ∧
      (∃ row, Table.lookup SecretRow.id id db.secrets = some row ∧ row.state = .pendingUpload) ∧
      Effect cfg julian clock after db (eventAt id .activated) db' := by
  have hid : ∀ row, (SecretRow.activate now row).id = row.id := fun _ => rfl
  unfold finalizeActivate at h
  split at h
  · cases h
  split at h
  · cases h
  split at h
  · cases h
  rename_i hearly
  unfold activateSecretTx at h
  split at h
  · cases h
  rename_i haffected
  cases h
  have hpin : ∀ row, SecretRow.pendingUnder id row = true → row.id = id := by
    intro row hrow
    simp only [SecretRow.pendingUnder, Bool.and_eq_true, decide_eq_true_eq] at hrow
    exact hrow.1
  obtain ⟨row, hfound, hguard⟩ :=
    Table.lookup_of_affected hunique hpin (by rw [not_not.mp haffected]; decide)
  have hpending : row.state = .pendingUpload := by
    simp only [SecretRow.pendingUnder, Bool.and_eq_true, decide_eq_true_eq] at hguard
    exact hguard.2
  refine ⟨Nat.lt_of_not_le hearly, ⟨row, hfound, hpending⟩, ?_, hunique.update hid, ?_⟩
  · exact rowStep_update hid hpin hfound hguard (RowStep.activated row now hpending)
  · exact fun key _ hs => Or.inl hs

theorem cleanup_effect {now : Nat} (hunique : Table.UniqueKey SecretRow.id db.secrets)
    (h : cleanup now id db = .ok (db', deleted)) :
    Effect cfg julian clock after db (fun _ => .silent) db' := by
  have hid : ∀ row, (SecretRow.touch now row).id = row.id := fun _ => rfl
  unfold cleanup at h
  split at h
  · cases h
  split at h
  · cases h
    refine ⟨?_, hunique.update hid, fun key _ hs => Or.inl hs⟩
    intro other
    rw [Table.lookup_update hid]
    cases hfound : Table.lookup SecretRow.id other db.secrets with
    | none => exact RowStep.kept none
    | some row =>
      rw [Option.map_some]
      split
      · exact RowStep.touched row now
      · exact RowStep.kept (some row)
  · cases h
    exact effect_refl hunique rfl rfl

theorem finalizeActivate_ok {now : Nat} {pending : Pending} {head : Option ObjectInfo}
    (h : finalizeActivate now id pending head db = .ok db') :
    db' = { db with
      secrets := Table.update (SecretRow.pendingUnder id)
        (SecretRow.activate now) db.secrets } := by
  unfold finalizeActivate activateSecretTx at h
  grind

theorem cleanup_ok {now : Nat} (h : cleanup now id db = .ok (db', deleted)) :
    db'.management = db.management ∧
      (db'.secrets = db.secrets ∨ db'.secrets = Table.update (fun row => decide (row.id = id))
        (SecretRow.touch now) db.secrets) := by
  unfold cleanup at h
  grind

/-! ### Revocation -/

theorem enqueueCancellation_ok (h : enqueueCancellation cfg now draws row db = .ok db') :
    db'.secrets = db.secrets ∧ db'.management = db.management ∧
      ∀ other, Scheduled cfg.codec db'.outbox other → Scheduled cfg.codec db.outbox other ∨
        row.storageBackend = .s3Object ∧ row.storageKey = other := by
  unfold enqueueCancellation at h
  split at h
  · cases h
    exact ⟨rfl, rfl, fun _ => Or.inl⟩
  · rename_i hbackend
    split at h
    · cases h
    obtain ⟨hsecrets, hmanagement, hjobs⟩ := scheduled_enqueueObject h
    refine ⟨hsecrets, hmanagement, fun other hs => (hjobs other hs).imp_right ?_⟩
    exact fun hkey => ⟨not_not.mp hbackend, hkey⟩

theorem cancellable_id (h : SecretRow.cancellable id row = true) : row.id = id := by
  simp only [SecretRow.cancellable, Bool.and_eq_true, decide_eq_true_eq] at h
  exact h.1.1

/-- The delete of a cancellation and its job. -/
theorem cancelled_effect (hunique : Table.UniqueKey SecretRow.id db.secrets)
    (haffected : Table.affected (SecretRow.cancellable id) db.secrets = 1)
    (hfound : Table.lookup SecretRow.id id db.secrets = some row)
    (hsecrets : db'.secrets = Table.delete (SecretRow.cancellable id) db.secrets)
    (hjobs : ∀ other, Scheduled cfg.codec db'.outbox other →
      Scheduled cfg.codec db.outbox other ∨ row.storageBackend = .s3Object ∧
      row.storageKey = other) :
    (∃ row, Table.lookup SecretRow.id id db.secrets = some row) ∧
      Table.lookup SecretRow.id id db'.secrets = none ∧
      Effect cfg julian clock after db (eventAt id (.terminal .cancelled)) db' := by
  have hpin : ∀ row, SecretRow.cancellable id row = true → row.id = id := fun _ => cancellable_id
  obtain ⟨row', hfound', hguard⟩ :=
    Table.lookup_of_affected hunique hpin (by rw [haffected]; decide)
  obtain rfl : row = row' := Option.some.inj (hfound.symm.trans hfound')
  have hunconsumed : row.consumedAt = none := by
    simp only [SecretRow.cancellable, Bool.and_eq_true, Option.isNone_iff_eq_none] at hguard
    exact hguard.1.2
  refine ⟨⟨row, hfound⟩, ?_, ?_, ?_, ?_⟩
  · rw [hsecrets, Table.lookup_delete hunique, hfound]
    simp [Option.filter, hguard]
  · rw [hsecrets]
    exact rowStep_delete hunique hpin hfound hguard (RowStep.cancelled row hunconsumed)
  · rw [hsecrets]
    exact hunique.delete _
  · intro key _ hs
    refine (hjobs key hs).imp_right ?_
    rintro ⟨hbackend, hkey⟩
    refine ⟨id, row, hfound, hbackend, hkey, Or.inr (Or.inl ?_)⟩
    rw [eventAt, if_pos rfl]

/-- What a revocation that commits read, and what it did. -/
theorem revoke_cases (h : revoke cfg now draws id token db = .commit db' answer) :
    ∃ first, management cfg (now 0) id token db = .ok first ∧
      (first.status = .recorded .cancelled ∧ db' = db ∨
        first.status ≠ .recorded .cancelled ∧
        ∃ row second, Table.lookup SecretRow.id id db.secrets = some row ∧
          management cfg (now 1) id token db = .ok second ∧ second.canCancel = true ∧
          Table.affected (SecretRow.cancellable id) db.secrets = 1 ∧
          enqueueCancellation cfg now draws row
            { deleteSecrets (SecretRow.cancellable id) db with
              management := recordManagementOutcomeTx id .cancelled db.management } = .ok db') := by
  unfold revoke at h
  split at h
  · cases h
  rename_i first hfirst
  refine ⟨first, hfirst, ?_⟩
  split at h
  · rename_i hcancelled
    cases h
    exact Or.inl ⟨hcancelled, rfl⟩
  · rename_i hcancelled
    refine Or.inr ⟨hcancelled, ?_⟩
    split at h
    · cases h
    split at h
    · cases h
    rename_i row hfound
    split at h
    · cases h
    rename_i second hsecond
    split at h
    · cases h
    rename_i hcancel
    split at h
    · cases h
    rename_i haffected
    dsimp only at h
    split at h
    · cases h
    rename_i enqueued henqueue
    cases h
    exact ⟨row, second, hfound, hsecond, by simpa using hcancel, not_not.mp haffected,
      henqueue⟩

/-- A revocation that commits found the delivery cancelled already, or cancels it. -/
theorem revoke_commit (hunique : Table.UniqueKey SecretRow.id db.secrets)
    (h : revoke cfg now draws id token db = .commit db' answer) :
    db' = db ∨ db'.secrets = Table.delete (SecretRow.cancellable id) db.secrets ∧
      db'.management = recordManagementOutcomeTx id .cancelled db.management ∧
      (∃ row, Table.lookup SecretRow.id id db.secrets = some row) ∧
      Table.lookup SecretRow.id id db'.secrets = none ∧
      Effect cfg julian clock after db (eventAt id (.terminal .cancelled)) db' := by
  obtain ⟨first, -, ⟨-, rfl⟩ | ⟨-, row, second, hfound, -, -, haffected, henqueue⟩⟩ :=
    revoke_cases h
  · exact Or.inl rfl
  · obtain ⟨hsecrets, hmanagement, hjobs⟩ := enqueueCancellation_ok henqueue
    exact Or.inr ⟨hsecrets, hmanagement, cancelled_effect hunique haffected hfound hsecrets hjobs⟩

end

end Secrets
end FlickDrop
