import FlickDrop.Foundations.Timestamp
import FlickDrop.Secrets.Lockout
import FlickDrop.Secrets.Objects
import FlickDrop.Secrets.Spares

/-!
# Who still sees a secret

Four places decide whether a secret is still there: `Metadata` for the recipient's page,
`OpenTx`, `Finalize` for an upload, and the claim of the reaper.  Each reads the row with
a query of its own.  `OpenTx` and `Finalize` compare instants; the claim compares the
stored texts, after taking the `Z` off.  `Metadata` does not look at the state of the row,
so it shows an upload that nobody has finalized.
-/

namespace FlickDrop
namespace Secrets

open Foundations Events

/-! ### Payloads -/

/-- No stored payload is empty. -/
def DB.Filled (db : DB) : Prop := ∀ p ∈ db.payloads, p.ciphertext ≠ []

theorem DB.Filled.subset {db db' : DB} (h : db.Filled) (hsubset : db'.payloads ⊆ db.payloads) :
    db'.Filled :=
  fun p hp => h p (hsubset hp)

section

variable {cfg : Config} {julian : JulianDay} {now : Nat → Nat} {draws : Draws} {db db' : DB}
  {id : String}

theorem create_filled {now : Nat} {raw : Bytes} {input : CreateInput} {token : String}
    (h : create cfg now id raw input db = .ok (db', token)) (hfilled : db.Filled) : db'.Filled := by
  obtain ⟨_, -, hvalid, -, hmanagement⟩ := create_cases h
  -- the stored body starts with the age header
  have hbody : input.ciphertext ≠ [] := by
    intro hempty
    rw [validateCreate, hempty] at hvalid
    split at hvalid
    · cases hvalid
    rw [if_pos (Or.inl (by decide))] at hvalid
    cases hvalid
  intro p hp
  rw [(createManagementTx_book hmanagement).2] at hp
  rcases List.mem_append.mp hp with hp | hp
  · exact hfilled p hp
  · rw [List.mem_singleton.mp hp]
    exact hbody

/-- **Step lemma**, for payloads. -/
theorem Step.filled {w w' : World} {label : Label} (hstep : Step cfg julian w label w')
    (h : w.db.Filled) : w'.db.Filled := by
  cases hstep with
  | create now id raw input hnow hfresh hcreate => exact create_filled hcreate h
  | createLarge now id raw presign input hnow hfresh hcreate =>
    exact h.subset (createLarge_spares hcreate).payloads
  | finalizeEnd pid head hat hactivate =>
    rw [finalizeActivate_ok hactivate]
    exact h
  | opened pid readings draws object id accessProofHash hfree hopen =>
    exact h.subset (openAndEnqueueCleanup_spares hopen).payloads
  | refused readings draws object id accessProofHash hopen =>
    exact h.subset (openAndEnqueueCleanup_spares hopen).payloads
  | streamCleanup pid readings draws hat henqueue =>
    exact h.subset (enqueueObject_spares henqueue).payloads
  | revoke readings draws id token hrevoke => exact h.subset (revoke_spares hrevoke).payloads
  | cleanup id hcleanup => exact h.subset (cleanup_spares hcleanup).payloads
  | claimExpired batchSize now draws purgeRequests hclock hnow hforeign hclaim =>
    exact h.subset (claimExpired_spares hclaim).payloads
  | tick | put | objectGone | outbox | finalizeBegin | finalizeFail | streamEnd | streamLost
  | scanBegin | scanListed | scanReset | scanCommit | scanEnd | acknowledge => exact h

theorem filled_of_run {clock : Nat} {trace : List (Label × World)} {w : World}
    (hrun : Run (Step cfg julian) (World.start clock) trace w) : w.db.Filled :=
  Run.invariant (fun w => w.db.Filled) (fun _ hp => by cases hp)
  (fun _ _ _ h hstep => hstep.filled h)
    hrun

end

/-! ### What the recipient's page sees -/

/-- The row `Metadata` shows at the instant `now`: unconsumed, unexpired, and with a body,
in the payload table or in the bucket. -/
structure Shown (now : Nat) (id : String) (db : DB) (row : SecretRow) : Prop where
  named : id ≠ ""
  found : Table.lookup SecretRow.id id db.secrets = some row
  unconsumed : row.consumedAt = none
  early : now < row.expiresAt
  stored : row.storageBackend = .s3Object ∨
    ∃ payload, Table.lookup Payload.secretID id db.payloads = some payload

/-- `OpenTx` with the right proof passes its lookup and both checks: what it answers is
what reading the body answers. -/
def ReachesBody (cfg : Config) (now : Nat) (id : String) (db : DB) : Prop :=
  ∃ secret : Secret, ∀ draws object,
    (openTx cfg (fun _ => now) draws object id secret.accessProofHash db).2 =
      openBody cfg object secret

/-- `Metadata` and `OpenTx` agree on whether the secret is there, and no open of a secret
that `Metadata` shows answers `ErrNotFound`. -/
def AvailabilityAgrees (cfg : Config) (now : Nat) (id : String) (db : DB) : Prop :=
  ((∃ shown, metadata now id db = .ok shown) ↔ ReachesBody cfg now id db) ∧
    ((∃ shown, metadata now id db = .ok shown) → ∀ draws object accessProofHash,
      (openTx cfg (fun _ => now) draws object id accessProofHash db).2 ≠ .error .notFound)

section

variable {cfg : Config} {now : Nat} {id : String} {db : DB} {row : SecretRow} {secret : Secret}

theorem any_payload_iff (db : DB) (id : String) :
    (db.payloads.any fun p => decide (p.secretID = id)) = true ↔
      ∃ payload, Table.lookup Payload.secretID id db.payloads = some payload := by
  rw [← Option.isSome_iff_exists, Table.lookup, List.find?_isSome, List.any_eq_true]

theorem metadata_ok_iff (hunique : Table.UniqueKey SecretRow.id db.secrets) :
    (∃ shown, metadata now id db = .ok shown) ↔ ∃ row, Shown now id db row := by
  unfold metadata
  by_cases hid : id = ""
  · rw [if_pos hid]
    constructor
    · rintro ⟨shown, h⟩
      cases h
    · rintro ⟨row, h⟩
      exact absurd hid h.named
  rw [if_neg hid, Table.find?_key hunique]
  cases hfound : Table.lookup SecretRow.id id db.secrets with
  | none =>
    constructor
    · rintro ⟨shown, h⟩
      cases h
    · rintro ⟨row, h⟩
      exact absurd (hfound.symm.trans h.found) (by simp)
  | some row =>
    have hkey : row.id = id := Table.lookup_key hfound
    have hstored : (decide (row.storageBackend = .s3Object) ||
        db.payloads.any fun p => decide (p.secretID = row.id)) = true ↔
        (row.storageBackend = .s3Object ∨
          ∃ payload, Table.lookup Payload.secretID id db.payloads = some payload) := by
      rw [Bool.or_eq_true, decide_eq_true_eq, hkey, any_payload_iff]
    rw [Option.filter_some]
    constructor
    · rintro ⟨shown, h⟩
      split at h
      · cases h
      rename_i shownRow hshown
      split at hshown
      · rename_i hbody
        cases hshown
        split at h
        · cases h
        rename_i hunconsumed
        split at h
        · cases h
        rename_i hearly
        exact ⟨row, hid, hfound, by simpa using hunconsumed, Nat.lt_of_not_le hearly,
          hstored.mp hbody⟩
      · cases hshown
    · rintro ⟨other, h⟩
      have hsame := h.found
      rw [hfound] at hsame
      cases hsame
      rw [if_pos (hstored.mpr h.stored)]
      dsimp only
      rw [h.unconsumed, if_neg (by simp), if_neg (Nat.not_le_of_lt h.early)]
      exact ⟨_, rfl⟩

/-- What `load` sees of the row of a secret. -/
theorem load_eq (hunique : Table.UniqueKey SecretRow.id db.secrets) (hid : id ≠ "")
    (hfound : Table.lookup SecretRow.id id db.secrets = some row) :
    load id db =
      let ciphertext :=
        ((Table.lookup Payload.secretID id db.payloads).map Payload.ciphertext).getD []
      if row.state ≠ .active ∨
          row.storageBackend ≠ .s3Object ∧ ciphertext = [] ∧ row.consumedAt = none then
        .error .notFound
      else
        .ok ({
          id := row.id, kind := row.kind, storageBackend := row.storageBackend,
          storageKey := row.storageKey, ciphertext := ciphertext, body := none,
          access := row.access, encryptedFilename := row.encryptedFilename,
          contentType := row.contentType, sizeBytes := row.sizeBytes,
          expiresAt := row.expiresAt }, row.consumedAt) := by
  unfold load
  rw [if_neg hid, Table.find?_key hunique, hfound, Option.filter_some]
  by_cases hactive : row.state = .active
  · rw [if_pos (decide_eq_true hactive)]
    simp only [hactive, ne_eq, not_true_eq_false, false_or]
  · rw [if_neg (by simpa using hactive)]
    simp only [ne_eq, hactive, not_false_eq_true, true_or, if_true]

/-- The open loads an active row that is consumed or has its body. -/
theorem load_of_body (hunique : Table.UniqueKey SecretRow.id db.secrets) (hfilled : db.Filled)
    (hid : id ≠ "") (hfound : Table.lookup SecretRow.id id db.secrets = some row)
    (hactive : row.state = .active)
    (hbody : row.consumedAt = none → row.storageBackend = .s3Object ∨
      ∃ payload, Table.lookup Payload.secretID id db.payloads = some payload) :
    ∃ secret, load id db = .ok (secret, row.consumedAt) ∧ secret.expiresAt = row.expiresAt := by
  have hpresent : ¬ (row.state ≠ .active ∨ row.storageBackend ≠ .s3Object ∧
      ((Table.lookup Payload.secretID id db.payloads).map Payload.ciphertext).getD [] = [] ∧
      row.consumedAt = none) := by
    rintro (hpending | ⟨hinline, hempty, hunconsumed⟩)
    · exact hpending hactive
    · rcases hbody hunconsumed with hobject | ⟨payload, hpayload⟩
      · exact hinline hobject
      · rw [hpayload] at hempty
        exact hfilled payload (Table.lookup_mem hpayload) hempty
  rw [load_eq hunique hid hfound]
  dsimp only
  rw [if_neg hpresent]
  exact ⟨_, rfl, rfl⟩

theorem Shown.load (h : Shown now id db row) (hunique : Table.UniqueKey SecretRow.id db.secrets)
    (hfilled : db.Filled) (hactive : row.state = .active) :
    ∃ secret, load id db = .ok (secret, none) ∧ now < secret.expiresAt := by
  obtain ⟨secret, hload, hexpires⟩ :=
    load_of_body hunique hfilled h.named h.found hactive fun _ => h.stored
  rw [h.unconsumed] at hload
  exact ⟨secret, hload, hexpires ▸ h.early⟩

/-- With the bucket configured, reading the body never answers that the secret is gone. -/
theorem openBody_error {object : Option (Bytes × Int)} {err : Err} (hobjects : cfg.objects = true)
    (h : openBody cfg object secret = .error err) : err = .other "open object payload" := by
  unfold openBody at h
  rw [hobjects] at h
  split at h
  · cases h
  rw [if_neg (by decide)] at h
  split at h
  · cases h
    rfl
  · split at h
    · cases h
      rfl
    · cases h

/-- What the open loads is shown. -/
theorem shown_of_load (hunique : Table.UniqueKey SecretRow.id db.secrets)
    (hload : load id db = .ok (secret, none)) (hearly : now < secret.expiresAt) :
    ∃ row, Shown now id db row ∧ row.state = .active := by
  obtain ⟨row, hloaded, hunconsumed⟩ := load_ok hunique hload
  have hnamed : id ≠ "" := by
    rintro rfl
    cases hload
  rw [load_eq hunique hnamed hloaded.found] at hload
  dsimp only at hload
  split at hload
  · cases hload
  rename_i hpresent
  refine ⟨row, ⟨hnamed, hloaded.found, hunconsumed, hloaded.expiresAt ▸ hearly, ?_⟩, hloaded.active⟩
  by_cases hobject : row.storageBackend = .s3Object
  · exact Or.inl hobject
  · right
    cases hpayload : Table.lookup Payload.secretID id db.payloads with
    | some payload => exact ⟨payload, rfl⟩
    | none =>
      rw [hpayload] at hpresent
      exact absurd (Or.inr ⟨hobject, rfl, hunconsumed⟩) hpresent

theorem openTx_of_load (hunique : Table.UniqueKey SecretRow.id db.secrets)
    (hload : load id db = .ok (secret, none)) (hearly : now < secret.expiresAt) (draws : Draws)
    (object : Option (Bytes × Int)) :
    (openTx cfg (fun _ => now) draws object id secret.accessProofHash db).2 =
      openBody cfg object secret := by
  obtain ⟨row, hloaded, hunconsumed⟩ := load_ok hunique hload
  unfold openTx
  simp only [hload]
  rw [if_neg (by simp), if_neg (Nat.not_le_of_lt hearly), if_neg (fun h => h.2 rfl)]
  cases hbody : openBody cfg object secret with
  | error err => rfl
  | ok opened =>
    dsimp only
    rw [(openBody_ok hbody).2.2.2, if_neg (Nat.not_le_of_lt hearly), consumeTx,
      affected_unconsumed hunique hloaded.found hunconsumed]
    rfl

theorem reachesBody_iff (hunique : Table.UniqueKey SecretRow.id db.secrets) (hfilled : db.Filled)
    (hobjects : cfg.objects = true) :
    ReachesBody cfg now id db ↔ ∃ row, Shown now id db row ∧ row.state = .active := by
  constructor
  · rintro ⟨secret, hreaches⟩
    -- an object of the announced size can be read, so this open succeeds
    have hopen := hreaches ⟨[], fun _ => none⟩ (some ([], secret.sizeBytes))
    have hbody : ∃ opened, openBody cfg (some ([], secret.sizeBytes)) secret = .ok opened := by
      unfold openBody
      rw [hobjects]
      by_cases hinline : secret.storageBackend ≠ .s3Object
      · exact ⟨_, if_pos hinline⟩
      · exact ⟨_, by rw [if_neg hinline, if_neg (by decide)]; exact if_neg (fun h => h rfl)⟩
    obtain ⟨opened, hopened⟩ := hbody
    rw [hopened] at hopen
    unfold openTx at hopen
    cases hload : load id db with
    | error err =>
      rw [hload] at hopen
      cases hopen
    | ok loaded =>
      obtain ⟨found, consumedAt⟩ := loaded
      simp only [hload] at hopen
      cases consumedAt with
      | some consumed =>
        rw [if_pos (Option.isSome_some)] at hopen
        cases hopen
      | none =>
        rw [if_neg (by simp)] at hopen
        by_cases hearly : found.expiresAt ≤ now
        · rw [if_pos hearly] at hopen
          cases hopen
        · exact shown_of_load hunique hload (Nat.lt_of_not_le hearly)
  · rintro ⟨row, hshown, hactive⟩
    obtain ⟨secret, hload, hearly⟩ := hshown.load hunique hfilled hactive
    exact ⟨secret, openTx_of_load hunique hload hearly⟩

theorem recordFailedAccessTx_ne_notFound {draws : Draws} {enqueueNow : Nat} {key : String}
    {backend : Backend} :
    recordFailedAccessTx cfg draws enqueueNow id backend key now db ≠ .error .notFound := by
  unfold recordFailedAccessTx purgeLocked enqueueObject
  grind

/-- Once the row is loaded, nothing in `OpenTx` answers `ErrNotFound`. -/
theorem openTx_ne_notFound {consumedAt : Option Nat} (hobjects : cfg.objects = true)
    (hload : load id db = .ok (secret, consumedAt)) (readings : Nat → Nat) (draws : Draws)
    (object : Option (Bytes × Int)) (accessProofHash : String) :
    (openTx cfg readings draws object id accessProofHash db).2 ≠ .error .notFound := by
  unfold openTx
  simp only [hload]
  split
  · intro h
    cases h
  · split
    · intro h
      cases h
    · split
      · split
        · rename_i err hrecord
          intro h
          cases h
          exact recordFailedAccessTx_ne_notFound hrecord
        · intro h
          cases h
      · split
        · rename_i err hbody
          rw [openBody_error hobjects hbody]
          intro h
          cases h
        · split
          · intro h
            cases h
          · unfold consumeTx
            split
            · rename_i err hconsume
              intro h
              cases h
              split at hconsume <;> cases hconsume
            · intro h
              cases h

/-- A shown row that is still pending is one the open does not find. -/
theorem openTx_pending (hunique : Table.UniqueKey SecretRow.id db.secrets) (hid : id ≠ "")
    (hfound : Table.lookup SecretRow.id id db.secrets = some row)
    (hpending : row.state = .pendingUpload)
    (readings : Nat → Nat) (draws : Draws) (object : Option (Bytes × Int))
    (accessProofHash : String) :
    (openTx cfg readings draws object id accessProofHash db).2 = .error .notFound := by
  have hload : load id db = .error .notFound := by
    rw [load_eq hunique hid hfound]
    exact if_pos (Or.inl (by rw [hpending]; decide))
  unfold openTx
  rw [hload]

end

/-- **Metadata and open agree on availability except on unfinalized uploads.**  In every
reachable state with the bucket configured, for every id and instant: `Metadata` succeeds
iff the open with the right proof reaches the body, and what it shows is never answered
`ErrNotFound`, exactly when the row of the secret is no pending upload that is still
before its expiry. -/
theorem metadata_agrees_with_open {cfg : Config} {julian : JulianDay} {clock : Nat}
    {trace : List (Label × World)} {w : World} (hobjects : cfg.objects = true)
    (hrun : Run (Step cfg julian) (World.start clock) trace w) (id : String) (now : Nat) :
    AvailabilityAgrees cfg now id w.db ↔
      ∀ row, id ≠ "" → w.row id = some row → row.state = .pendingUpload → row.expiresAt ≤ now := by
  have hinv := inv_of_run hrun
  have hfilled := filled_of_run hrun
  rw [AvailabilityAgrees, metadata_ok_iff hinv.unique, reachesBody_iff hinv.unique hfilled hobjects]
  constructor
  · rintro ⟨-, hfound⟩ row hid hrow hpending
    -- an unexpired pending upload is shown, and its open finds nothing
    by_contra hearly
    have hsound := hinv.rows id row hrow
    have hshown : Shown now id w.db row :=
      ⟨hid, hrow, hsound.pending hpending, Nat.lt_of_not_le hearly, Or.inl (hsound.upload hpending)⟩
    exact hfound ⟨row, hshown⟩ ⟨[], fun _ => none⟩ none ""
      (openTx_pending hinv.unique hid hrow hpending _ _ _ _)
  · intro hsettled
    have hactive : ∀ row, Shown now id w.db row → row.state = .active := by
      intro row hshown
      cases hstate : row.state with
      | active => rfl
      | pendingUpload =>
        exact absurd (hsettled row hshown.named hshown.found hstate) (Nat.not_le_of_lt hshown.early)
    refine ⟨⟨?_, ?_⟩, ?_⟩
    · rintro ⟨row, hshown⟩
      exact ⟨row, hshown, hactive row hshown⟩
    · rintro ⟨row, hshown, -⟩
      exact ⟨row, hshown⟩
    · rintro ⟨row, hshown⟩ draws object accessProofHash
      obtain ⟨secret, hload, -⟩ := hshown.load hinv.unique hfilled (hactive row hshown)
      exact openTx_ne_notFound hobjects hload _ draws object accessProofHash

/-- A text that was just created is shown and can be opened. -/
theorem metadata_agrees_with_open_text :
    ∃ (trace : List (Label × World)) (w : World),
      Run (Step (sampleConfig (secretEvent "job" "a" 1)) instantDay) (World.start 1) trace w ∧
      (∃ shown, metadata 1 "a" w.db = .ok shown) ∧
      AvailabilityAgrees (sampleConfig (secretEvent "job" "a" 1)) 1 "a" w.db := by
  have hrun : Run (Step (sampleConfig (secretEvent "job" "a" 1)) instantDay) (World.start 1) _ _ :=
    Run.nil.snoc (.create 1 "a" [] sampleInput (Nat.le_refl _)
      ⟨by simp [World.start], by simp [World.start]⟩ rfl)
  refine ⟨_, _, hrun, ⟨_, rfl⟩, (metadata_agrees_with_open rfl hrun "a" 1).mpr ?_⟩
  intro row _ hrow hpending
  cases hrow
  cases hpending

/-- An upload that nobody has finalized: the page shows it, the open answers that there is
no such secret. -/
theorem pending_upload_shown :
    ∃ (trace : List (Label × World)) (w : World),
      Run (Step (sampleConfig (objectEvent "job" (objectKey "a") .manual 1)) instantDay)
        (World.start 1) trace w ∧
      (∃ shown, metadata 1 "a" w.db = .ok shown) ∧
      ∀ draws object accessProofHash,
        (openTx (sampleConfig (objectEvent "job" (objectKey "a") .manual 1))
          (fun _ => 1) draws object "a" accessProofHash w.db).2 = .error .notFound := by
  have hrun : Run (Step (sampleConfig (objectEvent "job" (objectKey "a") .manual 1)) instantDay)
      (World.start 1) _ _ :=
    Run.nil.snoc (.createLarge 1 "a" sampleToken (some "url") sampleUpload (Nat.le_refl _)
      ⟨by simp [World.start], by simp [World.start]⟩ rfl)
  exact ⟨_, _, hrun, ⟨_, rfl⟩, fun _ _ _ => rfl⟩

/-! ### What the reaper claims -/

/-- The condition of `claimReclaimableSQL` on the texts the columns hold.  `origin` is the
instant the times of the model count from. -/
def SecretRow.reclaimableText (origin : Int) (pendingTTL now : Nat) (row : SecretRow) : Bool :=
  row.reclaimEnqueuedAt.isNone && row.consumedAt.isNone &&
    (textLe (rtrimZ (formatTime (origin + row.expiresAt))) (rtrimZ (formatTime (origin + now))) ||
      (decide (row.state = .pendingUpload) &&
        -- the cutoff is subtracted from the clock, and may lie before the year 0
        textLe (rtrimZ (formatTime (origin + row.createdAt)))
          (rtrimZ (formatTime (origin + now - pendingTTL)))))

/-- The year of an instant has four digits. -/
def FourDigits (t : Int) : Prop := 0 ≤ yearOf t ∧ yearOf t ≤ 9999

instance (t : Int) : Decidable (FourDigits t) := inferInstanceAs (Decidable (_ ∧ _))

/-- The texts of the columns decide as the instants do. -/
theorem reclaimableText_eq {origin : Int} {pendingTTL now : Nat} {row : SecretRow}
    (hexpires : FourDigits (origin + row.expiresAt))
    (hcreated : FourDigits (origin + row.createdAt))
    (hnow : yearOf (origin + now) ≤ 9999) :
    row.reclaimableText origin pendingTTL now = row.reclaimable pendingTTL now := by
  have hexpiry : textLe (rtrimZ (formatTime (origin + row.expiresAt)))
      (rtrimZ (formatTime (origin + now))) = decide (row.expiresAt ≤ now) := by
    rw [Bool.eq_iff_iff, rtrimZ_formatTime, rtrimZ_formatTime,
      textLe_instantText hexpires.1 hexpires.2 hnow, decide_eq_true_eq]
    omega
  have hcutoff : yearOf (origin + now - pendingTTL) ≤ 9999 :=
    Int.le_trans (yearOf_mono (by omega)) hnow
  have hupload : textLe (rtrimZ (formatTime (origin + row.createdAt)))
      (rtrimZ (formatTime (origin + now - pendingTTL))) =
        decide (row.createdAt + pendingTTL ≤ now) := by
    rw [Bool.eq_iff_iff, rtrimZ_formatTime, rtrimZ_formatTime,
      textLe_instantText hcreated.1 hcreated.2 hcutoff, decide_eq_true_eq]
    omega
  rw [SecretRow.reclaimableText, SecretRow.reclaimable, hexpiry, hupload]

section

variable {cfg : Config} {julian : JulianDay} {clock now : Nat} {trace : List (Label × World)}
  {w : World} {id : String} {row : SecretRow} {db : DB}

/-- An object was only announced to a store that has a bucket. -/
theorem objects_of_run (hrun : Run (Step cfg julian) (World.start clock) trace w)
    (hrow : w.row id = some row) (hobject : row.storageBackend = .s3Object) :
    cfg.objects = true := by
  obtain ⟨row₀, hcreated, hsame⟩ := created_of_run hrun hrow
  have hobject₀ : row₀.storageBackend = .s3Object := hsame.backend ▸ hobject
  obtain ⟨entry, hentry, hlabel⟩ := List.mem_map.mp hcreated
  obtain ⟨front, back, rfl⟩ := List.append_of_mem hentry
  obtain ⟨label, after⟩ := entry
  obtain ⟨before, -, hstep, -⟩ := hrun.split
  dsimp only at hlabel
  subst hlabel
  generalize hlabel : Label.created row₀ = label at hstep
  cases hstep with
  | create now id raw input hnow hfresh hcreate =>
    cases hlabel
    cases hobject₀
  | createLarge now id raw presign input hnow hfresh hcreate =>
    obtain ⟨_, -, hobjects, -⟩ := createLarge_cases hcreate
    exact hobjects
  | refused readings draws object id accessProofHash hopen =>
    exact absurd hlabel.symm (refusedLabel_ne_created _ _ _)
  | revoke readings draws id token hrevoke =>
    exact absurd hlabel.symm (revokedLabel_ne_created _ _ _ _)
  | _ => cases hlabel

theorem openBody_ne_expired {object : Option (Bytes × Int)} {secret : Secret} :
    openBody cfg object secret ≠ .error .expired := by
  unfold openBody
  grind

/-- An inline row whose body is gone although nobody has opened it. -/
def DB.Emptied (db : DB) (row : SecretRow) : Prop :=
  row.consumedAt = none ∧ row.storageBackend ≠ .s3Object ∧
    Table.lookup Payload.secretID row.id db.payloads = none

/-- The open of an active row is refused as expired from its expiry on, unless the row was
emptied. -/
theorem openTx_expired_iff (hunique : Table.UniqueKey SecretRow.id db.secrets) (hfilled : db.Filled)
    (hid : id ≠ "") (hrow : Table.lookup SecretRow.id id db.secrets = some row)
    (hactive : row.state = .active) (hemptied : row.expiresAt ≤ now → ¬ db.Emptied row) :
    (∀ draws object accessProofHash,
      (openTx cfg (fun _ => now) draws object id accessProofHash db).2 = .error .expired) ↔
      row.consumedAt = none ∧ row.expiresAt ≤ now := by
  have hkey : row.id = id := Table.lookup_key hrow
  by_cases hgone : db.Emptied row
  · -- then the open finds nothing, and it is too early to be claimed
    have hload : load id db = .error .notFound := by
      rw [load_eq hunique hid hrow, ← hkey, hgone.2.2]
      exact if_pos (.inr ⟨hgone.2.1, rfl, hgone.1⟩)
    refine iff_of_false (fun hrefused => ?_) fun hdead => hemptied hdead.2 hgone
    have hopen := hrefused ⟨[], fun _ => none⟩ none ""
    unfold openTx at hopen
    rw [hload] at hopen
    cases hopen
  have hbody : row.consumedAt = none → row.storageBackend = .s3Object ∨
      ∃ payload, Table.lookup Payload.secretID id db.payloads = some payload := by
    intro hunconsumed
    by_contra hno
    rw [not_or] at hno
    refine hgone ⟨hunconsumed, hno.1, Option.eq_none_iff_forall_ne_some.mpr fun payload => ?_⟩
    rw [hkey]
    exact fun hpayload => hno.2 ⟨payload, hpayload⟩
  obtain ⟨secret, hload, hexpires⟩ := load_of_body hunique hfilled hid hrow hactive hbody
  constructor
  · intro hrefused
    have hopen := hrefused ⟨[], fun _ => none⟩ none secret.accessProofHash
    cases hconsumed : row.consumedAt with
    | some consumed =>
      rw [hconsumed] at hload
      unfold openTx at hopen
      rw [hload] at hopen
      cases hopen
    | none =>
      refine ⟨rfl, ?_⟩
      -- before its expiry the open is decided by the body
      by_contra hearly
      rw [hconsumed] at hload
      rw [openTx_of_load hunique hload (hexpires ▸ Nat.lt_of_not_le hearly)] at hopen
      exact openBody_ne_expired hopen
  · rintro ⟨hunconsumed, hexpired⟩ draws object accessProofHash
    unfold openTx
    rw [hunconsumed] at hload
    simp only [hload]
    rw [if_neg (by simp), if_pos (hexpires ▸ hexpired)]

/-- A finalize of a pending upload is refused as expired from its deadline on. -/
theorem finalizeLoad_expired_iff (hobjects : cfg.objects = true)
    (hrow : Table.lookup SecretRow.id id db.secrets = some row)
    (hpending : row.state = .pendingUpload) :
    finalizeLoad cfg now id db = .error .expired ↔
      row.expiresAt ≤ now ∨ row.createdAt + cfg.pendingTTL ≤ now := by
  unfold finalizeLoad
  simp only [hobjects, hrow, hpending, Bool.true_eq_false, if_false, reduceCtorEq]
  rw [← min_le_iff]
  show _ ↔ row.pendingDeadline cfg.pendingTTL ≤ now
  by_cases hdead : row.pendingDeadline cfg.pendingTTL ≤ now
  · rw [if_pos hdead]
    exact iff_of_true rfl hdead
  · rw [if_neg hdead]
    exact iff_of_false (fun h => by cases h) hdead

end

/-- **The reaper claims exactly the dead rows.**  For every row of every reachable state, every
pending TTL and every instant up to the year 9999: the row meets the condition of
`claimReclaimableSQL` iff it is unclaimed, unconsumed and past its expiry or, as a pending
upload, past its deadline; that is, iff an open of an active row, unless it expired after it was
emptied, or a finalize of a pending one is refused as expired.  Its texts parse back to its
instants. -/
theorem claims_dead_rows {cfg : Config} {julian : JulianDay} {clock : Nat}
    {trace : List (Label × World)} {w : World}
    (hrun : Run (Step cfg julian) (World.start clock) trace w) {id : String} {row : SecretRow}
    (hid : id ≠ "") (hrow : w.row id = some row) {origin : Int} {now : Nat}
    (hexpires : FourDigits (origin + row.expiresAt))
    (hcreated : FourDigits (origin + row.createdAt)) (hnow : yearOf (origin + now) ≤ 9999) :
    (row.reclaimableText origin cfg.pendingTTL now = true ↔
      row.reclaimEnqueuedAt = none ∧ row.consumedAt = none ∧
        (row.expiresAt ≤ now ∨ row.state = .pendingUpload ∧ row.createdAt + cfg.pendingTTL ≤ now)) ∧
    (row.state = .active → (row.expiresAt ≤ now → ¬ w.db.Emptied row) →
      (row.reclaimableText origin cfg.pendingTTL now = true ↔
        ∀ draws object accessProofHash,
          (openTx cfg (fun _ => now) draws object id accessProofHash w.db).2 = .error .expired)) ∧
    (row.state = .pendingUpload → (row.reclaimableText origin cfg.pendingTTL now = true ↔
      finalizeLoad cfg now id w.db = .error .expired)) ∧
    parseTime (formatTime (origin + row.expiresAt)) = some (origin + row.expiresAt) ∧
    parseTime (formatTime (origin + row.createdAt)) = some (origin + row.createdAt) := by
  have hinv := inv_of_run hrun
  have hsound := hinv.rows id row hrow
  have hclaims : row.reclaimableText origin cfg.pendingTTL now = true ↔
      row.reclaimEnqueuedAt = none ∧ row.consumedAt = none ∧
        (row.expiresAt ≤ now ∨
          row.state = .pendingUpload ∧ row.createdAt + cfg.pendingTTL ≤ now) := by
    rw [reclaimableText_eq hexpires hcreated hnow, SecretRow.reclaimable]
    simp [and_assoc]
  refine ⟨hclaims, ?_, ?_, parseTime_formatTime hexpires.1 hexpires.2,
    parseTime_formatTime hcreated.1 hcreated.2⟩
  · intro hactive hemptied
    rw [hclaims, openTx_expired_iff hinv.unique (filled_of_run hrun) hid hrow hactive hemptied]
    simp [hsound.unclaimed, hactive]
  · intro hpending
    rw [hclaims, finalizeLoad_expired_iff (objects_of_run hrun hrow (hsound.upload hpending)) hrow
      hpending]
    simp [hsound.unclaimed, hsound.pending hpending, hpending]

/-- The instant 100 seconds before the year 10000. -/
def lateOrigin : Int := (3652059 * 86400 - 100) * 1000000000

/-- A text of one minute, as it is created at the instant 1. -/
def sampleRow : SecretRow := { sampleInput with maxViews := 1 }.row "a" 1

/-- Such a text, 61 seconds after it was created. -/
theorem claims_dead_rows_text :
    ∃ (trace : List (Label × World)) (w : World),
      Run (Step (sampleConfig (secretEvent "job" "a" 1)) instantDay) (World.start 1) trace w ∧
      w.row "a" = some sampleRow ∧
      (sampleRow.reclaimableText lateOrigin (15 * minute) (61 * second) = true ↔
        ∀ draws object accessProofHash,
          (openTx (sampleConfig (secretEvent "job" "a" 1)) (fun _ => 61 * second) draws object "a"
            accessProofHash w.db).2 = .error .expired) ∧
      sampleRow.reclaimableText lateOrigin (15 * minute) (61 * second) = true := by
  have hrun : Run (Step (sampleConfig (secretEvent "job" "a" 1)) instantDay) (World.start 1) _ _ :=
    Run.nil.snoc (.create 1 "a" [] sampleInput (Nat.le_refl _)
      ⟨by simp [World.start], by simp [World.start]⟩ rfl)
  have hdead := @claims_dead_rows _ _ _ _ _ hrun "a" sampleRow (by decide) rfl lateOrigin
    (61 * second) (by decide +kernel) (by decide +kernel) (by decide +kernel)
  refine ⟨_, _, hrun, rfl, hdead.2.1 rfl ?_, by decide +kernel⟩
  rintro - ⟨-, -, hno⟩
  cases hno

/-- In the year 10000 the texts no longer order the instants: the same text is dead and is
not claimed.  And once the cleanup endpoint was called for it, it is claimed at its expiry while
its open answers that there is no such secret. -/
theorem reaper_and_open_disagree :
    ∃ (trace : List (Label × World)) (w emptied : World),
      Run (Step (sampleConfig (secretEvent "job" "a" 1)) instantDay) (World.start 1) trace w ∧
      w.row "a" = some sampleRow ∧ FourDigits (lateOrigin + sampleRow.expiresAt) ∧
      FourDigits (lateOrigin + sampleRow.createdAt) ∧ sampleRow.reclaimEnqueuedAt = none ∧
      sampleRow.consumedAt = none ∧ sampleRow.expiresAt ≤ 100 * second ∧
      sampleRow.reclaimableText lateOrigin (15 * minute) (100 * second) = false ∧
      Step (sampleConfig (secretEvent "job" "a" 1)) instantDay w .other emptied ∧
      emptied.row "a" = some sampleRow ∧
      sampleRow.reclaimableText lateOrigin (15 * minute) (61 * second) = true ∧
      ∀ draws object accessProofHash,
        (openTx (sampleConfig (secretEvent "job" "a" 1)) (fun _ => 61 * second) draws object "a"
          accessProofHash emptied.db).2 = .error .notFound := by
  have hrun : Run (Step (sampleConfig (secretEvent "job" "a" 1)) instantDay) (World.start 1) _ _ :=
    Run.nil.snoc (.create 1 "a" [] sampleInput (Nat.le_refl _)
      ⟨by simp [World.start], by simp [World.start]⟩ rfl)
  exact ⟨_, _, _, hrun, rfl, by decide +kernel, by decide +kernel, rfl, rfl, by decide +kernel,
    by decide +kernel, .cleanup "a" rfl, rfl, by decide +kernel, fun _ _ _ => rfl⟩

end Secrets
end FlickDrop
