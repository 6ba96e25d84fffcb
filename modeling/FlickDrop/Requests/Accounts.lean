import FlickDrop.Requests.FirstWins

/-!
# Every object key is accounted for

A row that lets go of an object key does so in a transaction that enqueues the deletion of
the object.  `Accounts` states this of one transaction; along a run it says that a key some
reservation committed is in its row, or that the step which dropped it enqueued the job.
-/

namespace FlickDrop
namespace Requests

open Foundations Events

/-- What the transaction drops from a row it enqueues. -/
def Accounts (cfg : Config) (db db' : DB) : Prop :=
  ∀ id row key, Table.lookup RequestRow.id id db.requests = some row → row.holds key →
    (∃ row', Table.lookup RequestRow.id id db'.requests = some row' ∧ row'.holds key) ∨
      Enqueued cfg.codec db.outbox db'.outbox key

section

variable {cfg : Config} {env : Env} {now i : Nat} {id token key : String} {db db' : DB}
  {row : RequestRow} {reason : Reason} {outbox' outbox : List OutboxRow} {batch : List RequestRow}
  {generation : Int}

theorem Accounts.same (hrows : db'.requests = db.requests) : Accounts cfg db db' := by
  intro id row key hrow hholds
  exact Or.inl ⟨row, hrows ▸ hrow, hholds⟩

/-- One row is replaced. -/
theorem Updates.accounts {row' : RequestRow} (h : Updates id row row' db db')
    (hdrops : ∀ key, row.holds key → row'.holds key ∨ Enqueued cfg.codec db.outbox db'.outbox key) :
    Accounts cfg db db' := by
  intro other found key hfound hholds
  rw [h.lookup other]
  split
  · rename_i heq
    rw [heq, h.found] at hfound
    obtain rfl := Option.some.inj hfound
    exact (hdrops key hholds).imp_left fun hheld => ⟨row', rfl, hheld⟩
  · exact Or.inl ⟨found, hfound, hholds⟩

/-! ### Delete jobs -/

theorem enqueueObjectTx_enqueued {key : String}
    (h : enqueueObjectTx cfg env i key reason now outbox = .ok outbox') :
    outbox ⊆ outbox' ∧ Enqueued cfg.codec outbox outbox' key := by
  obtain ⟨-, jobID, henqueue⟩ := enqueueObjectTx_cases h
  exact enqueued_enqueueTx henqueue rfl

theorem enqueueKeysTx_enqueued {keys : List (Option String)}
    (h : enqueueKeysTx cfg env reason now i keys outbox = .ok outbox') :
    outbox ⊆ outbox' ∧ ∀ key, some key ∈ keys → Enqueued cfg.codec outbox outbox' key := by
  induction keys generalizing i outbox with
  | nil =>
    cases h
    exact ⟨List.Subset.refl _, nofun⟩
  | cons head rest ih =>
    cases head with
    | none =>
      obtain ⟨hsubset, hrest⟩ := ih h
      refine ⟨hsubset, fun key hmem => hrest key ?_⟩
      exact (List.mem_cons.mp hmem).resolve_left nofun
    | some first =>
      unfold enqueueKeysTx at h
      split at h
      · cases h
      rename_i mid henqueue
      obtain ⟨hfirst, hjob⟩ := enqueueObjectTx_enqueued henqueue
      obtain ⟨hsubset, hrest⟩ := ih h
      refine ⟨List.Subset.trans hfirst hsubset, fun key hmem => ?_⟩
      rcases List.mem_cons.mp hmem with heq | hmem
      · rw [Option.some.inj heq]
        exact hjob.mono (List.Subset.refl _) hsubset
      · exact (hrest key hmem).mono hfirst (List.Subset.refl _)

/-- The keys of a row are enqueued together. -/
theorem enqueueRequestKeysTx_enqueued
    (hfound : Table.lookup RequestRow.id id db.requests = some row)
    (h : enqueueRequestKeysTx cfg env i id reason now db = .ok outbox') :
    db.outbox ⊆ outbox' ∧ ∀ key, row.holds key → Enqueued cfg.codec db.outbox outbox' key := by
  obtain ⟨found, hfound', hkeys⟩ := enqueueRequestKeysTx_cases h
  obtain rfl : row = found := Option.some.inj (hfound.symm.trans hfound')
  obtain ⟨hsubset, hall⟩ := enqueueKeysTx_enqueued hkeys
  refine ⟨hsubset, fun key hholds => hall key ?_⟩
  simpa [RequestRow.holds, eq_comm] using hholds

/-! ### The transactions that drop keys -/

theorem endReservationTx_enqueued (hunique : Table.UniqueKey RequestRow.id db.requests)
    (h : endReservationTx cfg env i id generation now db = .ok db') :
    db.outbox ⊆ db'.outbox ∧ Accounts cfg db db' := by
  obtain ⟨row, -, -, hupdates⟩ := endReservationTx_updates hunique h
  obtain ⟨outbox, henqueue, -, hdb⟩ := endReservationTx_cases h
  obtain ⟨hsubset, hall⟩ := enqueueRequestKeysTx_enqueued hupdates.found henqueue
  have houtbox : db'.outbox = outbox := by rw [hdb]
  rw [← houtbox] at hsubset hall
  exact ⟨hsubset, hupdates.accounts fun key hholds => Or.inr (hall key hholds)⟩

theorem clearPayloadTx_accounts {previousState state : State}
    (hunique : Table.UniqueKey RequestRow.id db.requests)
    (hfound : Table.lookup RequestRow.id id db.requests = some row)
    (hstate : row.state = previousState)
    (h : clearPayloadTx cfg env id previousState state reason db = .ok db') :
    Accounts cfg db db' := by
  have hupdates := clearPayloadTx_updates hunique hfound hstate h
  obtain ⟨outbox, henqueue, hdb⟩ := clearPayloadTx_cases h
  have houtbox : db'.outbox = outbox := by rw [hdb]
  refine hupdates.accounts fun key hholds => Or.inr ?_
  rw [houtbox]
  exact (enqueueRequestKeysTx_enqueued hfound henqueue).2 key hholds

/-- The acceptance drops the upload key.  `hpair` says that it is the one of the copy. -/
theorem acceptTx_accounts {attempt : Bytes} {a : ObjectAttempt} {receipt : Receipt}
    (hunique : Table.UniqueKey RequestRow.id db.requests)
    (hpair : ∀ row, Table.lookup RequestRow.id id db.requests = some row → row.state = .uploading →
      row.finalKey = some a.finalKey → row.uploadKey = some a.uploadKey ∧ a.uploadKey ≠ a.finalKey)
    (h : acceptTx cfg env id token generation attempt a db = .commit db' (.ok (some receipt))) :
    Accounts cfg db db' := by
  obtain ⟨row, hbegins, rfl, -, -, hbody⟩ := acceptTx_cases h
  rcases hbody with ⟨-, rfl⟩ | ⟨huploading, hfinal, -, -, -, outbox, henqueue, hdb⟩
  · exact Accounts.same rfl
  · have hupdates := Updates.of_acceptable hunique hbegins.found huploading hfinal
      (congrArg DB.requests hdb)
    have houtbox : db'.outbox = outbox := by rw [hdb]
    refine hupdates.accounts fun key hholds => ?_
    rcases hholds with hupload | hkept
    · rw [(hpair row hbegins.found huploading hfinal).1] at hupload
      obtain rfl := Option.some.inj hupload
      rw [houtbox]
      exact Or.inr (enqueueObjectTx_enqueued henqueue).2
    · exact Or.inl (Or.inr hkept)

/-- `FinishOpen` drops the key of the opened object.  `hupload` holds of every consumed
row. -/
theorem finishOpen_accounts (hunique : Table.UniqueKey RequestRow.id db.requests)
    (hupload : ∀ row, Table.lookup RequestRow.id id db.requests = some row → row.state = .consumed →
      row.uploadKey = none) (h : finishOpen cfg env id key db = .ok db') : Accounts cfg db db' := by
  rcases finishOpen_cases h with rfl | ⟨haffected, outbox, henqueue, hdb⟩
  · exact Accounts.same rfl
  · obtain ⟨row, hconsumed, hkey, hupdates⟩ := Updates.of_holdsObject hunique haffected
      (congrArg DB.requests hdb) (fun _ => rfl)
    have houtbox : db'.outbox = outbox := by rw [hdb]
    refine hupdates.accounts fun other hholds => ?_
    rcases hholds with hheld | hheld
    · rw [hupload row hupdates.found hconsumed] at hheld
      cases hheld
    · rw [hkey] at hheld
      obtain rfl := Option.some.inj hheld
      rw [houtbox]
      exact Or.inr (enqueueObjectTx_enqueued henqueue).2

/-! ### The purge -/

theorem Accounts.trans {mid : DB} (h : Accounts cfg db mid) (h' : Accounts cfg mid db')
    (hsubset : db.outbox ⊆ mid.outbox) (hsubset' : mid.outbox ⊆ db'.outbox) :
    Accounts cfg db db' := by
  intro id row key hrow hholds
  rcases h id row key hrow hholds with ⟨row₁, hrow₁, hheld⟩ | hjob
  · exact (h' id row₁ key hrow₁ hheld).imp_right fun hjob => hjob.mono hsubset (List.Subset.refl _)
  · exact Or.inr (hjob.mono (List.Subset.refl _) hsubset')

theorem endReservations_accounts (hunique : Table.UniqueKey RequestRow.id db.requests)
    (h : endReservations cfg env now i batch db = .ok db') :
    db.outbox ⊆ db'.outbox ∧ Accounts cfg db db' := by
  induction batch generalizing i db with
  | nil =>
    cases h
    exact ⟨List.Subset.refl _, Accounts.same rfl⟩
  | cons c rest ih =>
    unfold endReservations at h
    split at h
    · cases h
    rename_i mid hend
    obtain ⟨row, -, -, hupdates⟩ := endReservationTx_updates hunique hend
    obtain ⟨hsubset, haccounts⟩ := endReservationTx_enqueued hunique hend
    obtain ⟨hsubset', haccounts'⟩ := ih hupdates.unique h
    exact ⟨List.Subset.trans hsubset hsubset', haccounts.trans haccounts' hsubset hsubset'⟩

/-- One pass of the second loop. -/
theorem deleteRequest_accounts (hunique : Table.UniqueKey RequestRow.id db.requests)
    (h : enqueueRequestKeysTx cfg env i id reason now db = .ok outbox) :
    Accounts cfg db (deleteRequest id { db with outbox := outbox }) := by
  have hlookup : ∀ other, Table.lookup RequestRow.id other
      (deleteRequest id { db with outbox := outbox }).requests =
        if other = id then none else Table.lookup RequestRow.id other db.requests :=
    lookup_deleteRequest hunique id
  intro other row key hrow hholds
  rw [hlookup other]
  split
  · rename_i heq
    rw [heq] at hrow
    exact Or.inr ((enqueueRequestKeysTx_enqueued hrow h).2 key hholds)
  · exact Or.inl ⟨row, hrow, hholds⟩

theorem purgeRequests_accounts (hunique : Table.UniqueKey RequestRow.id db.requests)
    (h : purgeRequests cfg env now i batch db = .ok db') :
    db.outbox ⊆ db'.outbox ∧ Accounts cfg db db' := by
  induction batch generalizing i db with
  | nil =>
    cases h
    exact ⟨List.Subset.refl _, Accounts.same rfl⟩
  | cons c rest ih =>
    unfold purgeRequests at h
    split at h
    · cases h
    rename_i outbox henqueue
    obtain ⟨row, hfound, -⟩ := enqueueRequestKeysTx_cases henqueue
    have hsubset : db.outbox ⊆ outbox := (enqueueRequestKeysTx_enqueued hfound henqueue).1
    obtain ⟨hsubset', haccounts⟩ := ih (hunique.delete _) h
    exact ⟨List.Subset.trans hsubset hsubset',
      (deleteRequest_accounts hunique henqueue).trans haccounts hsubset hsubset'⟩

theorem purgeExpiredTx_accounts {limit : Nat} (hunique : Table.UniqueKey RequestRow.id db.requests)
    (h : purgeExpiredTx cfg env now limit db = .ok db') : Accounts cfg db db' := by
  obtain ⟨_, mid, _, -, hends, -, h⟩ := purgeExpiredTx_cases h
  obtain ⟨hsubset, haccounts⟩ := endReservations_accounts hunique hends
  obtain ⟨hsubset', haccounts'⟩ := purgeRequests_accounts (endReservations_ok hunique hends).1 h
  exact haccounts.trans haccounts' hsubset hsubset'

end

/-! ### Runs -/

section

variable {cfg : Config} {w w' : World} {label : Label} {clock : Nat} {trace : List (Label × World)}

/-- **Step lemma.** -/
theorem Action.accounts {answers : List Answer} (hinv : Inv cfg w)
    (haction : Action cfg w answers w') : Accounts cfg w.db w'.db := by
  cases haction with
  | create now rawID rawSubmit rawRetrieve publicKey ttl hnow hfresh hcreate =>
    obtain ⟨fingerprint, submitHash, retrieveHash, -, -, -, rfl⟩ := create_cases hcreate
    intro id row key hrow hholds
    refine Or.inl ⟨row, ?_, hholds⟩
    show Table.lookup RequestRow.id id (_ ++ _) = some row
    rw [Table.lookup_append, hrow, Option.some_or]
  | expire env henv id token owner hbegin =>
    obtain ⟨generation, hend⟩ := begin_ended hbegin
    exact (endReservationTx_enqueued hinv.unique hend).2
  | submit env henv id token input hsubmit =>
    obtain ⟨_, _, _, row, _, -, hbegins, hgeneration, -, -, hbody⟩ := submit_cases hsubmit
    rcases hbody with ⟨-, -, -, -, rfl⟩ | ⟨hwaiting, -, hdb⟩
    · exact Accounts.same rfl
    · rw [← hgeneration] at hdb
      have hupdates := Updates.of_waiting hinv.unique hbegins.found hwaiting
        (congrArg DB.requests hdb) (fun _ => rfl)
      exact hupdates.accounts fun key hholds => Or.inl hholds
  | reserve env henv rawUpload rawFinal presign id token input hfresh hreserve hanswer =>
    obtain ⟨_, _, _, row, _, -, hbegins, hgeneration, -, hbody⟩ := reserve_cases hreserve hanswer
    rcases hbody with ⟨-, -, -, rfl, -⟩ | ⟨hwaiting, -, deadline, -, hdb⟩
    · exact Accounts.same rfl
    · rw [← hgeneration] at hdb
      have hupdates := Updates.of_waiting hinv.unique hbegins.found hwaiting
        (congrArg DB.requests hdb) (fun _ => rfl)
      obtain ⟨hupload, hfinal⟩ := (hinv.rows id row hbegins.found).waiting_keys hwaiting
      exact hupdates.accounts fun key hholds => absurd hholds (not_holds hupload hfinal)
  | abandon env henv id token input habandon hanswer =>
    obtain ⟨attempt, row, -, -, -, -, -, hend⟩ := abandon_cases habandon hanswer
    exact (endReservationTx_enqueued hinv.unique hend).2
  | openInline env henv id token hopen =>
    obtain ⟨row, hbegins, hsubmitted, -, -, -, -, -, -, -, hclear, -⟩ := openTx_cases hopen
    exact clearPayloadTx_accounts hinv.unique hbegins.found hsubmitted hclear
  | openConsume pid env henv hat hfree hconsume =>
    obtain ⟨-, -, -, haffected, -, hdb⟩ := consumeObject_cases hconsume
    obtain ⟨row, -, -, hupdates⟩ := Updates.of_holdsObject hinv.unique (by rw [haffected]; decide)
      (congrArg DB.requests hdb) (fun _ => rfl)
    exact hupdates.accounts fun key hholds => Or.inl hholds
  | finishOpen pid env henv hat hfinish =>
    refine finishOpen_accounts hinv.unique ?_ hfinish
    intro row hrow hconsumed
    exact (hinv.rows _ row hrow).upload_none (by rw [hconsumed]; decide)
  | revoke env henv id token hrevoke =>
    obtain ⟨row, hbegins, -, hclear⟩ := revoke_cases hrevoke
    exact clearPayloadTx_accounts hinv.unique hbegins.found rfl hclear
  | purge env now limit hclock hnow hpurge => exact purgeExpiredTx_accounts hinv.unique hpurge
  | accept pid env henv hat hphase hsecond =>
    exact acceptTx_accounts hinv.unique (hinv.pair hat hphase) hsecond
  | attempt env henv id token generation attemptToken hattempt =>
    exact Accounts.same (congrArg DB.requests (attempt_ok hattempt).1)
  | openRead pid env henv id token object hfree hopen hobject =>
    exact Accounts.same (congrArg DB.requests (openTx_read hopen))
  | finalizePass pid env henv hat hphase hfirst | finalizeReceipt pid env henv hat hphase hfirst =>
    exact Accounts.same (congrArg DB.requests (finalizeTx_ok hfirst).1)
  | _ => exact Accounts.same rfl

/-- The row of the request refers to the object. -/
def World.Refers (w : World) (id key : String) : Prop :=
  ∃ row, w.row id = some row ∧ row.holds key

/-- **Every object key is accounted for.**  A key that a request refers to in some state of
a run is one it still refers to later on, or the step that dropped the reference enqueued
the deletion of the object. -/
theorem every_key_accounted_for (hrun : Run (Step cfg) (World.start clock) trace w)
    {id key : String} (hrefers : w.Refers id key) {later : List (Label × World)} {final : World}
    (hlater : Run (Step cfg) w later final) :
    final.Refers id key ∨
      ∃ front label before after back, later = front ++ (label, after) :: back ∧
        Run (Step cfg) w front before ∧ Step cfg before label after ∧ before.Refers id key ∧
        ¬ after.Refers id key ∧ Enqueued cfg.codec before.db.outbox after.db.outbox key := by
  -- the induction is on the later run; the disjunct that drops the key is kept as it is
  induction hlater with
  | nil => exact Or.inl hrefers
  | @snoc later before after label hfront hstep ih =>
    rcases ih with hheld | ⟨front, label', before', after', back, rfl, hrest⟩
    · by_cases hstill : after.Refers id key
      · exact Or.inl hstill
      · refine Or.inr ⟨later, label, before, after, [], rfl, hfront, hstep, hheld, hstill, ?_⟩
        obtain ⟨row, hrow, hholds⟩ := hheld
        have hinv : Inv cfg before := inv_of_run (hrun.append hfront)
        rcases hstep.1.accounts hinv id row key hrow hholds with hkept | hjob
        · exact absurd hkept hstill
        · exact hjob
    · exact Or.inr ⟨front, label', before', after', back ++ [(label, after)], by simp, hrest⟩

end

/-! ### A concrete run -/

def sampleUpload (attempt checksum : UInt8) (generation : Int) : UploadInput where
  generation := generation
  attemptToken := sampleToken attempt
  kind := .file
  sizeBytes := 32
  envelope := [0]
  ciphertextSHA256 := stdEncoding.encodeToString (List.replicate 32 checksum)

def sampleUploadKey : String := uploadKeyOf (List.replicate 16 1)

def sampleFinalKey : String := finalKeyOf (List.replicate 16 2)

/-- The jobs that delete the two objects of the sample reservation. -/
def sampleCodec : Codec :=
  pairCodec (objectEvent "job-1" sampleUploadKey .orphan 1)
    (objectEvent "job-2" sampleFinalKey .orphan 1)

def sampleJobs (i : Nat) : Option String := some (if i = 0 then "job-1" else "job-2")

def reservedRow : RequestRow :=
  sampleRow.reserve ⟨List.replicate 32 3, List.replicate 32 123, 32,
    Envelope.marshal ⟨2, stdEncoding.encodeToString ageMagic⟩, List.replicate 32 97,
    sampleUploadKey, sampleFinalKey, 1 + 60 * second⟩

def reservedWorld : World :=
  { sampleWorld with
    db := { sampleWorld.db with requests := [reservedRow] }
    used := [sampleUploadKey, sampleFinalKey] }

/-- The state in which the reservation is given up. -/
def abandonedDB : DB :=
  { reservedWorld.db with
    requests := [reservedRow.endReservation 1]
    outbox := [.pending "jobs" "first" 1 (objectEvent "job-1" sampleUploadKey .orphan 1),
      .pending "jobs" "second" 1 (objectEvent "job-2" sampleFinalKey .orphan 1)] }

theorem sample_creation : Action (digestConfig sampleCodec) (World.start 1) [] sampleWorld := by
  have hcreate : create (digestConfig sampleCodec) 1 (List.replicate 16 0) (List.replicate 32 1)
      (List.replicate 32 2) "age1" none DB.empty =
        .ok (sampleWorld.db, ⟨sampleID, 1 + 60 * second, sampleToken 1, sampleToken 2⟩) := by
    decide +kernel
  exact sample_created hcreate

theorem sample_reserves :
    reserve (digestConfig sampleCodec) (stillEnv 1 sampleJobs) (List.replicate 16 1)
      (List.replicate 16 2) (some "url") sampleID (sampleToken 1) (sampleUpload 3 97 1)
      sampleWorld.db =
        .commit reservedWorld.db (.ok (some ⟨1, .uploading, some ("url", 1 + 60 * second)⟩)) := by
  decide +kernel

theorem sample_reservation : Action (digestConfig sampleCodec) sampleWorld [] reservedWorld :=
  Action.reserve (w := sampleWorld) (stillEnv 1 sampleJobs) (stillEnv_within 1 _) _ _ _ _ _ _
    ⟨List.not_mem_nil, List.not_mem_nil, by decide⟩ sample_reserves (by simp)

theorem sample_abandons :
    abandon (digestConfig sampleCodec) (stillEnv 1 sampleJobs) sampleID (sampleToken 1)
      ⟨1, sampleToken 3⟩ reservedWorld.db = .commit abandonedDB (.ok (some ⟨2, .waiting⟩)) := by
  decide +kernel

theorem sample_abandonment :
    Action (digestConfig sampleCodec) reservedWorld [] (reservedWorld.setDB 1 abandonedDB) :=
  Action.abandon (w := reservedWorld) (stillEnv 1 sampleJobs) (stillEnv_within 1 _) _ _ _
    sample_abandons (by simp)

theorem sample_reserved :
    ∃ trace, Run (Step (digestConfig sampleCodec)) (World.start 1) trace reservedWorld :=
  ⟨_, (Run.nil.snoc sample_creation.step).snoc sample_reservation.step⟩

/-- A reservation is given up. -/
theorem every_key_accounted_for_abandoned :
    ∃ (trace later : List (Label × World)) (w final : World),
      Run (Step (digestConfig sampleCodec)) (World.start 1) trace w ∧
      w.Refers sampleID sampleFinalKey ∧ Run (Step (digestConfig sampleCodec)) w later final ∧
      ¬ final.Refers sampleID sampleFinalKey ∧
      ∃ front label before after back, later = front ++ (label, after) :: back ∧
        Run (Step (digestConfig sampleCodec)) w front before ∧
        Step (digestConfig sampleCodec) before label after ∧
        before.Refers sampleID sampleFinalKey ∧ ¬ after.Refers sampleID sampleFinalKey ∧
        Enqueued sampleCodec before.db.outbox after.db.outbox sampleFinalKey := by
  have hlater : Run (Step (digestConfig sampleCodec)) reservedWorld _ _ :=
    Run.nil.snoc sample_abandonment.step
  have hrefers : reservedWorld.Refers sampleID sampleFinalKey := ⟨reservedRow, rfl, Or.inr rfl⟩
  have hgone : ¬ World.Refers (reservedWorld.setDB 1 abandonedDB) sampleID sampleFinalKey := by
    rintro ⟨row, hrow, hholds⟩
    obtain rfl : reservedRow.endReservation 1 = row := Option.some.inj hrow
    exact not_holds rfl rfl hholds
  obtain ⟨trace, hrun⟩ := sample_reserved
  exact ⟨trace, _, _, _, hrun, hrefers, hlater, hgone,
    (every_key_accounted_for hrun hrefers hlater).resolve_left hgone⟩

end Requests
end FlickDrop
