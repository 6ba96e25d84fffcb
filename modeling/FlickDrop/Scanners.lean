import FlickDrop.Events.Scans
import FlickDrop.Secrets.Records
import FlickDrop.Secrets.Spares
import FlickDrop.Requests.Purge
import FlickDrop.Requests.System

/-!
# Both scanners never skip a page

The secrets service and the requests service are, for the tables of reconciliation,
systems of scanners: their scan steps are calls of `ReconcileOnce`, and no other transaction
touches the cursor row.  So in both the committed cursors form the chain of `Events.Scans`.
-/

namespace FlickDrop

open Foundations Events

/-! ### Secrets -/

namespace Secrets

variable {cfg : Config} {julian : JulianDay}

theorem create_book {instant : Nat} {id : String} {raw : Bytes} {input : CreateInput}
    {token : String} {db db' : DB} (h : create cfg instant id raw input db = .ok (db', token)) :
    db'.book = db.book := by
  obtain ⟨_, -, -, -, hmanagement⟩ := create_cases h
  exact (createManagementTx_book hmanagement).1

/-- The reconciliation tables of the service and its scanners. -/
def World.scan (w : World) : ScanState :=
  ScanState.of w.db.book w.db.outbox w.scanners

/-- The scanner tests the rows as they are when its transaction commits. -/
def World.ScanEnvs (cfg : Config) (w : World) (env : ScanEnv) : Prop :=
  ∃ draws, env = scanEnv cfg draws w.clock w.db.secrets

/-- **Refinement.**  Every step of the service is a step of its scanners. -/
theorem Step.scan {w w' : World} {label : Label} (hvalid : ValidScanners w.scanners)
    (hstep : Step cfg julian w label w') :
    ValidScanners w'.scanners ∧ Scans .secrets (w.ScanEnvs cfg) w.scan w'.scan := by
  cases hstep with
  | scanBegin pid hfree =>
    exact ⟨hvalid.update (by rintro _ ⟨⟩; trivial), Scans.begin hfree⟩
  | scanListed pid limit page hat hpage hthere =>
    exact ⟨hvalid.update (by rintro _ ⟨⟩; exact ⟨limit, hpage⟩), Scans.listed hat⟩
  | scanReset pid hat =>
    exact ⟨hvalid.update (by rintro _ ⟨⟩), Scans.reset hat rfl ⟨⟨[], fun _ => none⟩, rfl⟩⟩
  | scanCommit pid draws hat hcommit =>
    exact ⟨hvalid.update (by rintro _ ⟨⟩), Scans.commit hvalid hat rfl ⟨draws, rfl⟩ hcommit⟩
  | scanEnd pid => exact ⟨hvalid.update (by rintro _ ⟨⟩), Scans.ended⟩
  | create now id raw input hnow hfresh hcreate =>
    exact ⟨hvalid, Scans.other (congrArg Book.cursor (create_book hcreate))⟩
  | createLarge now id raw presign input hnow hfresh hcreate =>
    exact ⟨hvalid, Scans.other (congrArg Book.cursor (createLarge_spares hcreate).book)⟩
  | finalizeEnd pid head hat hactivate =>
    obtain rfl := finalizeActivate_ok hactivate
    exact ⟨hvalid, Scans.other rfl⟩
  | opened pid readings draws object id accessProofHash hfree hopen =>
    exact ⟨hvalid, Scans.other (congrArg Book.cursor (openAndEnqueueCleanup_spares hopen).book)⟩
  | refused readings draws object id accessProofHash hopen =>
    exact ⟨hvalid, Scans.other (congrArg Book.cursor (openAndEnqueueCleanup_spares hopen).book)⟩
  | streamCleanup pid readings draws hat henqueue =>
    exact ⟨hvalid, Scans.other (congrArg Book.cursor (enqueueObject_spares henqueue).book)⟩
  | revoke readings draws id token hrevoke =>
    exact ⟨hvalid, Scans.other (congrArg Book.cursor (revoke_spares hrevoke).book)⟩
  | cleanup id hcleanup =>
    exact ⟨hvalid, Scans.other (congrArg Book.cursor (cleanup_spares hcleanup).book)⟩
  | claimExpired batchSize now draws purgeRequests hclock hnow hforeign hclaim =>
    exact ⟨hvalid, Scans.other (congrArg Book.cursor (claimExpired_spares hclaim).book)⟩
  | tick | put | objectGone | outbox | finalizeBegin | finalizeFail | streamEnd | streamLost
  | acknowledge => exact ⟨hvalid, Scans.other rfl⟩

theorem scan_of_run {clock : Nat} {trace : List (Label × World)} {w : World}
    (hrun : Run (Step cfg julian) (World.start clock) trace w) :
    ValidScanners w.scanners ∧ w.scan.Current := by
  refine Run.invariant (fun w => ValidScanners w.scanners ∧ w.scan.Current) ⟨?_, ?_⟩ ?_ hrun
  · intro pid scanner hat
    cases hat
  · intro pid read hread
    cases hread
  · rintro w label w' ⟨hvalid, hcurrent⟩ hstep
    obtain ⟨hvalid', l, hscan, -⟩ := hstep.scan hvalid
    exact ⟨hvalid', hscan.current hcurrent⟩

end Secrets

/-! ### Requests -/

namespace Requests

section

variable {cfg : Config} {env : Env} {id token : String} {db db' : DB} {batch : List RequestRow}
  {receipt : Receipt} {generation : Int}

theorem endReservationTx_book {i now : Nat}
    (h : endReservationTx cfg env i id generation now db = .ok db') : db'.book = db.book := by
  obtain ⟨_, -, -, rfl⟩ := endReservationTx_cases h
  rfl

theorem clearPayloadTx_book {previousState state : State} {reason : Reason}
    (h : clearPayloadTx cfg env id previousState state reason db = .ok db') :
    db'.book = db.book := by
  obtain ⟨_, -, rfl⟩ := clearPayloadTx_cases h
  rfl

theorem submit_book {input : SubmitInput}
    (h : submit cfg env id token input db = .commit db' (.ok (some receipt))) :
    db'.book = db.book := by
  obtain ⟨_, _, _, _, _, -, -, -, -, -, ⟨-, -, -, -, rfl⟩ | ⟨-, -, rfl⟩⟩ := submit_cases h <;> rfl

theorem reserve_book {rawUpload rawFinal : Bytes} {presign : Option String} {input : UploadInput}
    {answer : Except Err (Option UploadResult)}
    (h : reserve cfg env rawUpload rawFinal presign id token input db = .commit db' answer)
    (hanswer : answer ≠ .ok none) : db'.book = db.book := by
  obtain ⟨_, _, _, _, _, -, -, -, -, ⟨-, -, -, rfl, -⟩ | ⟨-, -, _, -, rfl, -⟩⟩ :=
    reserve_cases h hanswer <;> rfl

theorem acceptTx_book {attempt : Bytes} {a : ObjectAttempt}
    (h : acceptTx cfg env id token generation attempt a db = .commit db' (.ok (some receipt))) :
    db'.book = db.book := by
  obtain ⟨_, -, -, -, -, ⟨-, rfl⟩ | ⟨-, -, -, -, -, _, -, rfl⟩⟩ := acceptTx_cases h <;> rfl

theorem openTx_book {opening : Opening}
    (h : openTx cfg env id token db = .commit db' (.ok (some opening))) : db'.book = db.book := by
  obtain ⟨_, -, -, _, _, _, -, -, -, hopening⟩ := openTx_cases h
  cases opening with
  | inline opened => exact clearPayloadTx_book hopening.2.1
  | object kind sizeBytes envelope key => rw [hopening.2.1]

theorem finishOpen_book {key : String} (h : finishOpen cfg env id key db = .ok db') :
    db'.book = db.book := by
  rcases finishOpen_cases h with rfl | ⟨-, _, -, rfl⟩ <;> rfl

theorem endReservations_book {now i : Nat} (h : endReservations cfg env now i batch db = .ok db') :
    db'.book = db.book := by
  induction batch generalizing i db with
  | nil =>
    cases h
    rfl
  | cons c rest ih =>
    rw [endReservations] at h
    split at h
    · cases h
    rename_i mid hmid
    exact (ih h).trans (endReservationTx_book hmid)

theorem purgeRequests_book {now i : Nat} (h : purgeRequests cfg env now i batch db = .ok db') :
    db'.book = db.book := by
  induction batch generalizing i db with
  | nil =>
    cases h
    rfl
  | cons c rest ih =>
    rw [purgeRequests] at h
    split at h
    · cases h
    exact (ih h).trans rfl

theorem purgeExpiredTx_book {now limit : Nat} (h : purgeExpiredTx cfg env now limit db = .ok db') :
    db'.book = db.book := by
  obtain ⟨_, mid, _, -, hmid, -, h⟩ := purgeExpiredTx_cases h
  exact (purgeRequests_book h).trans (endReservations_book hmid)

end

/-- The reconciliation tables of the service and its scanners. -/
def World.scan (w : World) : ScanState :=
  ScanState.of w.db.book w.db.outbox w.scanners

/-- The scanner tests the rows as they are when its transaction commits. -/
def World.ScanEnvs (cfg : Config) (w : World) (scan : ScanEnv) : Prop :=
  ∃ env, scan = scanEnv cfg env w.clock w.db.requests

/-- **Refinement.**  Every action of the service is a step of its scanners. -/
theorem Action.scan {cfg : Config} {w w' : World} {answers : List Answer}
    (hvalid : ValidScanners w.scanners) (haction : Action cfg w answers w') :
    ValidScanners w'.scanners ∧ Scans .requests (w.ScanEnvs cfg) w.scan w'.scan := by
  cases haction with
  | scanBegin pid hfree =>
    exact ⟨hvalid.update (by rintro _ ⟨⟩; trivial), Scans.begin hfree⟩
  | scanListed pid limit page hat hpage hthere =>
    exact ⟨hvalid.update (by rintro _ ⟨⟩; exact ⟨limit, hpage⟩), Scans.listed hat⟩
  | scanReset pid hat =>
    exact ⟨hvalid.update (by rintro _ ⟨⟩),
      Scans.reset hat rfl ⟨⟨fun _ => w.clock, fun _ => w.clock, ⟨[], fun _ => none⟩⟩, rfl⟩⟩
  | scanCommit pid env hat hcommit =>
    exact ⟨hvalid.update (by rintro _ ⟨⟩), Scans.commit hvalid hat rfl ⟨env, rfl⟩ hcommit⟩
  | scanEnd pid => exact ⟨hvalid.update (by rintro _ ⟨⟩), Scans.ended⟩
  | create now rawID rawSubmit rawRetrieve publicKey ttl hnow hfresh hcreate =>
    obtain ⟨_, _, _, -, -, -, rfl⟩ := create_cases hcreate
    exact ⟨hvalid, Scans.other rfl⟩
  | expire env henv id token owner hbegin =>
    obtain ⟨_, hend⟩ := begin_ended hbegin
    exact ⟨hvalid, Scans.other (congrArg Book.cursor (endReservationTx_book hend))⟩
  | submit env henv id token input hsubmit =>
    exact ⟨hvalid, Scans.other (congrArg Book.cursor (submit_book hsubmit))⟩
  | reserve env henv rawUpload rawFinal presign id token input hfresh hreserve hanswer =>
    exact ⟨hvalid, Scans.other (congrArg Book.cursor (reserve_book hreserve hanswer))⟩
  | attempt env henv id token generation attemptToken hattempt =>
    obtain ⟨rfl, -⟩ := attempt_ok hattempt
    exact ⟨hvalid, Scans.other rfl⟩
  | abandon env henv id token input habandon hanswer =>
    obtain ⟨_, _, -, -, -, -, -, hend⟩ := abandon_cases habandon hanswer
    exact ⟨hvalid, Scans.other (congrArg Book.cursor (endReservationTx_book hend))⟩
  | openInline env henv id token hopen =>
    exact ⟨hvalid, Scans.other (congrArg Book.cursor (openTx_book hopen))⟩
  | openRead pid env henv id token object hfree hopen hobject =>
    exact ⟨hvalid, Scans.other (congrArg Book.cursor (openTx_book hopen))⟩
  | openConsume pid env henv hat hfree hconsume =>
    obtain ⟨_, -, -, -, -, rfl⟩ := consumeObject_cases hconsume
    exact ⟨hvalid, Scans.other rfl⟩
  | finishOpen pid env henv hat hfinish =>
    exact ⟨hvalid, Scans.other (congrArg Book.cursor (finishOpen_book hfinish))⟩
  | revoke env henv id token hrevoke =>
    obtain ⟨_, -, -, hclear⟩ := revoke_cases hrevoke
    exact ⟨hvalid, Scans.other (congrArg Book.cursor (clearPayloadTx_book hclear))⟩
  | purge env now limit hclock hnow hpurge =>
    exact ⟨hvalid, Scans.other (congrArg Book.cursor (purgeExpiredTx_book hpurge))⟩
  | finalizePass pid env henv hat hphase hfirst =>
    obtain ⟨rfl, -⟩ := finalizeTx_ok hfirst
    exact ⟨hvalid, Scans.other rfl⟩
  | finalizeReceipt pid env henv hat hphase hfirst =>
    obtain ⟨rfl, -⟩ := finalizeTx_ok hfirst
    exact ⟨hvalid, Scans.other rfl⟩
  | accept pid env henv hat hphase hsecond =>
    exact ⟨hvalid, Scans.other (congrArg Book.cursor (acceptTx_book hsecond))⟩
  | _ => exact ⟨hvalid, Scans.other rfl⟩

theorem scan_of_run {cfg : Config} {clock : Nat} {trace : List (Label × World)} {w : World}
    (hrun : Run (Step cfg) (World.start clock) trace w) :
    ValidScanners w.scanners ∧ w.scan.Current := by
  refine Run.invariant (fun w => ValidScanners w.scanners ∧ w.scan.Current) ⟨?_, ?_⟩ ?_ hrun
  · intro pid scanner hat
    cases hat
  · intro pid read hread
    cases hread
  · rintro w label w' ⟨hvalid, hcurrent⟩ hstep
    obtain ⟨hvalid', l, hscan, -⟩ := hstep.1.scan hvalid
    exact ⟨hvalid', hscan.current hcurrent⟩

end Requests
/-- **No page is skipped.**  In a system of scanners with any number of calls, crashes and
resets, every step is a step of the chain of committed cursors (`Chained`): a call that
commits a page listed it from exactly the committed cursor, moves the cursor to the next one
of the page and settles every key of the page; a call whose listing the store refused as
invalid resets a non-empty committed cursor; every other call, however it fails, leaves
cursor, claims and outbox alone; and the rest of the service leaves the cursor alone.  Both
services are such systems, whatever else they do meanwhile, and their scanners test the rows
they find when they commit. -/
theorem no_page_skipped :
    (∀ (area : Area) (s₀ : ScanState) (trace : List (ScanLabel × ScanState)) (s : ScanState),
      s₀.Current → Run (ScanStep area) s₀ trace s →
      ∀ label s', ScanStep area s label s' → Chained area s label s') ∧
    (∀ (cfg : Secrets.Config) (julian : Secrets.JulianDay) (clock : Nat)
      (trace : List (Secrets.Label × Secrets.World)) (w : Secrets.World),
      Run (Secrets.Step cfg julian) (Secrets.World.start clock) trace w →
      ∀ front label after back, trace = front ++ (label, after) :: back →
      ∃ before l, Run (Secrets.Step cfg julian) (Secrets.World.start clock) front before ∧
        ScanStep .secrets before.scan l after.scan ∧
        (∀ env, l.env = some env → before.ScanEnvs cfg env) ∧
        Chained .secrets before.scan l after.scan) ∧
    ∀ (cfg : Requests.Config) (clock : Nat) (trace : List (Requests.Label × Requests.World))
      (w : Requests.World), Run (Requests.Step cfg) (Requests.World.start clock) trace w →
      ∀ front label after back, trace = front ++ (label, after) :: back →
      ∃ before l, Run (Requests.Step cfg) (Requests.World.start clock) front before ∧
        ScanStep .requests before.scan l after.scan ∧
        (∀ env, l.env = some env → before.ScanEnvs cfg env) ∧
        Chained .requests before.scan l after.scan := by
  refine ⟨?_, ?_, ?_⟩
  · intro area s₀ trace s hstart hrun label s' hstep
    have hcurrent : s.Current :=
      Run.invariant ScanState.Current hstart (fun _ _ _ hs h => h.current hs) hrun
    exact hstep.chained hcurrent
  · rintro cfg julian clock _ w hrun front label after back rfl
    obtain ⟨before, hfront, hstep, -⟩ := hrun.split
    obtain ⟨hvalid, hcurrent⟩ := Secrets.scan_of_run hfront
    obtain ⟨-, l, hscan, henv⟩ := hstep.scan hvalid
    exact ⟨before, l, hfront, hscan, henv, hscan.chained hcurrent⟩
  · rintro cfg clock _ w hrun front label after back rfl
    obtain ⟨before, hfront, hstep, -⟩ := hrun.split
    obtain ⟨hvalid, hcurrent⟩ := Requests.scan_of_run hfront
    obtain ⟨-, l, hscan, henv⟩ := hstep.1.scan hvalid
    exact ⟨before, l, hfront, hscan, henv, hscan.chained hcurrent⟩

/-- The environment of a scan that finds nothing. -/
def idleScan : ScanEnv where
  codec := singleCodec (orphanEvent "job" "key" 1)
  subject := "jobs"
  carrier := []
  area := .secrets
  protect := fun _ => .ok false
  now := 1
  newJobID := fun _ => none
  enqueueNow := fun _ => 1

/-- An empty page is committed; then the store refuses the cursor it led to. -/
theorem no_page_skipped_refused_cursor :
    ∃ s s' : ScanState, s.book.cursor = ⟨"next", 1⟩ ∧ Resets s 1 s' := by
  have hstart : ScanState.Current ⟨Book.fresh, [], fun _ => none⟩ := by
    intro pid read hread
    cases hread
  have hrun : Run (ScanStep .secrets) ⟨Book.fresh, [], fun _ => none⟩ _ _ :=
    Run.snoc (Run.snoc (Run.snoc Run.nil (ScanStep.began 0 rfl))
      (ScanStep.finished 0 idleScan 1 (.page ⟨[], "next"⟩) rfl rfl rfl)) (ScanStep.began 1 rfl)
  have hchained := no_page_skipped.1 .secrets _ _ _ hstart hrun _ _
    (ScanStep.finished 1 idleScan 1 .invalidCursor rfl rfl rfl)
  refine ⟨_, _, rfl, hchained.resolve_left ?_⟩
  rintro ⟨hbook, -⟩
  have hgeneration : (2 : Nat) = 1 := congrArg (fun book => book.cursor.generation) hbook
  cases hgeneration

end FlickDrop
