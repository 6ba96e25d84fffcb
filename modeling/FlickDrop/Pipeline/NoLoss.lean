import FlickDrop.Pipeline.Invariant

/-!
# The pipeline keeps every job

The step lemma of the pipeline invariant, and what follows from it: no committed event
is ever without a row to publish, a message to deliver or a terminal receipt, and a
claim lives only as long as its job is on its way.
-/

namespace FlickDrop
namespace Pipeline

open Foundations Events Worker

section Calls

variable {cfg : Config} {w : World} {payload : String} {e : JobEvent} {w' : World} {label : Label}
  {outbox : List OutboxRow} {result : ProcessResult} {err : Option Failure} {m : Message}
  {pid after : Nat} {claims : List Claim} {area : Area}

/-- A delivered payload decodes to the event it was committed with. -/
theorem Listed.decodes (h : Listed cfg w payload e) : decodeJobEvent cfg.codec payload = .ok e := by
  obtain ⟨-, -, -, -, hencodes⟩ := h
  exact hencodes.decodes

theorem Listed.valid (h : Listed cfg w payload e) : e.validate = .ok () := by
  obtain ⟨-, -, -, -, hencodes⟩ := h
  exact hencodes.valid

/-- Two events committed under one job id are one event. -/
theorem Inv.event_unique (h : Inv cfg w) {payload' : String} {e' : JobEvent}
    (hlisted : Listed cfg w payload e) (hlisted' : Listed cfg w payload' e')
    (hid : e.jobID = e'.jobID) : e = e' := by
  obtain ⟨row, hrow, hpayload, hrowID, hencodes⟩ := hlisted
  obtain ⟨row', hrow', hpayload', hrowID', hencodes'⟩ := hlisted'
  have hfound := Table.lookup_of_mem h.unique hrow
  rw [hrowID, hid, ← hrowID', Table.lookup_of_mem h.unique hrow'] at hfound
  obtain rfl := Option.some.inj hfound
  rw [← hpayload] at hencodes
  rw [← hpayload'] at hencodes'
  exact hencodes.unique hencodes'

/-- The receipt of a committed event has its kind. -/
theorem Inv.receipt_kind (h : Inv cfg w) {r : Receipt} (hlisted : Listed cfg w payload e)
    (hload : loadReceipt e.jobID w.worker = some r) : r.kind = e.kind.text := by
  obtain ⟨payload', e', hlisted', hid, hkind⟩ := h.kinds r (Table.lookup_mem hload)
  have hjob : r.jobID = e.jobID := Table.lookup_key hload
  rw [h.event_unique hlisted hlisted' (hjob.symm.trans hid.symm)]
  exact hkind.symm

theorem Listed.extend (h : Listed cfg w payload e) (hextends : Extends w.outbox outbox) :
    Listed cfg { w with outbox := outbox } payload e := by
  have hgrows : Grows w { w with outbox := outbox } := Grows.of_outbox hextends rfl rfl
  exact h.mono hgrows

theorem Inv.acknowledge (h : Inv cfg w) {jobID key : String}
    (hclaims : area.acknowledgeObjectCleanup jobID key (w.books area).claims = some claims) :
    Inv cfg (w.setBook area { w.books area with claims := claims }) :=
  h.setBook area (fun c hc => ((mem_acknowledge hclaims c).mp hc).1)
    (uniqueKey_acknowledge hclaims (h.claimKeys area))

/-- The claim an acknowledgement of `e` removes is the only one that names its job. -/
theorem Inv.acknowledged (h : Inv cfg w) (hlisted : Listed cfg w payload e)
    (hclaims : (acknowledgeArea e.objectKey).acknowledgeObjectCleanup e.jobID e.objectKey
      (w.books (acknowledgeArea e.objectKey)).claims = some claims) (area : Area) (c : Claim)
    (hc : c ∈ ((w.setBook (acknowledgeArea e.objectKey)
      { w.books (acknowledgeArea e.objectKey) with claims := claims }).books area).claims) :
    c.jobID ≠ e.jobID := by
  intro hjob
  have hold : c ∈ (w.books area).claims := by
    simp only [World.setBook, Function.update_apply] at hc
    split at hc
    · rename_i heq
      rw [heq]
      exact ((mem_acknowledge hclaims c).mp hc).1
    · exact hc
  obtain ⟨payload', e', hlisted', hid, -, hkey, howns⟩ := h.claimed area c hold
  obtain rfl := h.event_unique hlisted hlisted' (hjob.symm.trans hid.symm)
  have harea : acknowledgeArea e.objectKey = area := by
    rw [hkey]
    exact acknowledgeArea_of_owns howns
  simp only [World.setBook, harea, Function.update_self] at hc
  rw [harea] at hclaims
  refine ((mem_acknowledge hclaims c).mp hc).2 ?_
  cases c
  simp only at hkey hjob
  rw [hkey, hjob]

/-- A job whose deletion needs no acknowledgement has no claim. -/
theorem Inv.unclaimed (h : Inv cfg w) (hlisted : Listed cfg w payload e)
    (hquiet : e.kind ≠ .deleteOCIObject ∨ requiresObjectAcknowledgement e.objectKey = false)
    (area : Area) (c : Claim) (hc : c ∈ (w.books area).claims) : c.jobID ≠ e.jobID := by
  intro hjob
  obtain ⟨payload', e', hlisted', hid, hkind, hkey, howns⟩ := h.claimed area c hc
  obtain rfl := h.event_unique hlisted hlisted' (hjob.symm.trans hid.symm)
  rcases hquiet with hother | hunmanaged
  · exact hother hkind
  · rw [hkey] at hunmanaged
    unfold requiresObjectAcknowledgement at hunmanaged
    rw [Bool.or_eq_false_iff] at hunmanaged
    cases area with
    | secrets => simp [hunmanaged.1] at howns
    | requests => simp [hunmanaged.2] at howns

/-! ### The calls in flight -/

theorem Inv.enqueue (h : Inv cfg w) {carrier : List (String × String)} {event : JobEvent}
    (henqueue : enqueueTx cfg.codec cfg.subject carrier w.clock event w.outbox = .ok outbox) :
    Inv cfg { w with outbox := outbox } := by
  obtain ⟨payloadJSON, hencodes, hfree, rfl⟩ := enqueueTx_ok henqueue
  refine h.appendRow w.books ?_ rfl rfl hencodes (fun _ _ hc => Or.inl hc) h.claimKeys
  show Table.lookup OutboxRow.id (injectTraceContext carrier event).jobID w.outbox = none
  rw [injectTraceContext_jobID]
  exact hfree

/-- The whole page of a scan. -/
theorem Inv.commitPage (h : Inv cfg w) {env : ScanEnv} (hcodec : env.codec = cfg.codec)
    {read : Cursor} {page : Page} {book : Book} {count : Nat}
    (hcommit : Events.commitPage env read page (w.books env.area) w.outbox =
      .ok (book, outbox, count)) :
    Inv cfg (World.setBook { w with outbox := outbox } env.area book) := by
  unfold Events.commitPage at hcommit
  split at hcommit
  · cases hcommit
    exact h.setBook env.area (fun _ hc => hc) (h.claimKeys env.area)
  · split at hcommit
    · cases hcommit
    rename_i scan hvisit
    cases hcommit
    -- the invariant of the loop is the invariant of the world with what it wrote so far
    refine visitKeys_invariant
      (fun s => Inv cfg (World.setBook { w with outbox := s.outbox } env.area
        ⟨⟨page.nextCursor, read.generation + 1⟩, s.claims⟩)) ?_ ?_ hvisit
    · intro s s' claim e row hs hone _ _
      have happend := hs.appendRow
        (Function.update w.books env.area
          ⟨⟨page.nextCursor, read.generation + 1⟩, s.claims ++ [claim]⟩)
        (by rw [hone.rowID]; exact hone.idFree) hone.pending
        (hone.rowID.trans hone.jobID.symm) (hcodec ▸ hone.encodes) ?_ ?_
      · simpa only [World.setBook, hone.claims, hone.outbox] using happend
      · intro area c hc
        by_cases harea : area = env.area
        · subst harea
          simp only [World.setBook, Function.update_self, List.mem_append,
            List.mem_singleton] at hc ⊢
          rcases hc with hc | rfl
          · exact Or.inl hc
          · exact Or.inr ⟨hone.jobID.symm, hone.kind, hone.key, hone.owned⟩
        · simp only [World.setBook, Function.update_of_ne harea] at hc ⊢
          exact Or.inl hc
      · intro area
        by_cases harea : area = env.area
        · subst harea
          have hold := hs.claimKeys env.area
          simp only [World.setBook, Function.update_self] at hold ⊢
          exact hold.append hone.keyFree
        · have hold := hs.claimKeys area
          simpa only [World.setBook, Function.update_of_ne harea] using hold
    · exact h.setBook env.area (fun _ hc => hc) (h.claimKeys env.area)

/-- `Start` for a committed event. -/
theorem Inv.start (h : Inv cfg w) (hlisted : Listed cfg w m.payload e)
    (hjson : e.json cfg.codec = .ok payload) (readings : Readings w.clock after) :
    Inv cfg ((w.setWorker after ((Worker.start readings.now e.jobID e.kind.text payload
        cfg.maxAttempts w.worker).state w.worker)).setDelivery pid
      (match afterStart (Worker.start readings.now e.jobID e.kind.text payload
          cfg.maxAttempts w.worker).answer with
      | .handle attempt => some (.started m e attempt)
      | .finish result err => some (.processed m e result err))) := by
  have hstore := h.store.start cfg.maxAttempts_pos readings e.jobID e.kind.text payload
  have hjobID : e.jobID ≠ "" := by
    intro hempty
    have hblank := validate_jobID hlisted.valid
    rw [hempty, blank_empty] at hblank
    cases hblank
  have hkind : e.kind.text ≠ "" := by
    rcases (validate_kind hlisted.valid).1 with ⟨hkind, -⟩ | ⟨hkind, -⟩ <;>
      simp [hkind, Kind.text]
  have hsound := afterStart_sound readings.now cfg.maxAttempts_pos hjobID hkind
    (json_eq_ok.mp hjson).nonempty (fun r hload => h.receipt_kind hlisted hload) hstore
  have hworker := h.setWorker (start_moved h.store readings.now e.jobID e.kind.text payload)
    (fun attemptID jobID ha => ha.start _ _ _ _ _) hstore
    (h.kinds.start _ ⟨_, e, hlisted, rfl, rfl⟩ _ _)
  refine hworker.setDelivery pid ?_
  intro delivery hdelivery
  generalize afterStart _ = next at hsound hdelivery
  cases next with
  | handle attempt =>
    obtain rfl := Option.some.inj hdelivery
    exact ⟨hlisted, hsound⟩
  | finish result err =>
    obtain rfl := Option.some.inj hdelivery
    exact ⟨hlisted, hsound⟩

/-- A finish of the delivery's attempt, as `MarkSucceeded` and `MarkFailed` make it. -/
theorem Inv.finish (h : Inv cfg w) {attempt : Attempt} (hlisted : Listed cfg w m.payload e)
    (hattempt : HasAttempt w.worker attempt.id e.jobID) (readings : Readings w.clock after)
    (finish : Finish) (hfinish : finish.within cfg.maxAttempts)
    (hverdict : FinishSound w.worker e.jobID finish
        (Worker.finishAttempt readings.now attempt.id finish w.worker) →
      Verdict ((Worker.finishAttempt readings.now attempt.id finish w.worker).state w.worker)
        e.jobID result err) :
    Inv cfg ((w.setWorker after ((Worker.finishAttempt readings.now attempt.id finish
      w.worker).state w.worker)).setDelivery pid (some (.processed m e result err))) := by
  have hstore := h.store.finishAttempt cfg.maxAttempts_pos readings attempt.id hfinish
  have hsound := finishAttempt_sound h.store readings.now hattempt finish hstore
  have hworker := h.setWorker (finishAttempt_moved h.store readings.now attempt.id hfinish)
    (fun attemptID jobID ha => ha.finishAttempt _ _ _) hstore (h.kinds.finishAttempt _ _ _)
  refine hworker.setDelivery pid ?_
  intro delivery hdelivery
  obtain rfl := Option.some.inj hdelivery
  exact ⟨hlisted, hverdict hsound⟩

/-- The action of a delivery that has nothing left to acknowledge. -/
theorem Inv.returned (h : Inv cfg w) (hlisted : Listed cfg w m.payload e)
    (hverdict : Verdict w.worker e.jobID result err) (hquiet : acknowledges e result err = false)
    (haction : resolve result err ≠ .retry) : Done w e.jobID := by
  obtain ⟨rfl, hdone, hterminal⟩ := hverdict.resolved haction
  refine ⟨hterminal, h.unclaimed hlisted ?_⟩
  have hfinished : (result.succeeded || result.deadLettered) = true := by
    rw [Bool.or_eq_true]
    exact hdone
  simp only [acknowledges, Option.isNone_none, hfinished, Bool.true_and,
    Bool.and_eq_false_iff, decide_eq_false_iff_not] at hquiet
  exact hquiet

/-- An acknowledgement the client may send is never refused by its own checks. -/
theorem acknowledgeObjectCleanup_eq (hvalid : e.validate = .ok ())
    (hneeded : acknowledges e result err = true) (response : Option String) :
    Worker.acknowledgeObjectCleanup response e = response.map .other := by
  simp only [acknowledges, Bool.and_eq_true, decide_eq_true_eq] at hneeded
  refine if_neg ?_
  rintro (hkind | hempty | hunmanaged)
  · exact hkind hneeded.1.2
  · have hblank := validate_jobID hvalid
    rw [hempty, blank_empty] at hblank
    cases hblank
  · rw [hneeded.2] at hunmanaged
    cases hunmanaged

/-- The records of a publisher are all listed. -/
theorem Inv.listed_record (h : Inv cfg w) {p : Publisher} {record : OutboxRow}
    (hat : w.publishers pid = some p) (hrecord : record ∈ p.records) :
    ∃ e, Listed cfg w record.payloadJSON e ∧ e.jobID = record.id :=
  (h.publishers pid p hat).1 record hrecord

/-- **Step lemma.** -/
theorem Inv.step (h : Inv cfg w) (hstep : Step cfg w label w') : Inv cfg w' := by
  cases hstep with
  | tick hclock => exact h.tick hclock
  | enqueue carrier event henqueue => exact h.enqueue henqueue
  | publishBegin pid limit hfree hlist =>
    refine h.setPublisher pid fun p hp => ?_
    obtain rfl := Option.some.inj hp
    exact ⟨fun record hrecord => h.rows record (mem_of_listDue hlist hrecord), by simp⟩
  | publishSent pid hat =>
    rename_i now record rest result
    obtain ⟨e, hlisted, hid⟩ := h.listed_record hat List.mem_cons_self
    refine (h.push hlisted).setPublisher pid fun p hp => ?_
    obtain rfl := Option.some.inj hp
    refine ⟨(h.publishers pid _ hat).1, ?_⟩
    rintro now' record' rest' result' ⟨rfl, rfl, rfl, rfl⟩
    obtain ⟨-, -, -, -, hencodes⟩ := hlisted
    exact Or.inl ⟨_, List.mem_append_right _ (List.mem_singleton_self _), e, hencodes, hid⟩
  | publishLost pid publishErr hat =>
    obtain ⟨e, hlisted, hid⟩ := h.listed_record hat List.mem_cons_self
    refine (h.push hlisted).setPublisher pid fun p hp => ?_
    obtain rfl := Option.some.inj hp
    exact ⟨(h.publishers pid _ hat).1, by simp⟩
  | publishRefused pid publishErr hat =>
    refine h.setPublisher pid fun p hp => ?_
    obtain rfl := Option.some.inj hp
    exact ⟨(h.publishers pid _ hat).1, by simp⟩
  | publishMarked pid hat hmark =>
    rename_i now record rest outbox result
    have hmarked := markPublished_marked hmark
    have hsent := (h.publishers pid _ hat).2 now record rest result rfl
    refine (h.mark hmarked ?_).setPublisher pid fun p hp => ?_
    · rintro id ⟨rfl⟩
      exact hsent
    · obtain rfl := Option.some.inj hp
      refine ⟨fun r hr => ?_, by simp⟩
      obtain ⟨e, hlisted, hid⟩ := h.listed_record hat (List.mem_cons_of_mem record hr)
      exact ⟨e, hlisted.extend hmarked.extend, hid⟩
  | publishFailed pid hat hmark =>
    rename_i now record publishErr rest outbox result
    have hmarked := markFailed_marked hmark
    refine (h.mark hmarked (by simp)).setPublisher pid fun p hp => ?_
    obtain rfl := Option.some.inj hp
    refine ⟨fun r hr => ?_, by simp⟩
    obtain ⟨e, hlisted, hid⟩ := h.listed_record hat (List.mem_cons_of_mem record hr)
    exact ⟨e, hlisted.extend hmarked.extend, hid⟩
  | publishEnd pid => exact h.setPublisher pid (by simp)
  | scanBegin pid area hfree => exact h.setScanner pid _
  | scanListed pid limit page hat hpage => exact h.setScanner pid _
  | scanReset pid hat =>
    rename_i area read
    have hsame : (resetCursor read (w.books area)).claims = (w.books area).claims := by
      unfold resetCursor
      split <;> rfl
    refine (h.setBook area ?_ ?_).setScanner pid none
    · intro c hc
      rw [hsame] at hc
      exact hc
    · rw [hsame]
      exact h.claimKeys area
  | scanCommit pid carrier protect newJobID hat hcommit =>
    exact (h.commitPage rfl hcommit).setScanner pid none
  | scanEnd pid => exact h.setScanner pid none
  | fetch pid hfree hheld =>
    refine h.setDelivery pid fun d hd => ?_
    obtain rfl := Option.some.inj hd
    exact h.messages _ hheld
  | undecodable pid hat hdecode =>
    -- a committed payload always decodes
    obtain ⟨e, hlisted⟩ := h.deliveries pid _ hat
    rw [hlisted.decodes] at hdecode
    cases hdecode
  | unencodable pid hat hdecode hjson =>
    obtain ⟨e, hlisted⟩ := h.deliveries pid _ hat
    rw [hlisted.decodes] at hdecode
    obtain rfl := Except.ok.inj hdecode
    obtain ⟨-, -, -, -, hencodes⟩ := hlisted
    rw [json_eq_ok.mpr hencodes] at hjson
    cases hjson
  | start pid readings hat hdecode hjson =>
    obtain ⟨e, hlisted⟩ := h.deliveries pid _ hat
    have hsame := hdecode
    rw [hlisted.decodes] at hsame
    obtain rfl := Except.ok.inj hsame
    exact h.start hlisted hjson readings
  | handle pid env hat =>
    obtain ⟨hlisted, hattempt⟩ := h.deliveries pid _ hat
    refine h.setDelivery pid fun d hd => ?_
    obtain rfl := Option.some.inj hd
    exact ⟨hlisted, hattempt, fun err herr => handleJob_valid hlisted.valid herr⟩
  | interrupted pid hat =>
    obtain ⟨hlisted, hattempt⟩ := h.deliveries pid _ hat
    refine h.setDelivery pid fun d hd => ?_
    obtain rfl := Option.some.inj hd
    exact ⟨hlisted, .failing _⟩
  | markSucceeded pid readings hat =>
    obtain ⟨hlisted, hattempt, -⟩ := h.deliveries pid _ hat
    exact h.finish hlisted hattempt readings .succeeded trivial
      (fun hsound => afterSucceeded_verdict hsound _)
  | markFailed pid readings hat hjson =>
    obtain ⟨hlisted, hattempt, hother⟩ := h.deliveries pid _ hat
    obtain ⟨text, rfl⟩ := hother _ rfl
    rw [markFailed_eq_finishAttempt _ _ _ (json_eq_ok.mp hjson).nonempty cfg.maxAttempts_pos]
    exact h.finish hlisted hattempt readings (.failed _ _ _) rfl
      (fun hsound => afterFailed_verdict hsound _ _)
  | returned pid hat hquiet =>
    obtain ⟨hlisted, hverdict⟩ := h.deliveries pid _ hat
    refine h.setDelivery pid fun d hd => ?_
    obtain rfl := Option.some.inj hd
    exact ⟨_, hlisted, h.returned hlisted hverdict hquiet⟩
  | unacknowledged pid response hat hneeded =>
    obtain ⟨hlisted, -⟩ := h.deliveries pid _ hat
    refine h.setDelivery pid fun d hd => ?_
    obtain rfl := Option.some.inj hd
    refine ⟨_, hlisted, fun haction => ?_⟩
    rw [acknowledgeObjectCleanup_eq hlisted.valid hneeded] at haction
    exfalso
    apply haction
    split <;> rfl
  | acknowledged pid hat hneeded hacknowledger hclaims =>
    rename_i m e result err claims
    obtain ⟨hlisted, hverdict⟩ := h.deliveries pid _ hat
    refine (h.acknowledge hclaims).setDelivery pid fun d hd => ?_
    obtain rfl := Option.some.inj hd
    exact ⟨e, hlisted, fun _ =>
      ⟨hverdict.terminal_of_acknowledges hneeded, h.acknowledged hlisted hclaims⟩⟩
  | acknowledge jobID key hclaims => exact h.acknowledge hclaims
  | settle pid hat haction =>
    obtain ⟨e, hlisted, hdone⟩ := h.deliveries pid _ hat
    exact (h.drop hlisted (hdone haction)).setDelivery pid (by simp)
  | deliveryEnd pid => exact h.setDelivery pid (by simp)

/-- Rows are never lost and never leave `published`. -/
theorem Step.extends (hstep : Step cfg w label w') : Extends w.outbox w'.outbox := by
  cases hstep with
  | enqueue carrier event henqueue => exact enqueueTx_extends henqueue
  | publishMarked pid hat hmark => exact (markPublished_marked hmark).extend
  | publishFailed pid hat hmark => exact (markFailed_marked hmark).extend
  | scanCommit pid carrier protect newJobID hat hcommit => exact (commitPage_extends hcommit).1
  | _ => exact Extends.refl _

/-- A claim disappears only through an acknowledgement of its own job for its own key. -/
theorem Step.keeps_claim (hstep : Step cfg w label w') {area : Area} {c : Claim}
    (hc : c ∈ (w.books area).claims) :
    c ∈ (w'.books area).claims ∨ label = .acknowledge c.jobID c.key := by
  have hacknowledge : ∀ (jobID key : String) (claims : List Claim),
      (acknowledgeArea key).acknowledgeObjectCleanup jobID key
        (w.books (acknowledgeArea key)).claims = some claims →
      c ∈ (((w.setBook (acknowledgeArea key)
        { w.books (acknowledgeArea key) with claims := claims }).books area).claims) ∨
        Label.acknowledge jobID key = .acknowledge c.jobID c.key := by
    intro jobID key claims hclaims
    by_cases hown : c = ⟨key, jobID⟩
    · rw [hown]
      exact Or.inr rfl
    · refine Or.inl ?_
      simp only [World.setBook, Function.update_apply]
      split
      · rename_i heq
        rw [heq] at hc
        exact (mem_acknowledge hclaims c).mpr ⟨hc, hown⟩
      · exact hc
  cases hstep with
  | scanReset pid hat =>
    refine Or.inl ?_
    simp only [World.setScanner, World.setBook, Function.update_apply]
    split
    · rename_i heq
      rw [heq] at hc
      unfold resetCursor
      split <;> exact hc
    · exact hc
  | scanCommit pid carrier protect newJobID hat hcommit =>
    refine Or.inl ?_
    simp only [World.setScanner, World.setBook, Function.update_apply]
    split
    · rename_i heq
      rw [heq] at hc
      exact (commitPage_extends hcommit).2 c hc
    · exact hc
  | acknowledged pid hat hneeded hacknowledger hclaims => exact hacknowledge _ _ _ hclaims
  | acknowledge jobID key hclaims => exact hacknowledge jobID key _ hclaims
  | _ => exact Or.inl hc

end Calls

/-! ### Every run -/

theorem inv_init (cfg : Config) (clock : Nat) : Inv cfg (World.init clock) where
  unique := List.nodup_nil
  rows := by simp [World.init]
  published := by simp [World.init]
  messages := by simp [World.init]
  store := StoreInv.empty _ _
  kinds := by simp [ReceiptKinds, World.init, DB.empty]
  claimed := by simp [World.init, Book.fresh]
  claimKeys := fun _ => List.nodup_nil
  publishers := by simp [World.init]
  deliveries := by simp [World.init]

/-- **Run lemma.** -/
theorem inv_of_run {cfg : Config} {clock : Nat} {trace : List (Label × World)} {w : World}
    (hrun : Run (Step cfg) (World.init clock) trace w) : Inv cfg w :=
  Run.invariant (Inv cfg) (inv_init cfg clock) (fun _ _ _ h hstep => h.step hstep) hrun

theorem extends_of_run {cfg : Config} {w w' : World} {later : List (Label × World)}
    (hrun : Run (Step cfg) w later w') : Extends w.outbox w'.outbox :=
  Run.invariant (fun v => Extends w.outbox v.outbox) (Extends.refl _)
    (fun _ _ _ h hstep => h.trans hstep.extends) hrun

/-- The message the stream holds for a row's job is that row's message. -/
theorem Inv.held_payload {cfg : Config} {w : World} (h : Inv cfg w) {row : OutboxRow}
    (hrow : row ∈ w.outbox) (hheld : Held cfg w row.id) :
    ∃ m ∈ w.stream, m.payload = row.payloadJSON := by
  obtain ⟨m, hm, e, hencodes, hjob⟩ := hheld
  obtain ⟨e', hlisted, hid⟩ := h.rows row hrow
  obtain ⟨e'', hlisted''⟩ := h.messages m hm
  have hsame : e'' = e := by
    obtain ⟨-, -, -, -, hencodes''⟩ := hlisted''
    exact hencodes''.unique hencodes
  have hevent : e' = e'' := h.event_unique hlisted hlisted'' (by rw [hsame, hjob, hid])
  refine ⟨m, hm, ?_⟩
  obtain ⟨-, -, -, -, hrowEncodes⟩ := hlisted
  rw [hevent, hsame] at hrowEncodes
  exact Option.some.inj (hencodes.encoded.symm.trans hrowEncodes.encoded)

/-- **No cleanup job is lost.**  Take any row committed to the outbox, and any later
state of the run.  The row is still there under its id, and it is unpublished, or the
stream holds its message, or the worker has a terminal receipt for it; and if it was
published, it still is. -/
theorem no_job_lost {cfg : Config} {clock : Nat} {trace later : List (Label × World)}
    {w w' : World} (hrun : Run (Step cfg) (World.init clock) trace w)
    (hlater : Run (Step cfg) w later w') {row : OutboxRow} (hrow : row ∈ w.outbox) :
    ∃ row' ∈ w'.outbox, row'.id = row.id ∧ row'.payloadJSON = row.payloadJSON ∧
      (∀ other ∈ w'.outbox, other.id = row.id → other = row') ∧
      (row.state = .published → row'.state = .published) ∧
      (row'.state ≠ .published ∨ (∃ m ∈ w'.stream, m.payload = row'.payloadJSON) ∨
        ∃ r, loadReceipt row'.id w'.worker = some r ∧
          (r.state = .succeeded ∨
            r.state = .dead ∧ ∃ letter, loadDeadLetter row'.id w'.worker = some letter)) := by
  have h := inv_of_run (hrun.append hlater)
  obtain ⟨row', hrow', hid, hpayload, hpublished⟩ := extends_of_run hlater row hrow
  refine ⟨row', hrow', hid, hpayload, ?_, hpublished, ?_⟩
  · intro other hother hsame
    have hfound := Table.lookup_of_mem h.unique hother
    rw [hsame, ← hid, Table.lookup_of_mem h.unique hrow'] at hfound
    exact (Option.some.inj hfound).symm
  · by_cases hstate : row'.state = .published
    · right
      rcases h.published row' hrow' hstate with hheld | ⟨⟨r, hload, hterminal⟩, -⟩
      · exact Or.inl (h.held_payload hrow' hheld)
      · refine Or.inr ⟨r, hload, hterminal.imp id ?_⟩
        rintro ⟨hdead, hletter⟩
        exact ⟨hdead, Option.isSome_iff_exists.mp hletter⟩
    · exact Or.inl hstate

/-- A deployment whose only job deletes one orphan of the secrets area. -/
def orphanConfig : Config where
  codec := singleCodec (orphanEvent "job" "managed/secrets/a" 1)
  textLe := fun a b => decide (a ≤ b)
  subject := "jobs"
  retryDelay := 30
  maxAttempts := 3
  maxAttempts_pos := by decide
  acknowledger := true

def orphanRow : OutboxRow :=
  OutboxRow.pending "jobs" "event" 1 (orphanEvent "job" "managed/secrets/a" 1)

/-- An enqueued, sent and marked row: it stays published. -/
theorem no_job_lost_published_row :
    ∃ trace w, Run (Step orphanConfig) (World.init 1) trace w ∧
      ∃ row' ∈ w.outbox, row'.id = "job" ∧ row'.state = .published := by
  have hlist : listDue orphanConfig.codec orphanConfig.textLe 1 1 [orphanRow] =
      .ok [orphanRow] := by
    have hdue : ([orphanRow].filter fun row =>
        (decide (row.state = .pending) || decide (row.state = .failed)) &&
          orphanConfig.textLe row.nextAttemptAt 1) = [orphanRow] := rfl
    simp only [listDue, hdue, List.mergeSort_singleton]
    rfl
  have hrun : Run (Step orphanConfig) (World.init 1) _ _ :=
    (((Run.nil.snoc (.enqueue [] (orphanEvent "job" "managed/secrets/a" 1) rfl)).snoc
      (.publishBegin 0 1 rfl hlist)).snoc (.publishSent 0 rfl)).snoc (.publishMarked 0 rfl rfl)
  obtain ⟨row', hrow', hid, -, -, hstate, -⟩ :=
    no_job_lost hrun Run.nil (List.mem_singleton_self (OutboxRow.publish 1 orphanRow))
  exact ⟨_, _, hrun, row', hrow', hid, hstate rfl⟩

/-- **Reconciliation claims.**  In every state of every run: (a) no object key has two
claims, within an area or across them; (b) the job of a claim has its row in the
outbox, unpublished or with its message still held; (c) whatever the next step is, a
claim it removes is removed by an acknowledgement of that very job for that very
key. -/
theorem claims_live_with_their_jobs {cfg : Config} {clock : Nat} {trace : List (Label × World)}
    {w : World} (hrun : Run (Step cfg) (World.init clock) trace w) :
    (∀ area area' c c', c ∈ (w.books area).claims → c' ∈ (w.books area').claims →
      c.key = c'.key → area = area' ∧ c = c') ∧
    (∀ area, ((w.books area).claims.map Claim.key).Nodup) ∧
    (∀ area, ∀ c ∈ (w.books area).claims, ∃ row ∈ w.outbox, row.id = c.jobID ∧
      (row.state ≠ .published ∨ ∃ m ∈ w.stream, m.payload = row.payloadJSON)) ∧
    (∀ label w', Step cfg w label w' → ∀ area, ∀ c ∈ (w.books area).claims,
      c ∉ (w'.books area).claims → label = .acknowledge c.jobID c.key) := by
  have h := inv_of_run hrun
  refine ⟨?_, h.claimKeys, ?_, ?_⟩
  · intro area area' c c' hc hc' hkey
    obtain ⟨-, -, -, -, -, -, howns⟩ := h.claimed area c hc
    obtain ⟨-, -, -, -, -, -, howns'⟩ := h.claimed area' c' hc'
    have harea : area = area' := by
      rw [← acknowledgeArea_of_owns howns, ← acknowledgeArea_of_owns howns', hkey]
    subst harea
    refine ⟨rfl, ?_⟩
    have hfound := Table.lookup_of_mem (h.claimKeys area) hc
    rw [hkey, Table.lookup_of_mem (h.claimKeys area) hc'] at hfound
    exact (Option.some.inj hfound).symm
  · intro area c hc
    obtain ⟨payload, e, ⟨row, hrow, -, hid, -⟩, hjob, -⟩ := h.claimed area c hc
    refine ⟨row, hrow, hid.trans hjob, ?_⟩
    by_cases hstate : row.state = .published
    · rcases h.published row hrow hstate with hheld | ⟨-, hunclaimed⟩
      · exact Or.inr (h.held_payload hrow hheld)
      · exact absurd (hjob.symm.trans hid.symm) (hunclaimed area c hc)
    · exact Or.inl hstate
  · intro label w' hstep area c hc hgone
    rcases hstep.keeps_claim hc with hkept | hlabel
    · exact absurd hkept hgone
    · exact hlabel

/-- A scan that claims one orphan: its claim names a row that is still to publish. -/
theorem claims_live_with_their_jobs_orphan :
    ∃ trace w, Run (Step orphanConfig) (World.init 1) trace w ∧
      (w.books .secrets).claims = [⟨"managed/secrets/a", "job"⟩] ∧
      ∃ row ∈ w.outbox, row.id = "job" ∧
        (row.state ≠ .published ∨ ∃ m ∈ w.stream, m.payload = row.payloadJSON) := by
  have hrun : Run (Step orphanConfig) (World.init 1) _ _ :=
    ((Run.nil.snoc (.scanBegin 0 .secrets rfl)).snoc
      (.scanListed 0 1000 ⟨["managed/secrets/a"], ""⟩ rfl rfl)).snoc
      (.scanCommit 0 [] (fun _ => .ok false) (fun _ => some "job") rfl rfl)
  exact ⟨_, _, hrun, rfl, (claims_live_with_their_jobs hrun).2.2.1 .secrets
    ⟨"managed/secrets/a", "job"⟩ (List.mem_singleton_self _)⟩

end Pipeline
end FlickDrop
