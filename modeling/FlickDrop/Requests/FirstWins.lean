import FlickDrop.Foundations.WriteOnce
import FlickDrop.Requests.Invariant

/-!
# The first accepted submission wins

The tables refine a slot that is written once: a request is free while it waits and
while an upload is reserved, and holds the submission that moved it to `submitted` until it
is purged.  Receipts and verdicts are given by rows,
so they are about the one submission in the slot.
-/

namespace FlickDrop
namespace Requests

open Foundations Events

/-- The slot of a request. -/
def slotOf (issued : Prop) [Decidable issued] : Option RequestRow → Slot Acceptance
  | none => if issued then .gone else .unborn
  | some row =>
    match row.state with
    | .waiting | .uploading => .free
    | .submitted | .consumed => .taken row.acceptance
    | .cancelled => if row.attemptTokenHash.isSome then .taken row.acceptance else .shut
    | .unavailable => .shut

section

variable {issued issued' : Prop} [Decidable issued] [Decidable issued'] {row : RequestRow}

theorem slotOf_accepted (hkeeps : row.state.keepsReceipt = true)
    (hattempt : row.attemptTokenHash.isSome) :
    slotOf issued (some row) = .taken row.acceptance := by
  cases hstate : row.state with
  | submitted | consumed | cancelled => simp [slotOf, hstate, hattempt]
  | waiting | uploading | unavailable =>
    rw [hstate] at hkeeps
    cases hkeeps

theorem slotOf_free (h : row.state = .waiting ∨ row.state = .uploading) :
    slotOf issued (some row) = .free := by
  rcases h with h | h <;> simp [slotOf, h]

theorem slotOf_consumed (h : row.state = .submitted ∨ row.state = .consumed) :
    slotOf issued (some row) = .taken row.acceptance := by
  rcases h with h | h <;> simp [slotOf, h]

theorem slotOf_ne_gone : slotOf issued (some row) ≠ .gone := by
  cases hstate : row.state with
  | cancelled =>
    simp only [slotOf, hstate]
    split <;> simp
  | _ => simp [slotOf, hstate]

/-- What a row in a taken slot looks like. -/
theorem slotOf_taken {t : Acceptance} (h : slotOf issued (some row) = .taken t) :
    row.state.keepsReceipt = true ∧ row.acceptance = t := by
  cases hstate : row.state with
  | submitted | consumed =>
    simp only [slotOf, hstate, Slot.taken.injEq] at h
    exact ⟨rfl, h⟩
  | cancelled =>
    simp only [slotOf, hstate] at h
    split at h
    · exact ⟨rfl, Slot.taken.inj h⟩
    · cases h
  | waiting | uploading | unavailable =>
    simp only [slotOf, hstate] at h
    cases h

end

section

variable {fresh : String → Prop} {new : Prop} {clock after : Nat} {found found' : Option RequestRow}

theorem movedToSubmitted_self : movedToSubmitted found found = none := by
  cases found with
  | none => rfl
  | some row => simp [movedToSubmitted]

theorem movedToSubmitted_of_ne {row' : RequestRow} (h : row'.state ≠ .submitted) :
    movedToSubmitted found (some row') = none := by
  simp [movedToSubmitted, h]

theorem movedToSubmitted_of_moved {row row' : RequestRow} (h : row.state ≠ .submitted)
    (h' : row'.state = .submitted) :
    movedToSubmitted (some row) (some row') = some row'.acceptance := by
  simp [movedToSubmitted, h, h']

/-- **One-step refinement**, for one row. -/
theorem RowStep.slot (h : RowStep fresh new clock after found found')
    (hfound : ∀ row, found = some row → RowInv row) {issued issued' : Prop} [Decidable issued]
    [Decidable issued'] (hnew : new → ¬ issued) (hknown : issued → issued')
    (hissued : issued' → issued ∨ found'.isSome) (hrow : ∀ row, found = some row → issued) :
    SlotStep (slotOf issued found) (movedToSubmitted found found') (slotOf issued' found') := by
  cases h with
  | kept =>
    rw [movedToSubmitted_self]
    cases found with
    | none =>
      have hsame : issued ↔ issued' := ⟨hknown, fun h => (hissued h).resolve_right (by simp)⟩
      simp only [slotOf, hsame]
      exact SlotStep.stay _
    | some row => exact SlotStep.stay (slotOf issued (some row))
  | created id publicKey fingerprint submissionTokenHash retrievalTokenHash expiresAt hcreated =>
    rw [movedToSubmitted_of_ne (by simp [newRow])]
    rw [show slotOf issued none = .unborn from if_neg (hnew hcreated), slotOf_free (Or.inl rfl)]
    exact SlotStep.create
  | submitted row attempt bodyHash kind sizeBytes envelope hwaiting =>
    have hne : row.state ≠ .submitted := by
      rw [hwaiting]
      decide
    rw [movedToSubmitted_of_moved hne rfl, slotOf_free (Or.inl hwaiting),
      slotOf_accepted rfl rfl]
    exact SlotStep.take _
  | reserved row r hwaiting =>
    rw [movedToSubmitted_of_ne (by simp [RequestRow.reserve]), slotOf_free (Or.inl hwaiting),
      slotOf_free (Or.inr rfl)]
    exact SlotStep.stay _
  | ended row huploading =>
    rw [slotOf_free (Or.inr huploading)]
    by_cases hlast : row.generation = maxGeneration
    · have hshut : (row.endReservation row.generation).state = .unavailable := if_pos hlast
      rw [movedToSubmitted_of_ne (by rw [hshut]; decide),
        show slotOf issued' (some (row.endReservation row.generation)) = .shut by
          simp [slotOf, hshut]]
      exact SlotStep.close
    · have hwaits : (row.endReservation row.generation).state = .waiting := if_neg hlast
      rw [movedToSubmitted_of_ne (by rw [hwaits]; decide), slotOf_free (Or.inl hwaits)]
      exact SlotStep.stay _
  | accepted row now huploading =>
    have hne : row.state ≠ .submitted := by
      rw [huploading]
      decide
    rw [movedToSubmitted_of_moved hne rfl, slotOf_free (Or.inr huploading),
      slotOf_consumed (Or.inl rfl)]
    exact SlotStep.take _
  | consumedInline row now hsubmitted =>
    have hsame : (row.clear .consumed now).acceptance = row.acceptance := by
      simp [RequestRow.clear, RequestRow.acceptance, hsubmitted]
    rw [movedToSubmitted_of_ne (by simp [RequestRow.clear]), slotOf_consumed (Or.inl hsubmitted),
      slotOf_consumed (Or.inr rfl), hsame]
    exact SlotStep.stay _
  | consumedObject row key now hsubmitted =>
    rw [movedToSubmitted_of_ne (by simp [RequestRow.consumeObject]),
      slotOf_consumed (Or.inl hsubmitted), slotOf_consumed (Or.inr rfl)]
    exact SlotStep.stay _
  | released row key hconsumed =>
    have hstill : row.releaseObject.state = .consumed := hconsumed
    rw [movedToSubmitted_of_ne (by rw [hstill]; decide), slotOf_consumed (Or.inr hconsumed),
      slotOf_consumed (Or.inr hstill)]
    exact SlotStep.stay _
  | cancelled row now hconsumed havailable =>
    rw [movedToSubmitted_of_ne (by simp [RequestRow.clear])]
    cases hstate : row.state with
    | consumed => exact absurd hstate hconsumed
    | unavailable => exact absurd hstate havailable
    | waiting =>
      have hnone := (hfound row rfl).waiting hstate
      rw [slotOf_free (Or.inl hstate),
        show slotOf issued' (some (row.clear .cancelled now)) = .shut by
        simp [slotOf, RequestRow.clear, hnone, hstate]]
      exact SlotStep.close
    | uploading =>
      rw [slotOf_free (Or.inr hstate),
        show slotOf issued' (some (row.clear .cancelled now)) = .shut by
        simp [slotOf, RequestRow.clear, hstate]]
      exact SlotStep.close
    | submitted | cancelled =>
      have hsame : slotOf issued' (some (row.clear .cancelled now)) = slotOf issued (some row) := by
        have hattempt := (hfound row rfl).attempted
        simp_all [slotOf, RequestRow.clear, RequestRow.acceptance]
      rw [hsame]
      exact SlotStep.stay _
  | purged row =>
    have hissued' : issued' := hknown (hrow row rfl)
    rw [show slotOf issued' none = .gone from if_pos hissued']
    exact SlotStep.drop _

end

/-! ### The system refines the slot -/

def World.slot (w : World) (id : String) : Slot Acceptance :=
  slotOf (id ∈ w.issued) (w.row id)

/-- The submissions a run accepts for one request. -/
def acceptances (trace : List (Label × World)) (id : String) : List Acceptance :=
  (labels trace).filterMap fun label => label.accepted id

section

variable {cfg : Config} {w w' mid after : World} {label : Label} {clock before : Nat}
  {trace : List (Label × World)} {id attemptToken : String} {generation : Int} {hash : Bytes}
  {t : Acceptance} {fresh : String → Prop} {answers : List Answer} {new : Prop}

/-- **One-step refinement.** -/
theorem Step.slot (hstep : Step cfg w label w') (hinv : Inv cfg w) (id : String) :
    SlotStep (w.slot id) (label.accepted id) (w'.slot id) := by
  obtain ⟨drawn, hadvance⟩ := hstep.1.advance hinv
  rw [hstep.2]
  exact (hadvance.rows id).slot (hinv.rows id) (fun hnew => hnew.1) (fun h => hadvance.known h)
    (hadvance.issued id) (hinv.issued id)

theorem inv_of_run (hrun : Run (Step cfg) (World.start clock) trace w) : Inv cfg w :=
  Run.invariant (Inv cfg) (Inv.start cfg clock) (fun _ _ _ hinv hstep => hstep.inv hinv) hrun

/-- **Refinement of runs.** -/
theorem past_of_requests (hrun : Run (Step cfg) (World.start clock) trace w) (id : String) :
    (w.slot id).Past (acceptances trace id) := by
  have hslots := Run.simulate (Inv cfg) (fun w => w.slot id) (fun label => label.accepted id)
    (Inv.start cfg clock) (fun _ _ _ hinv hstep => hstep.inv hinv)
    (fun _ _ _ hinv hstep => hstep.slot hinv id) hrun
  have hwrites : writes (trace.map fun entry => (entry.1.accepted id, entry.2.slot id)) =
      acceptances trace id := by
    simp [writes, acceptances, labels, List.filterMap_map, Function.comp_def]
  rw [← hwrites]
  exact past_of_run hslots

/-- A submission in the slot was accepted in the run. -/
theorem acceptances_of_taken (hrun : Run (Step cfg) (World.start clock) trace w)
    (h : w.slot id = .taken t) : acceptances trace id = [t] := by
  have hpast := past_of_requests hrun id
  rw [h] at hpast
  exact hpast

/-! ### Receipts and verdicts -/

theorem mem_reservedAnswers {answer : Except Err (Option UploadResult)} {given : Answer}
    (h : given ∈ reservedAnswers id attemptToken answer) :
    ∃ result, answer = .ok (some result) ∧ result.state = .submitted ∧
      given = .receipt id result.generation attemptToken := by
  unfold reservedAnswers at h
  split at h
  · rename_i result
    split at h
    · rename_i hsubmitted
      exact ⟨result, rfl, hsubmitted, List.mem_singleton.mp h⟩
    · cases h
  · cases h

/-- Every `submitted` receipt a transaction computes is for the accepted attempt. -/
theorem Action.receipt_ok (hinv : Inv cfg w) (haction : Action cfg w answers w')
    (hmem : Answer.receipt id generation attemptToken ∈ answers) :
    ∃ hash row', tokenHash cfg.sha256 attemptToken = .ok hash ∧ w'.row id = some row' ∧
      row'.Accepted generation hash := by
  cases haction with
  | submit env henv id' token input hsubmit =>
    cases List.mem_singleton.mp hmem
    exact (submit_ok hinv.unique hsubmit).2
  | reserve env henv rawUpload rawFinal presign id' token input hfresh hreserve hanswer =>
    obtain ⟨result, hresult, hsubmitted, heq⟩ := mem_reservedAnswers hmem
    cases heq
    exact (reserve_ok hinv.unique hfresh.2.2 hreserve hanswer).2 result hresult hsubmitted
  | @finalizeReceipt call receipt db after pid env henv hat hphase hfirst =>
    rcases List.mem_cons.mp hmem with heq | hmem
    · cases heq
      obtain ⟨rfl, row, hbegins, -, -, haccepted, -⟩ := finalizeTx_ok hfirst
      exact ⟨call.attempt, row, (validateAttempt_ok (hinv.valid pid call hat)).2, hbegins.found,
        haccepted⟩
    · cases List.mem_singleton.mp hmem
  | @accept call a receipt db after pid env henv hat hphase hsecond =>
    cases List.mem_singleton.mp hmem
    obtain ⟨-, rfl, row', hrow', haccepted⟩ :=
      acceptTx_ok hinv.unique henv.mono (hinv.pair hat hphase) hsecond
    exact ⟨call.attempt, row', (validateAttempt_ok (hinv.valid pid call hat)).2, hrow', haccepted⟩
  | attempt | openConsume | copyReject | finalizeRefused | finalizeFail | finalizeReturn
  | finalizeShared => cases List.mem_singleton.mp hmem
  | _ => cases hmem

/-- A verdict reads the row of the attempt's generation. -/
theorem Action.verdict_ok {state : ReceiptState} (haction : Action cfg w answers w')
    (hmem : Answer.verdict id generation attemptToken state ∈ answers) :
    w'.db = w.db ∧ ∃ hash row, tokenHash cfg.sha256 attemptToken = .ok hash ∧ w.row id = some row ∧
      row.state ≠ .unavailable ∧ row.generation = generation ∧ row.verdict hash = state := by
  cases haction with
  | attempt env henv id' token generation' attemptToken' hattempt =>
    cases List.mem_singleton.mp hmem
    obtain ⟨hdb, hash, row, hhash, hbegins, rfl⟩ := attempt_ok hattempt
    exact ⟨hdb, hash, row, hhash, hbegins.found, hbegins.available, rfl, rfl⟩
  | reserve =>
    obtain ⟨_, -, -, heq⟩ := mem_reservedAnswers hmem
    cases heq
  | finalizeReceipt =>
    rcases List.mem_cons.mp hmem with heq | hmem
    · cases heq
    · cases List.mem_singleton.mp hmem
  | submit | openConsume | copyReject | finalizeRefused | finalizeFail | finalizeReturn
  | finalizeShared | accept => cases List.mem_singleton.mp hmem
  | _ => cases hmem

theorem RequestRow.verdict_accepted {row : RequestRow} (hrow : RowInv row)
    (havailable : row.state ≠ .unavailable) (h : row.verdict hash = .accepted) :
    row.Accepted row.generation hash := by
  unfold RequestRow.verdict at h
  split at h
  · rename_i hattempt
    split at h
    · cases h
    rename_i huploading
    refine ⟨keepsReceipt_of ?_ huploading havailable, rfl, hattempt⟩
    intro hwaiting
    rw [hrow.waiting hwaiting] at hattempt
    cases hattempt
  · split at h <;> cases h

/-- The step tells a caller that this attempt was accepted. -/
def Label.confirms (label : Label) (id : String) (generation : Int) (attemptToken : String) :
    Prop :=
  .receipt id generation attemptToken ∈ label.answers ∨
    .verdict id generation attemptToken .accepted ∈ label.answers

theorem Step.confirms_ok (hstep : Step cfg w label w') (hinv : Inv cfg w)
    (h : label.confirms id generation attemptToken) :
    ∃ hash row', tokenHash cfg.sha256 attemptToken = .ok hash ∧ w'.row id = some row' ∧
      row'.Accepted generation hash := by
  rcases h with hreceipt | hverdict
  · exact hstep.1.receipt_ok hinv hreceipt
  · obtain ⟨hdb, hash, row, hhash, hrow, havailable, rfl, haccepted⟩ := hstep.1.verdict_ok hverdict
    refine ⟨hash, row, hhash, ?_,
      RequestRow.verdict_accepted (hinv.rows id row hrow) havailable haccepted⟩
    rw [World.row, hdb]
    exact hrow

/-- What a caller is told is what the run accepted. -/
theorem confirmed_of_run
    (hrun : Run (Step cfg) (World.start clock) (trace ++ [(label, after)]) after)
    (h : label.confirms id generation attemptToken) :
    ∃ t hash, acceptances (trace ++ [(label, after)]) id = [t] ∧ t.generation = generation ∧
      tokenHash cfg.sha256 attemptToken = .ok hash ∧ t.attempt = some hash := by
  obtain ⟨before, hfront, hstep, -⟩ := hrun.split
  obtain ⟨hash, row, hhash, hrow, haccepted⟩ := hstep.confirms_ok (inv_of_run hfront) h
  refine ⟨row.acceptance, hash, acceptances_of_taken hrun ?_, haccepted.generation, hhash,
    haccepted.attempt⟩
  rw [World.slot, hrow]
  exact slotOf_accepted haccepted.state (by rw [haccepted.attempt]; rfl)

/-! ### The answer of `Attempt` after the acceptance -/

/-- Until it expires a request keeps its row. -/
theorem RowStep.present {after : Nat} {row : RequestRow} {found' : Option RequestRow}
    (h : RowStep fresh new before after (some row) found') (hearly : after < row.expiresAt) :
    ∃ row', found' = some row' := by
  cases h with
  | purged row now hnow hpurgeable => exact absurd (purgeable_expired hpurgeable) (by omega)
  | _ => exact ⟨_, rfl⟩

theorem present_of_run {later : List (Label × World)} {row : RequestRow} (hinv : Inv cfg mid)
    (hrow : mid.row id = some row) (hrun : Run (Step cfg) mid later w)
    (hearly : w.clock < row.expiresAt) : ∃ row', w.row id = some row' ∧ SameRequest row row' := by
  have hstable : w.clock < row.expiresAt → ∃ row', w.row id = some row' ∧ SameRequest row row' := by
    refine Run.stable (Inv cfg) (fun w => w.clock < row.expiresAt →
      ∃ row', w.row id = some row' ∧ SameRequest row row') hinv
      (fun _ _ _ hinv hstep => hstep.inv hinv) (fun _ => ⟨row, hrow, rfl, rfl, le_refl _⟩) ?_ hrun
    intro s label s' hinv hs hstep hclock
    obtain ⟨drawn, hadvance⟩ := hstep.1.advance hinv
    obtain ⟨mid, hmid, hsame⟩ := hs (hadvance.clock.trans_lt hclock)
    have hstep' := hadvance.rows id
    rw [hmid] at hstep'
    obtain ⟨row', hrow'⟩ := hstep'.present (hsame.expiresAt.symm ▸ hclock)
    rcases hstep'.origin hrow' with hnew | ⟨_, hfound, hsame'⟩
    · exact absurd (hinv.issued id mid hmid) hnew.1
    · obtain rfl := Option.some.inj hfound
      exact ⟨row', hrow', hsame'.expiresAt.trans hsame.expiresAt,
        hsame'.submission.trans hsame.submission, hsame.generation.trans hsame'.generation⟩
  exact hstable hearly

/-- `Attempt` on the row of an accepted attempt. -/
theorem attempt_accepted {env : Env} {db : DB} {token : String} {row : RequestRow}
    (hrow : RowInv row) (hfound : Table.lookup RequestRow.id id db.requests = some row)
    (haccepted : row.Accepted generation hash)
    (hhash : tokenHash cfg.sha256 attemptToken = .ok hash)
    (hcapability : tokenHash cfg.sha256 token = .ok row.submissionTokenHash)
    (hearly : ∀ i, env.now i < row.expiresAt) :
    attempt cfg env id token generation attemptToken db =
      .commit db (.ok (some ⟨generation, .accepted⟩)) := by
  obtain ⟨hkeeps, rfl, hattempt⟩ := haccepted
  have hvalid : validGeneration row.generation = true := by
    simp [validGeneration, hrow.first, hrow.last]
  have hstates : row.state ≠ .unavailable ∧ row.state ≠ .uploading := by
    constructor <;> intro hstate <;> rw [hstate] at hkeeps <;> cases hkeeps
  have hauthorized :
      authorized (env.now 0) id row.submissionTokenHash false db.requests = .ok row := by
    simp [authorized, hfound, RequestRow.capability, hstates, Nat.not_le_of_lt (hearly 0)]
  have hbegin : begin cfg env id token false db = .opened row := by
    simp [begin, hcapability, hauthorized, hstates]
  simp [attempt, hvalid, hhash, transact, hbegin, commit, Nat.not_le_of_lt (hearly 2),
    RequestRow.verdict, hattempt, hstates]

/-! ### Attempts that lost -/

/-- The row cannot accept this attempt any more, and has not done so. -/
def RequestRow.Lost (generation : Int) (hash : Bytes) (row : RequestRow) : Prop :=
  generation < row.generation ∨
    row.generation = generation ∧ row.state ≠ .waiting ∧ row.attemptTokenHash ≠ some hash

theorem RowStep.lost {after : Nat} {row row' : RequestRow}
    (h : RowStep fresh new before after (some row) (some row')) (hlost : row.Lost generation hash) :
    row'.Lost generation hash := by
  cases h with
  | kept => exact hlost
  | submitted row attempt bodyHash kind sizeBytes envelope hwaiting | reserved row r hwaiting =>
    exact Or.inl (hlost.resolve_right fun hsame => hsame.2.1 hwaiting)
  | ended row =>
    by_cases hlast : row.generation = maxGeneration
    · rcases hlost with hlate | ⟨hsame, -, -⟩
      · refine Or.inl ?_
        show generation < if row.generation = maxGeneration then _ else _
        rwa [if_pos hlast]
      · refine Or.inr ⟨?_, ?_, by simp [RequestRow.endReservation]⟩
        · show (if row.generation = maxGeneration then _ else _) = generation
          rwa [if_pos hlast]
        · show (if row.generation = maxGeneration then _ else _) ≠ State.waiting
          rw [if_pos hlast]
          decide
    · refine Or.inl ?_
      show generation < if row.generation = maxGeneration then _ else _
      rw [if_neg hlast]
      rcases hlost with hlate | ⟨hsame, -, -⟩ <;> omega
  | accepted row | consumedObject row =>
    exact hlost.imp_right fun hsame => ⟨hsame.1, (fun hstate => by cases hstate), hsame.2.2⟩
  | consumedInline row now | cancelled row now =>
    refine hlost.imp_right fun hsame => ⟨hsame.1, (fun hstate => by cases hstate), ?_⟩
    show (if row.state = .uploading then none else row.attemptTokenHash) ≠ some hash
    split
    · simp
    · exact hsame.2.2
  | released row => exact hlost

theorem movedToSubmitted_eq {found found' : Option RequestRow}
    (h : movedToSubmitted found found' = some t) :
    ∃ row', found' = some row' ∧ row'.acceptance = t := by
  unfold movedToSubmitted at h
  split at h
  · cases h
  rename_i row'
  split at h
  · exact ⟨row', rfl, Option.some.inj h⟩
  · cases h

/-- Requests whose row cannot accept the attempt any more. -/
def World.Lost (w : World) (id : String) (generation : Int) (hash : Bytes) : Prop :=
  id ∈ w.issued ∧ ∀ row, w.row id = some row → row.Lost generation hash

theorem Step.lost (hstep : Step cfg w label w') (hinv : Inv cfg w)
    (hlost : w.Lost id generation hash) : w'.Lost id generation hash := by
  obtain ⟨drawn, hadvance⟩ := hstep.1.advance hinv
  refine ⟨hadvance.known hlost.1, ?_⟩
  intro row' hrow'
  have hrows := hadvance.rows id
  rcases hrows.origin hrow' with hnew | ⟨row, hrow, -⟩
  · exact absurd hlost.1 hnew.1
  · rw [hrow, hrow'] at hrows
    exact hrows.lost (hlost.2 row hrow)

/-- A lost attempt is not accepted later. -/
theorem lost_of_run {later : List (Label × World)} (hinv : Inv cfg mid)
    (hlost : mid.Lost id generation hash) (hrun : Run (Step cfg) mid later w) :
    ∀ t ∈ acceptances later id, ¬ (t.generation = generation ∧ t.attempt = some hash) := by
  rintro t ht ⟨hgeneration, hattempt⟩
  obtain ⟨label, hlabel, haccepted⟩ := List.mem_filterMap.mp ht
  obtain ⟨⟨_, after⟩, hentry, rfl⟩ := List.mem_map.mp hlabel
  obtain ⟨front, back, rfl⟩ := List.append_of_mem hentry
  obtain ⟨before, hfront, hstep, -⟩ := hrun.split
  have hboth : Inv cfg before ∧ before.Lost id generation hash := by
    refine Run.invariant (fun w => Inv cfg w ∧ w.Lost id generation hash) ⟨hinv, hlost⟩ ?_ hfront
    exact fun _ _ _ hs hstep => ⟨hstep.inv hs.1, hstep.lost hs.1 hs.2⟩
  have hafter := hstep.lost hboth.1 hboth.2
  rw [hstep.2] at haccepted
  obtain ⟨row', hrow', rfl⟩ := movedToSubmitted_eq haccepted
  rcases hafter.2 row' hrow' with hlate | ⟨-, -, hother⟩
  · exact absurd hgeneration (ne_of_gt hlate)
  · exact hother hattempt

theorem RequestRow.verdict_unavailable {row : RequestRow} (h : row.verdict hash = .unavailable) :
    row.Lost row.generation hash := by
  unfold RequestRow.verdict at h
  split at h
  · split at h <;> cases h
  · rename_i hattempt
    split at h
    · cases h
    rename_i hwaiting
    exact Or.inr ⟨rfl, hwaiting, hattempt⟩

theorem RequestRow.verdict_open {row : RequestRow}
    (h : row.verdict hash = .waiting ∨ row.verdict hash = .uploading) :
    row.state = .waiting ∨ row.state = .uploading := by
  unfold RequestRow.verdict at h
  split at h
  · split at h
    · rename_i huploading
      exact Or.inr huploading
    · rcases h with h | h <;> cases h
  · split at h
    · rename_i hwaiting
      exact Or.inl hwaiting
    · rcases h with h | h <;> cases h

/-- What the run accepted for a request whose row is there. -/
theorem acceptances_of_row (hrun : Run (Step cfg) (World.start clock) trace w) {row : RequestRow}
    (hrow : w.row id = some row) (ht : t ∈ acceptances trace id) :
    row.state.keepsReceipt = true ∧ row.acceptance = t := by
  have hpast := past_of_requests hrun id
  have hslot : w.slot id = slotOf (id ∈ w.issued) (some row) := by rw [World.slot, hrow]
  cases hs : w.slot id with
  | unborn | free | shut =>
    rw [hs] at hpast
    rw [show acceptances trace id = [] from hpast] at ht
    cases ht
  | taken t' =>
    rw [hs] at hpast hslot
    rw [show acceptances trace id = [t'] from hpast] at ht
    obtain rfl := List.mem_singleton.mp ht
    exact slotOf_taken hslot.symm
  | gone =>
    rw [hs] at hslot
    exact absurd hslot.symm slotOf_ne_gone

theorem acceptances_append (front back : List (Label × World)) (id : String) :
    acceptances (front ++ back) id = acceptances front id ++ acceptances back id := by
  simp [acceptances]

theorem acceptances_single (label : Label) (after : World) (id : String) :
    acceptances [(label, after)] id = (label.accepted id).toList := by
  cases h : label.accepted id <;> simp [acceptances, h]

/-- An accepted submission, at the step that accepted it. -/
theorem Step.accepted_ok (hstep : Step cfg w label w') (haccepted : label.accepted id = some t) :
    ∃ row', w'.row id = some row' ∧ row'.acceptance = t := by
  rw [hstep.2] at haccepted
  exact movedToSubmitted_eq haccepted

/-- What a run says about the submissions to one request. -/
structure FirstWins (cfg : Config) (id : String) (trace : List (Label × World)) (w : World) :
    Prop where
  /-- one submission moves the row to `submitted` -/
  once : (acceptances trace id).length ≤ 1
  /-- and it stays in the row for as long as there is one -/
  kept : ∀ t ∈ acceptances trace id, ∀ row, w.row id = some row →
    row.state.keepsReceipt = true ∧ row.acceptance = t
  /-- `submitted` receipts and `accepted` verdicts are given to it -/
  confirmed : ∀ front label after back generation attemptToken,
    trace = front ++ (label, after) :: back → label.confirms id generation attemptToken →
    ∃ t hash, acceptances (front ++ [(label, after)]) id = [t] ∧ t.generation = generation ∧
      tokenHash cfg.sha256 attemptToken = .ok hash ∧ t.attempt = some hash
  /-- and to nobody else -/
  single : ∀ label ∈ labels trace, ∀ label' ∈ labels trace,
    ∀ generation generation' attemptToken attemptToken',
    label.confirms id generation attemptToken → label'.confirms id generation' attemptToken' →
    generation = generation' ∧ attemptToken = attemptToken'
  /-- `Attempt` says `accepted` until the request expires -/
  answered : ∀ front label after back t, trace = front ++ (label, after) :: back →
    label.accepted id = some t → ∃ row, after.row id = some row ∧
      ∀ env token attemptToken hash, (∀ i, w.clock ≤ env.now i ∧ env.now i < row.expiresAt) →
        tokenHash cfg.sha256 token = .ok row.submissionTokenHash →
        tokenHash cfg.sha256 attemptToken = .ok hash → t.attempt = some hash →
        attempt cfg env id token t.generation attemptToken w.db =
          .commit w.db (.ok (some ⟨t.generation, .accepted⟩))
  /-- an attempt that is told `unavailable` is not accepted, before or after -/
  refused : ∀ label ∈ labels trace, ∀ generation attemptToken hash,
    .verdict id generation attemptToken .unavailable ∈ label.answers →
    tokenHash cfg.sha256 attemptToken = .ok hash →
    ∀ t ∈ acceptances trace id, ¬ (t.generation = generation ∧ t.attempt = some hash)
  /-- `waiting` and `uploading` mean that nothing is accepted yet -/
  undecided : ∀ front label after back generation attemptToken state,
    trace = front ++ (label, after) :: back →
    .verdict id generation attemptToken state ∈ label.answers →
    state = .waiting ∨ state = .uploading → acceptances (front ++ [(label, after)]) id = []

/-- A confirmed attempt is the one the whole run accepts. -/
theorem confirmed_whole (hrun : Run (Step cfg) (World.start clock) trace w)
    (hlabel : label ∈ labels trace) (h : label.confirms id generation attemptToken) :
    ∃ t hash, acceptances trace id = [t] ∧ t.generation = generation ∧
      tokenHash cfg.sha256 attemptToken = .ok hash ∧ t.attempt = some hash := by
  obtain ⟨⟨_, after⟩, hentry, rfl⟩ := List.mem_map.mp hlabel
  obtain ⟨front, back, rfl⟩ := List.append_of_mem hentry
  obtain ⟨before, hfront, hstep, -⟩ := hrun.split
  obtain ⟨t, hash, hone, hsame⟩ := confirmed_of_run (hfront.snoc hstep) h
  have hlength := (past_of_requests hrun id).length_le
  rw [List.append_cons, acceptances_append, hone] at hlength ⊢
  have hnil : acceptances back id = [] := by
    rw [List.length_append, List.length_singleton] at hlength
    exact List.eq_nil_of_length_eq_zero (by omega)
  exact ⟨t, hash, by rw [hnil, List.append_nil], hsame⟩

/-- An attempt that is lost at some point is not accepted, before or after. -/
theorem lost_whole {later : List (Label × World)} {row : RequestRow}
    (hrun : Run (Step cfg) (World.start clock) trace mid) (hrow : mid.row id = some row)
    (hlost : row.Lost generation hash) (hlater : Run (Step cfg) mid later w) :
    ∀ t ∈ acceptances (trace ++ later) id, ¬ (t.generation = generation ∧
      t.attempt = some hash) := by
  intro t ht
  rw [acceptances_append] at ht
  rcases List.mem_append.mp ht with hearlier | hlater'
  · -- the row would still carry it
    rintro ⟨hgeneration, hattempt⟩
    obtain ⟨-, rfl⟩ := acceptances_of_row hrun hrow hearlier
    rcases hlost with hlate | ⟨-, -, hother⟩
    · exact absurd hgeneration (ne_of_gt hlate)
    · exact hother hattempt
  · have hinv := inv_of_run hrun
    refine lost_of_run hinv ⟨hinv.issued id row hrow, ?_⟩ hlater t hlater'
    intro row' hrow'
    obtain rfl := Option.some.inj (hrow.symm.trans hrow')
    exact hlost

/-- An attempt that is told `unavailable` is not accepted, before or after. -/
theorem refused_of_run (hrun : Run (Step cfg) (World.start clock) trace w)
    (hlabel : label ∈ labels trace)
    (hverdict : .verdict id generation attemptToken .unavailable ∈ label.answers)
    (hhash : tokenHash cfg.sha256 attemptToken = .ok hash) :
    ∀ t ∈ acceptances trace id, ¬ (t.generation = generation ∧ t.attempt = some hash) := by
  obtain ⟨⟨_, after⟩, hentry, rfl⟩ := List.mem_map.mp hlabel
  obtain ⟨front, back, rfl⟩ := List.append_of_mem hentry
  obtain ⟨before, hfront, hstep, hback⟩ := hrun.split
  obtain ⟨-, hash', row, hhash', hrow, -, rfl, hunavailable⟩ := hstep.1.verdict_ok hverdict
  obtain rfl : hash' = hash := Except.ok.inj (hhash'.symm.trans hhash)
  exact lost_whole hfront hrow (RequestRow.verdict_unavailable hunavailable)
    ((Run.nil.snoc hstep).append hback)

/-- Until it expires, `Attempt` confirms the accepted attempt. -/
theorem answered_of_run {front back : List (Label × World)}
    (hrun : Run (Step cfg) (World.start clock) (front ++ (label, after) :: back) w)
    (haccepted : label.accepted id = some t) :
    ∃ row, after.row id = some row ∧
      ∀ env token attemptToken hash, (∀ i, w.clock ≤ env.now i ∧ env.now i < row.expiresAt) →
        tokenHash cfg.sha256 token = .ok row.submissionTokenHash →
        tokenHash cfg.sha256 attemptToken = .ok hash → t.attempt = some hash →
        attempt cfg env id token t.generation attemptToken w.db =
          .commit w.db (.ok (some ⟨t.generation, .accepted⟩)) := by
  obtain ⟨before, hfront, hstep, hback⟩ := hrun.split
  obtain ⟨row, hrow, rfl⟩ := hstep.accepted_ok haccepted
  refine ⟨row, hrow, ?_⟩
  intro env token attemptToken hash henv hcapability hhash hattempt
  have hearly : w.clock < row.expiresAt := (henv 0).1.trans_lt (henv 0).2
  obtain ⟨row', hrow', hsame⟩ :=
    present_of_run (inv_of_run (hfront.snoc hstep)) hrow hback hearly
  have hmem : row.acceptance ∈ acceptances (front ++ (label, after) :: back) id := by
    refine List.mem_filterMap.mpr ⟨label, ?_, haccepted⟩
    simp [labels]
  obtain ⟨hkeeps, hkept⟩ := acceptances_of_row hrun hrow' hmem
  have hrow₁ : RowInv row' := (inv_of_run hrun).rows id row' hrow'
  refine attempt_accepted hrow₁ hrow' ⟨hkeeps, congrArg Acceptance.generation hkept, ?_⟩ hhash ?_ ?_
  · exact (congrArg Acceptance.attempt hkept).trans hattempt
  · rw [hsame.submission]
    exact hcapability
  · intro i
    rw [hsame.expiresAt]
    exact (henv i).2

/-- **The first accepted submission wins.** -/
theorem first_accepted_wins (hinj : Function.Injective cfg.sha256)
    (hrun : Run (Step cfg) (World.start clock) trace w) (id : String) :
    FirstWins cfg id trace w where
  once := (past_of_requests hrun id).length_le
  kept := fun t ht row hrow => acceptances_of_row hrun hrow ht
  confirmed := by
    rintro front label after back generation attemptToken rfl hconfirms
    obtain ⟨before, hfront, hstep, -⟩ := hrun.split
    exact confirmed_of_run (hfront.snoc hstep) hconfirms
  single := by
    intro label hlabel label' hlabel' generation generation' attemptToken attemptToken' h h'
    obtain ⟨t, hash, hone, rfl, hhash, hattempt⟩ := confirmed_whole hrun hlabel h
    obtain ⟨t', hash', hone', rfl, hhash', hattempt'⟩ := confirmed_whole hrun hlabel' h'
    obtain rfl : t = t' := List.singleton_inj.mp (hone.symm.trans hone')
    obtain rfl : hash = hash' := Option.some.inj (hattempt.symm.trans hattempt')
    exact ⟨rfl, tokenHash_inj hinj hhash hhash'⟩
  answered := by
    rintro front label after back t rfl haccepted
    exact answered_of_run hrun haccepted
  refused := fun label hlabel generation attemptToken hash hverdict hhash =>
    refused_of_run hrun hlabel hverdict hhash
  undecided := by
    rintro front label after back generation attemptToken state rfl hverdict hstate
    obtain ⟨before, hfront, hstep, -⟩ := hrun.split
    obtain ⟨hdb, hash, row, -, hrow, -, -, rfl⟩ := hstep.1.verdict_ok hverdict
    have hrow' : after.row id = some row := by
      rw [World.row, hdb]
      exact hrow
    have hpast := past_of_requests (hfront.snoc hstep) id
    rw [World.slot, hrow', slotOf_free (RequestRow.verdict_open hstate)] at hpast
    exact hpast

end

/-! ### A concrete run -/

/-- A deployment with the identity for a hash. -/
def sampleConfig (codec : Codec) : Config where
  codec := codec
  subject := "jobs"
  sha256 := id
  decodeEnvelope := fun raw =>
    some ⟨2, if raw = [] then "" else stdEncoding.encodeToString ageMagic⟩
  publicKeyFingerprint := some
  payloadInlineMaxBytes := 1000
  maxObjectBytes := 1000
  minTTLSeconds := 1
  defaultTTLSeconds := 60
  maxTTLSeconds := 60
  objects := true
  outbox := true

/-- A deployment with a hash of 32 bytes that reads the first byte. -/
def digestConfig (codec : Codec) : Config :=
  { sampleConfig codec with sha256 := fun b => List.replicate 32 (b.headD 0) }

/-- An operation during which the clock stands still. -/
def stillEnv (t : Nat) (newJobID : Nat → Option String) : Env where
  now := fun _ => t
  outboxNow := fun _ => t
  draws := ⟨[], newJobID⟩

theorem stillEnv_within (t : Nat) (newJobID : Nat → Option String) :
    (stillEnv t newJobID).Within t t :=
  ⟨fun _ _ _ => Nat.le_refl t, fun _ => Nat.le_refl t, fun _ => Nat.le_refl t⟩

/-- Tokens of 32 equal bytes. -/
def sampleToken (b : UInt8) : String := rawURLEncoding.encodeToString (List.replicate 32 b)

def sampleID : String := rawURLEncoding.encodeToString (List.replicate 16 0)

def sampleSubmission : SubmitInput where
  generation := 1
  attemptToken := sampleToken 3
  kind := .text
  sizeBytes := 22
  envelope := []
  ciphertext := stdEncoding.encodeToString ageMagic

/-- The row and the database of a new request. -/
def sampleRow : RequestRow :=
  newRow sampleID "age1" "age1" (List.replicate 32 1) (List.replicate 32 2) (1 + 60 * second)

def sampleWorld : World :=
  { World.start 1 with db := ⟨[sampleRow], [], [], Book.fresh⟩, issued := [sampleID] }

theorem sample_created {cfg : Config}
    (hcreate : create cfg 1 (List.replicate 16 0) (List.replicate 32 1) (List.replicate 32 2) "age1"
      none DB.empty =
        .ok (sampleWorld.db, ⟨sampleID, 1 + 60 * second, sampleToken 1, sampleToken 2⟩)) :
    Action cfg (World.start 1) [] sampleWorld := by
  exact Action.create (w := World.start 1) 1 _ _ _ "age1" none
    (Nat.le_refl _) List.not_mem_nil hcreate

/-- A text is submitted to a new request. -/
theorem first_accepted_wins_text :
    ∃ (cfg : Config) (trace : List (Label × World)) (w : World),
      Function.Injective cfg.sha256 ∧ Run (Step cfg) (World.start 1) trace w ∧
      (acceptances trace sampleID).length = 1 ∧ FirstWins cfg sampleID trace w := by
  have hrun : Run (Step (sampleConfig (singleCodec (objectEvent "job" "key" .orphan 1))))
      (World.start 1) _ _ :=
    (Run.nil.snoc (sample_created rfl).step).snoc
      (Action.submit (stillEnv 1 fun _ => none) (stillEnv_within 1 _) sampleID (sampleToken 1)
        sampleSubmission rfl).step
  exact ⟨_, _, _, Function.injective_id, hrun, rfl,
    first_accepted_wins Function.injective_id hrun sampleID⟩

end Requests
end FlickDrop
