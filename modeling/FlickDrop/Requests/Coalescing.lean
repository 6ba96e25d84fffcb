import FlickDrop.Requests.Copies

/-!
# Coalesced finalizations

While one `Finalize` copies an upload, later calls for the same request wait for it and
take its answer.  The map of calls in flight is keyed by the request alone, so a call may
wait for the finalization of another attempt: the reservation can be given up and made
anew while the old copy goes on.  As long as every call waits for one of its own attempt,
the answers are its own: `ErrUnavailable` means that the generation has passed or the
request is over, `ErrInvalid` that the upload of this attempt failed its verification, and
a receipt that this attempt was accepted.  The last theorem runs the code into the case
the condition excludes.
-/

namespace FlickDrop
namespace Requests

open Foundations Events

/-! ### Refusals -/

/-- An error that says nothing about the request or the upload. -/
def Err.Incidental (err : Err) : Prop :=
  err ≠ .invalid ∧ err ≠ .unavailable

section

variable {cfg : Config} {env : Env} {id token : String} {owner : Bool} {db committed : DB}
  {row : RequestRow} {err : Err} {now i : Nat} {generation : Int} {outbox : List OutboxRow}
  {reason : Reason} {Answer : Type} {attempt : Bytes} {answer : Answer}

theorem enqueueObjectTx_error {key : String}
    (h : enqueueObjectTx cfg env i key reason now outbox = .error err) : err.Incidental := by
  unfold enqueueObjectTx at h
  split at h
  · cases h
    exact ⟨nofun, nofun⟩
  · split at h
    · cases h
      exact ⟨nofun, nofun⟩
    · split at h
      · cases h
        exact ⟨nofun, nofun⟩
      · cases h

theorem enqueueKeysTx_error {keys : List (Option String)}
    (h : enqueueKeysTx cfg env reason now i keys outbox = .error err) : err.Incidental := by
  induction keys generalizing i outbox with
  | nil => cases h
  | cons key rest ih =>
    cases key with
    | none => exact ih h
    | some key =>
      rw [enqueueKeysTx] at h
      split at h
      · rename_i hfailed
        cases h
        exact enqueueObjectTx_error hfailed
      · exact ih h

theorem endReservationTx_error (h : endReservationTx cfg env i id generation now db = .error err) :
    err.Incidental := by
  unfold endReservationTx at h
  split at h
  · rename_i hkeys
    cases h
    unfold enqueueRequestKeysTx at hkeys
    split at hkeys
    · cases hkeys
      exact ⟨nofun, nofun⟩
    · exact enqueueKeysTx_error hkeys
  · split at h
    · cases h
      exact ⟨nofun, nofun⟩
    · cases h

theorem objectAttempt_error (h : row.objectAttempt cfg = .error err) : err.Incidental := by
  unfold RequestRow.objectAttempt at h
  split at h
  · split at h
    · cases h
      exact ⟨nofun, nofun⟩
    · cases h
  · cases h
    exact ⟨nofun, nofun⟩

/-- The row is out of reach for this token: it is not the token's, unavailable or expired. -/
def RequestRow.Refuses (cfg : Config) (env : Env) (token : String) (owner : Bool)
    (row : RequestRow) : Prop :=
  tokenHash cfg.sha256 token ≠ .ok (row.capability owner) ∨ row.state = .unavailable ∨
    ∃ i, row.expiresAt ≤ env.now i

theorem authorized_error {hash : Bytes} {rows : List RequestRow}
    (h : authorized now id hash owner rows = .error err)
    (hfound : Table.lookup RequestRow.id id rows = some row) :
    hash ≠ row.capability owner ∨ row.state = .unavailable ∨ row.expiresAt ≤ now := by
  unfold authorized at h
  rw [hfound] at h
  dsimp only at h
  split at h
  · rename_i hhash
    exact Or.inl hhash
  · split at h
    · rename_i hover
      exact Or.inr hover
    · cases h

theorem begin_failed (h : begin cfg env id token owner db = .failed err) :
    err.Incidental ∨ err = .unavailable ∧
      ∀ row, Table.lookup RequestRow.id id db.requests = some row →
        row.Refuses cfg env token owner := by
  unfold begin at h
  split at h
  · rename_i hhash
    cases h
    refine Or.inr ⟨rfl, fun row _ => Or.inl ?_⟩
    rw [hhash]
    exact fun hsame => by cases hsame
  · rename_i hash hhash
    split at h
    · rename_i err' hauthorized
      cases h
      have hunavailable : err = .unavailable := by
        unfold authorized at hauthorized
        split at hauthorized
        · cases hauthorized
          rfl
        · split at hauthorized
          · cases hauthorized
            rfl
          · split at hauthorized
            · cases hauthorized
              rfl
            · cases hauthorized
      refine Or.inr ⟨hunavailable, fun row hrow => ?_⟩
      rcases authorized_error hauthorized hrow with hother | hunavailable | hexpired
      · refine Or.inl fun hsame => hother ?_
        rw [hhash] at hsame
        exact Except.ok.inj hsame
      · exact Or.inr (Or.inl hunavailable)
      · exact Or.inr (Or.inr ⟨0, hexpired⟩)
    · rename_i found hauthorized
      obtain ⟨hfound, -, -, -⟩ := authorized_ok hauthorized
      split at h
      · split at h
        · rename_i hend
          cases h
          exact Or.inl (endReservationTx_error hend)
        · split at h
          · rename_i hexpired
            cases h
            refine Or.inr ⟨rfl, fun row hrow => ?_⟩
            obtain rfl := Option.some.inj (hfound.symm.trans hrow)
            exact Or.inr (Or.inr ⟨3, hexpired⟩)
          · cases h
      · cases h

/-- A transaction that is rolled back failed to begin, or in its body. -/
theorem transact_rollback {body : RequestRow → Outcome DB Err (Option Answer)}
    (h : transact cfg env id token owner db body = .rollback err) :
    (err.Incidental ∨ err = .unavailable ∧
      ∀ row, Table.lookup RequestRow.id id db.requests = some row →
        row.Refuses cfg env token owner) ∨
    ∃ row, Begins cfg env id token owner db row ∧ body row = .rollback err := by
  unfold transact at h
  split at h
  · rename_i hbegin
    cases h
    exact Or.inl (begin_failed hbegin)
  · cases h
  · rename_i row hbegin
    exact Or.inr ⟨row, begin_opened hbegin, h⟩

theorem commit_late {expires : Nat} (h : commit now expires committed answer = .rollback err) :
    err = .unavailable ∧ expires ≤ now := by
  unfold commit at h
  split at h
  · rename_i hlate
    cases h
    exact ⟨rfl, hlate⟩
  · cases h

/-- Why a transaction of `Finalize` is refused. -/
def Refusal (cfg : Config) (env : Env) (id token : String) (generation : Int) (db : DB) : Prop :=
  ∀ row, Table.lookup RequestRow.id id db.requests = some row →
    row.generation ≠ generation ∨ row.Refuses cfg env token false

theorem Refusal.of_row (hfound : Table.lookup RequestRow.id id db.requests = some row)
    (h : row.generation ≠ generation ∨ row.Refuses cfg env token false) :
    Refusal cfg env id token generation db := by
  intro row' hrow'
  obtain rfl := Option.some.inj (hfound.symm.trans hrow')
  exact h

theorem finalizing_rollback {receipt body : Outcome DB Err (Option Answer)}
    (h : row.finalizing generation attempt receipt body = .rollback err) :
    err.Incidental ∨ err = .unavailable ∧ row.generation ≠ generation ∨ receipt = .rollback err ∨
      row.state = .uploading ∧ row.generation = generation ∧ body = .rollback err := by
  unfold RequestRow.finalizing at h
  split at h
  · rename_i hgeneration
    cases h
    exact Or.inr (Or.inl ⟨rfl, Ne.symm hgeneration⟩)
  · rename_i hgeneration
    split at h
    · cases h
      exact Or.inl ⟨nofun, nofun⟩
    · split at h
      · split at h
        · cases h
          exact Or.inl ⟨nofun, nofun⟩
        · exact Or.inr (Or.inr (Or.inl h))
      · rename_i huploading
        exact Or.inr (Or.inr (Or.inr ⟨not_not.mp huploading, (not_not.mp hgeneration).symm, h⟩))

/-- A transaction of `Finalize` that was late for the request. -/
theorem Refusal.of_late (hfound : Table.lookup RequestRow.id id db.requests = some row)
    (h : commit (env.now i) row.expiresAt committed answer = .rollback err) :
    err = .unavailable ∧ Refusal cfg env id token generation db := by
  obtain ⟨herr, hlate⟩ := commit_late h
  exact ⟨herr, Refusal.of_row hfound (Or.inr (Or.inr (Or.inr ⟨i, hlate⟩)))⟩

theorem finalizeTx_refused (h : finalizeTx cfg env id token generation attempt db = .rollback err) :
    err.Incidental ∨ err = .unavailable ∧ Refusal cfg env id token generation db := by
  rcases transact_rollback h with (hincidental | ⟨herr, hrefuses⟩) | ⟨row, hbegins, hbody⟩
  · exact Or.inl hincidental
  · exact Or.inr ⟨herr, fun row hrow => Or.inr (hrefuses row hrow)⟩
  · rcases finalizing_rollback hbody with
      hincidental | ⟨herr, hgeneration⟩ | hreceipt | ⟨-, -, hbody⟩
    · exact Or.inl hincidental
    · exact Or.inr ⟨herr, Refusal.of_row hbegins.found (Or.inl hgeneration)⟩
    · exact Or.inr (Refusal.of_late hbegins.found hreceipt)
    · split at hbody
      · rename_i hattempt
        cases hbody
        exact Or.inl (objectAttempt_error hattempt)
      · exact Or.inr (Refusal.of_late hbegins.found hbody)

/-- The second transaction has one refusal more: it began before the deadline of the
reservation and was not done when the deadline came. -/
theorem acceptTx_refused {a : ObjectAttempt}
    (h : acceptTx cfg env id token generation attempt a db = .rollback err) :
    err.Incidental ∨ err = .unavailable ∧ (Refusal cfg env id token generation db ∨
      ∃ row, Table.lookup RequestRow.id id db.requests = some row ∧ row.state = .uploading ∧
        row.generation = generation ∧ env.now 1 < row.reservationExpires ∧
        row.reservationExpires ≤ env.now 3) := by
  rcases transact_rollback h with (hincidental | ⟨herr, hrefuses⟩) | ⟨row, hbegins, hbody⟩
  · exact Or.inl hincidental
  · exact Or.inr ⟨herr, Or.inl fun row hrow => Or.inr (hrefuses row hrow)⟩
  · rcases finalizing_rollback hbody with
      hincidental | ⟨herr, hgeneration⟩ | hreceipt | ⟨huploading, hgeneration, hbody⟩
    · exact Or.inl hincidental
    · exact Or.inr ⟨herr, Or.inl (Refusal.of_row hbegins.found (Or.inl hgeneration))⟩
    · exact Or.inr ((Refusal.of_late hbegins.found hreceipt).imp_right Or.inl)
    · split at hbody
      · cases hbody
        exact Or.inl ⟨nofun, nofun⟩
      · split at hbody
        · cases hbody
          exact Or.inl ⟨nofun, nofun⟩
        · split at hbody
          · rename_i henqueue
            cases hbody
            exact Or.inl (enqueueObjectTx_error henqueue)
          · split at hbody
            · rename_i hdeadline
              cases hbody
              exact Or.inr ⟨rfl, Or.inr ⟨row, hbegins.found, huploading, hgeneration,
                hbegins.reserved huploading, hdeadline⟩⟩
            · exact Or.inr ((Refusal.of_late hbegins.found hbody).imp_right Or.inl)

end

/-! ### What an answer rests on -/

/-- The upload of an attempt: what its reservation said. -/
def Uploaded (cfg : Config) (trace : List (Label × World)) (call : FinalizeCall)
    (a : ObjectAttempt) : Prop :=
  ∃ entry ∈ trace, ∃ row, entry.2.row call.id = some row ∧
    row.generation = call.input.generation ∧ row.attemptTokenHash = some call.attempt ∧
    row.objectAttempt cfg = .ok a

/-- The call `pid` read the object uploaded for the attempt of `call`, and rejected it. -/
def Rejected (cfg : Config) (trace : List (Label × World)) (pid : Nat) (call : FinalizeCall) :
    Prop :=
  ∃ a object, Uploaded cfg trace call a ∧
    copyVerified cfg a (some (object, object.length)) = .error .invalid ∧
    ∃ entry ∈ trace, entry.2.objects a.uploadKey = some object ∧
      .rejected pid call.id call.input a object ∈ entry.1.answers

/-- The attempt is the one the run accepted. -/
def AcceptedOnly (trace : List (Label × World)) (call : FinalizeCall) : Prop :=
  ∃ t, acceptances trace call.id = [t] ∧ t.generation = call.input.generation ∧
    t.attempt = some call.attempt

/-- The generation has passed, or the request is over. -/
def World.Over (w : World) (id : String) (generation : Int) : Prop :=
  id ∈ w.issued ∧ ∀ row, w.row id = some row →
    generation < row.generation ∨ row.state = .unavailable ∨ row.expiresAt ≤ w.clock

/-- What the answer that the call `pid` computed says of the attempt of `call`, at any later
time. -/
def Settled (cfg : Config) (trace : List (Label × World)) (w : World) (pid : Nat)
    (call : FinalizeCall) : Result → Prop
  | .ok receipt => receipt = ⟨call.input.generation, .submitted⟩ ∧ AcceptedOnly trace call
  | .error err => (err = .unavailable → w.Over call.id call.input.generation) ∧
      (err = .invalid → Rejected cfg trace pid call)

/-- What a call knows once its first transaction has passed. -/
structure Passed (cfg : Config) (trace : List (Label × World)) (w : World) (call : FinalizeCall)
    (a : ObjectAttempt) : Prop where
  uploaded : Uploaded cfg trace call a
  issued : call.id ∈ w.issued
  rows : ∀ row, w.row call.id = some row → call.input.generation ≤ row.generation ∧
    tokenHash cfg.sha256 call.token = .ok row.submissionTokenHash

/-- A call that is in the map of its process. -/
def Phase.leads : Phase → Bool
  | .leading _ | .spooled _ _ | .copied _ | .computed _ => true
  | .entered | .passed _ | .following _ | .returned _ => false

/-- The call leads, or has returned an answer that still holds. -/
def Awaited (cfg : Config) (trace : List (Label × World)) (w : World) (pid : Nat)
    (call : FinalizeCall) : Prop :=
  call.phase.leads = true ∨
    ∃ result, call.phase = .returned result ∧ Settled cfg trace w pid call result

structure Led (cfg : Config) (trace : List (Label × World)) (w : World) : Prop where
  copies : ∀ pid call a, w.calls pid = some call → call.phase.copies = some a →
    Passed cfg trace w call a
  computed : ∀ pid call result, w.calls pid = some call → call.phase = .computed result →
    Settled cfg trace w pid call result
  leaders : ∀ process id leader, w.finalizing process id = some leader →
    ∃ lead, w.calls leader = some lead ∧ lead.process = process ∧ lead.id = id ∧
      lead.phase.leads = true
  /-- who waits, waits for a call of the own attempt -/
  followers : ∀ pid call leader, w.calls pid = some call → call.phase = .following leader →
    ∃ lead, w.calls leader = some lead ∧ lead.id = call.id ∧ lead.input = call.input ∧
      Awaited cfg trace w leader lead

/-- A step at which a call starts to wait only for a call of its own attempt, and an acceptance
that begins before the deadline of its reservation also ends before it. -/
structure OwnStep (cfg : Config) (w : World) (label : Label) (w' : World) : Prop where
  step : Step cfg w label w'
  waits : ∀ pid call a leader lead, w.calls pid = some call → call.phase = .passed a →
    w'.calls pid = some (call.goto (.following leader)) → w.calls leader = some lead →
    lead.input = call.input
  deadline : ∀ pid call a row, w.calls pid = some call → call.phase = .copied a →
    w'.calls pid ≠ some call → w.row call.id = some row → row.state = .uploading →
    row.generation = call.input.generation → w.clock < row.reservationExpires →
    w'.clock < row.reservationExpires

section

variable {cfg : Config} {drawn : String → String → Prop} {w w' : World}
  {trace later : List (Label × World)} {label : Label} {call : FinalizeCall} {a : ObjectAttempt}
  {result : Result} {phase : Phase} {clock pid after : Nat} {generation : Int}

theorem Uploaded.mono (h : Uploaded cfg trace call a) (later : List (Label × World)) :
    Uploaded cfg (trace ++ later) call a := by
  obtain ⟨entry, hentry, hrow⟩ := h
  exact ⟨entry, List.mem_append_left _ hentry, hrow⟩

theorem Rejected.mono (h : Rejected cfg trace pid call) (later : List (Label × World)) :
    Rejected cfg (trace ++ later) pid call := by
  obtain ⟨a, object, huploaded, hcopy, entry, hentry, hobject⟩ := h
  exact ⟨a, object, huploaded.mono later, hcopy, entry, List.mem_append_left _ hentry, hobject⟩

/-- A generation that has passed does not come back, and a request that is over stays so. -/
theorem RowStep.over {fresh : String → Prop} {new : Prop} {before : Nat} {row row' : RequestRow}
    (h : RowStep fresh new before after (some row) (some row')) (hsame : SameRequest row row')
    (hclock : before ≤ after)
    (hover : generation < row.generation ∨ row.state = .unavailable ∨ row.expiresAt ≤ before) :
    generation < row'.generation ∨ row'.state = .unavailable ∨ row'.expiresAt ≤ after := by
  rcases hover with hlate | hunavailable | hexpired
  · exact Or.inl (hlate.trans_le hsame.generation)
  · -- no transition leaves this state but the purge
    cases h with
    | kept => exact Or.inr (Or.inl hunavailable)
    | cancelled row now _ havailable => exact absurd hunavailable havailable
    | submitted row _ _ _ _ _ hstate | reserved row _ hstate | ended row hstate
    | accepted row _ hstate | consumedInline row _ hstate | consumedObject row _ _ hstate
    | released row _ hstate =>
      rw [hunavailable] at hstate
      cases hstate
  · rw [hsame.expiresAt]
    exact Or.inr (Or.inr (hexpired.trans hclock))

theorem World.Over.step {id : String} (h : w.Over id generation)
    (hadvance : Advance cfg drawn w w') : w'.Over id generation := by
  refine ⟨hadvance.known h.1, ?_⟩
  intro row' hrow'
  have hrows := hadvance.rows id
  rcases hrows.origin hrow' with hnew | ⟨row, hrow, hsame⟩
  · exact absurd h.1 hnew.1
  · rw [hrow, hrow'] at hrows
    exact hrows.over hsame hadvance.clock (h.2 row hrow)

theorem Passed.step (h : Passed cfg trace w call a) (hadvance : Advance cfg drawn w w')
    (later : List (Label × World)) : Passed cfg (trace ++ later) w' call a where
  uploaded := h.uploaded.mono later
  issued := hadvance.known h.issued
  rows := by
    intro row' hrow'
    rcases (hadvance.rows call.id).origin hrow' with hnew | ⟨row, hrow, hsame⟩
    · exact absurd h.issued hnew.1
    · rw [hsame.submission]
      exact ⟨(h.rows row hrow).1.trans hsame.generation, (h.rows row hrow).2⟩

/-- A run accepts once, so a longer run accepts the same. -/
theorem AcceptedOnly.mono (h : AcceptedOnly trace call)
    (hlength : (acceptances (trace ++ later) call.id).length ≤ 1) :
    AcceptedOnly (trace ++ later) call := by
  obtain ⟨t, hone, hsame⟩ := h
  refine ⟨t, ?_, hsame⟩
  rw [acceptances_append, hone] at hlength ⊢
  have hnil : acceptances later call.id = [] := by
    rw [List.length_append, List.length_singleton] at hlength
    exact List.eq_nil_of_length_eq_zero (by omega)
  rw [hnil, List.append_nil]

theorem Settled.step (h : Settled cfg trace w pid call result) (hadvance : Advance cfg drawn w w')
    (hlength : ∀ id, (acceptances (trace ++ later) id).length ≤ 1) :
    Settled cfg (trace ++ later) w' pid call result := by
  cases result with
  | ok receipt => exact ⟨h.1, h.2.mono (hlength call.id)⟩
  | error err =>
    -- what was over stays over, and a rejection stays in the trace
    exact ⟨fun herr => (h.1 herr).step hadvance, fun herr => (h.2 herr).mono later⟩

/-- What carries over to the next state of a run. -/
structure Onward (cfg : Config) (trace : List (Label × World)) (w : World) (label : Label)
    (w' : World) : Prop where
  advance : ∃ drawn, Advance cfg drawn w w'
  once : ∀ id, (acceptances (trace ++ [(label, w')]) id).length ≤ 1

theorem Onward.passed (h : Onward cfg trace w label w') (hpassed : Passed cfg trace w call a) :
    Passed cfg (trace ++ [(label, w')]) w' call a := by
  obtain ⟨drawn, hadvance⟩ := h.advance
  exact hpassed.step hadvance _

theorem Onward.settled (h : Onward cfg trace w label w')
    (hsettled : Settled cfg trace w pid call result) :
    Settled cfg (trace ++ [(label, w')]) w' pid call result := by
  obtain ⟨drawn, hadvance⟩ := h.advance
  exact hsettled.step hadvance h.once

theorem Onward.awaited (h : Onward cfg trace w label w') (hawaited : Awaited cfg trace w pid call) :
    Awaited cfg (trace ++ [(label, w')]) w' pid call := by
  refine hawaited.imp_right ?_
  rintro ⟨result, hreturned, hsettled⟩
  exact ⟨result, hreturned, h.settled hsettled⟩

theorem World.setLeader_finalizing (w : World) (process process' : Nat) (id id' : String)
    (leader : Option Nat) : (w.setLeader process id leader).finalizing process' id' =
      if process' = process ∧ id' = id then leader else w.finalizing process' id' := by
  simp only [World.setLeader, Function.update_apply]
  by_cases hprocess : process' = process
  · simp [hprocess, Function.update_apply]
  · simp [hprocess]

theorem Led.same (h : Led cfg trace w) (honward : Onward cfg trace w label w')
    (hcalls : w'.calls = w.calls) (hmap : w'.finalizing = w.finalizing) :
    Led cfg (trace ++ [(label, w')]) w' := by
  constructor
  · intro pid call a hat hcopies
    rw [hcalls] at hat
    exact honward.passed (h.copies pid call a hat hcopies)
  · intro pid call result hat hphase
    rw [hcalls] at hat
    exact honward.settled (h.computed pid call result hat hphase)
  · rw [hmap, hcalls]
    exact h.leaders
  · rw [hcalls]
    intro pid call leader hat hphase
    obtain ⟨lead, hlead, hid, hinput, hawaited⟩ := h.followers pid call leader hat hphase
    exact ⟨lead, hlead, hid, hinput, honward.awaited hawaited⟩

/-- What a call needs to take the place `pid`. -/
structure Next (cfg : Config) (trace later : List (Label × World)) (w w' : World) (pid : Nat)
    (new : FinalizeCall) : Prop where
  copies : ∀ a, new.phase.copies = some a → Passed cfg later w' new a
  computed : ∀ result, new.phase = .computed result → Settled cfg later w' pid new result
  /-- who waits for the call before can wait for this one -/
  awaited : ∀ call, w.calls pid = some call → (∀ result, call.phase ≠ .returned result) ∧
    new.id = call.id ∧ new.input = call.input ∧
    (call.phase.leads = true → Awaited cfg later w' pid new)
  follows : ∀ leader, new.phase = .following leader →
    ∃ lead, w.calls leader = some lead ∧ lead.id = new.id ∧ lead.input = new.input ∧
      Awaited cfg trace w leader lead

/-- One call is entered, or goes on. -/
theorem Led.update {new : FinalizeCall} (h : Led cfg trace w)
    (honward : Onward cfg trace w label w')
    (hcalls : w'.calls = Function.update w.calls pid (some new))
    (hmap : ∀ process id leader, w'.finalizing process id = some leader →
      leader = pid ∧ process = new.process ∧ id = new.id ∧ new.phase.leads = true ∨
        leader ≠ pid ∧ w.finalizing process id = some leader)
    (hnext : Next cfg trace (trace ++ [(label, w')]) w w' pid new) :
    Led cfg (trace ++ [(label, w')]) w' := by
  have hself : w'.calls pid = some new := by
    rw [hcalls, Function.update_self]
  have hother : ∀ {other}, other ≠ pid → w'.calls other = w.calls other := by
    intro other hne
    rw [hcalls, Function.update_of_ne hne]
  have hnew : ∀ {other found}, w'.calls other = some found →
      other = pid ∧ found = new ∨ w.calls other = some found := by
    intro other found hfound
    by_cases heq : other = pid
    · rw [heq, hself] at hfound
      exact Or.inl ⟨heq, (Option.some.inj hfound).symm⟩
    · rw [hother heq] at hfound
      exact Or.inr hfound
  constructor
  · intro other found a hfound hcopies
    rcases hnew hfound with ⟨rfl, rfl⟩ | hfound
    · exact hnext.copies a hcopies
    · exact honward.passed (h.copies other found a hfound hcopies)
  · intro other found result hfound hcomputed
    rcases hnew hfound with ⟨rfl, rfl⟩ | hfound
    · exact hnext.computed result hcomputed
    · exact honward.settled (h.computed other found result hfound hcomputed)
  · intro process id leader hleader
    rcases hmap process id leader hleader with ⟨rfl, rfl, rfl, hleads⟩ | ⟨hne, hold⟩
    · exact ⟨_, hself, rfl, rfl, hleads⟩
    · obtain ⟨lead, hlead, hrest⟩ := h.leaders process id leader hold
      exact ⟨lead, (hother hne).trans hlead, hrest⟩
  · intro other found leader hfound hfollowing
    obtain ⟨lead, hlead, hid, hinput, hawaited⟩ : ∃ lead, w.calls leader = some lead ∧
        lead.id = found.id ∧ lead.input = found.input ∧ Awaited cfg trace w leader lead := by
      rcases hnew hfound with ⟨-, rfl⟩ | hfound
      · exact hnext.follows leader hfollowing
      · exact h.followers other found leader hfound hfollowing
    by_cases heq : leader = pid
    · -- the call that is waited for is the one that goes on
      rw [heq] at hlead ⊢
      obtain ⟨hopen, hid', hinput', hleads⟩ := hnext.awaited lead hlead
      refine ⟨new, hself, hid'.trans hid, hinput'.trans hinput, ?_⟩
      rcases hawaited with hleading | ⟨result, hreturned, -⟩
      · exact hleads hleading
      · exact absurd hreturned (hopen result)
    · exact ⟨lead, (hother heq).trans hlead, hid, hinput, honward.awaited hawaited⟩

/-- The map stays as it is when a call that leads goes on leading, or one that does not goes
on. -/
theorem Led.map_same {new : FinalizeCall} (h : Led cfg trace w)
    (hmap : w'.finalizing = w.finalizing)
    (hleads : ∀ call, w.calls pid = some call → call.phase.leads = true →
      new.process = call.process ∧ new.id = call.id ∧ new.phase.leads = true) :
    ∀ process id leader, w'.finalizing process id = some leader →
      leader = pid ∧ process = new.process ∧ id = new.id ∧ new.phase.leads = true ∨
        leader ≠ pid ∧ w.finalizing process id = some leader := by
  intro process id leader hleader
  rw [hmap] at hleader
  by_cases heq : leader = pid
  · obtain ⟨lead, hlead, rfl, rfl, hleading⟩ := h.leaders process id leader hleader
    rw [heq] at hlead
    obtain ⟨hprocess, hid, hnow⟩ := hleads lead hlead hleading
    exact Or.inl ⟨heq, hprocess.symm, hid.symm, hnow⟩
  · exact Or.inr ⟨heq, hleader⟩

/-- A call at `old` goes on to `phase`. -/
theorem Next.goto {old : Phase} (hat : w.calls pid = some call) (hphase : call.phase = old)
    (hopen : ∀ result, old ≠ .returned result)
    (hleads : old.leads = true → Awaited cfg later w' pid (call.goto phase))
    (hcopies : ∀ a, phase.copies = some a → Passed cfg later w' call a)
    (hcomputed : ∀ result, phase = .computed result → Settled cfg later w' pid call result)
    (hfollows : ∀ leader, phase = .following leader → ∃ lead, w.calls leader = some lead ∧
      lead.id = call.id ∧ lead.input = call.input ∧ Awaited cfg trace w leader lead) :
    Next cfg trace later w w' pid (call.goto phase) where
  copies := by
    intro a ha
    have hpassed := hcopies a ha
    exact ⟨hpassed.uploaded, hpassed.issued, hpassed.rows⟩
  computed := hcomputed
  awaited := by
    intro found hfound
    obtain rfl := Option.some.inj (hat.symm.trans hfound)
    rw [hphase]
    exact ⟨hopen, rfl, rfl, hleads⟩
  follows := hfollows

/-- A call goes on and the map stays as it is. -/
theorem Led.goto {old : Phase} (h : Led cfg trace w) (honward : Onward cfg trace w label w')
    (hat : w.calls pid = some call) (hphase : call.phase = old)
    (hcalls : w'.calls = Function.update w.calls pid (some (call.goto phase)))
    (hmap : w'.finalizing = w.finalizing) (hopen : ∀ result, old ≠ .returned result)
    (hleads : old.leads = true → phase.leads = true)
    (hcopies : ∀ a, phase.copies = some a → Passed cfg (trace ++ [(label, w')]) w' call a)
    (hcomputed : ∀ result, phase = .computed result →
      Settled cfg (trace ++ [(label, w')]) w' pid call result)
    (hfollows : ∀ leader, phase = .following leader → ∃ lead, w.calls leader = some lead ∧
      lead.id = call.id ∧ lead.input = call.input ∧ Awaited cfg trace w leader lead) :
    Led cfg (trace ++ [(label, w')]) w' := by
  refine h.update honward hcalls (h.map_same hmap ?_)
    (Next.goto hat hphase hopen (fun hold => Or.inl (hleads hold)) hcopies hcomputed hfollows)
  intro found hfound hleading
  obtain rfl := Option.some.inj (hat.symm.trans hfound)
  rw [hphase] at hleading
  exact ⟨rfl, rfl, hleads hleading⟩

/-- A call goes on with the same upload. -/
theorem Led.copying {old : Phase} (h : Led cfg trace w) (honward : Onward cfg trace w label w')
    (hat : w.calls pid = some call) (hphase : call.phase = old) (hold : old.copies = some a) :
    Passed cfg (trace ++ [(label, w')]) w' call a :=
  honward.passed (h.copies pid call a hat (by rw [hphase]; exact hold))

/-- A leading call has its answer. -/
theorem Led.answer {old : Phase} (h : Led cfg trace w) (honward : Onward cfg trace w label w')
    (hat : w.calls pid = some call) (hphase : call.phase = old)
    (hcalls : w'.calls = Function.update w.calls pid (some (call.goto (.computed result))))
    (hmap : w'.finalizing = w.finalizing) (hopen : ∀ result, old ≠ .returned result)
    (hsettled : Settled cfg (trace ++ [(label, w')]) w' pid call result) :
    Led cfg (trace ++ [(label, w')]) w' := by
  refine h.goto honward hat hphase hcalls hmap hopen (fun _ => rfl) nofun ?_ nofun
  rintro result' ⟨⟩
  exact hsettled

theorem settled_incidental {err : Err} (h : err.Incidental) :
    Settled cfg trace w pid call (.error err) :=
  ⟨fun herr => absurd herr h.2, fun herr => absurd herr h.1⟩

/-- A refused acceptance, unless its transaction overran the reservation. -/
theorem Passed.refused {env : Env} (h : Passed cfg trace w call a)
    (henv : env.Within w.clock after)
    (hrefusal : Refusal cfg env call.id call.token call.input.generation w.db) :
    ({ w with clock := after } : World).Over call.id call.input.generation := by
  refine ⟨h.issued, ?_⟩
  intro row hrow
  obtain ⟨hgeneration, htoken⟩ := h.rows row hrow
  rcases hrefusal row hrow with hother | hforeign | hunavailable | ⟨i, hexpired⟩
  · exact Or.inl (lt_of_le_of_ne hgeneration (Ne.symm hother))
  · exact absurd htoken hforeign
  · exact Or.inr (Or.inl hunavailable)
  · exact Or.inr (Or.inr (hexpired.trans (henv.upper i)))

/-- **Step lemma.** -/
theorem Led.step (h : Led cfg trace w) (hrun : Run (Step cfg) (World.start clock) trace w)
    (hown : OwnStep cfg w label w') : Led cfg (trace ++ [(label, w')]) w' := by
  have hinv := inv_of_run hrun
  have hnow : Run (Step cfg) (World.start clock) (trace ++ [(label, w')]) w' := hrun.snoc hown.step
  have honward : Onward cfg trace w label w' :=
    ⟨hown.step.1.advance hinv, fun id => (past_of_requests hnow id).length_le⟩
  have hlast : (label, w') ∈ trace ++ [(label, w')] := List.mem_append_right _ List.mem_cons_self
  obtain ⟨accepted, answers⟩ := label
  have haction := hown.step.1
  dsimp only at haction
  cases haction with
  | finalizeEnter pid process id token input hfree hvalid =>
    have hnone : ∀ call, w.calls pid ≠ some call := by
      intro call hat
      rw [hfree] at hat
      cases hat
    exact h.update honward rfl (h.map_same rfl fun call hat => absurd hat (hnone call))
      ⟨nofun, nofun, fun call hat => absurd hat (hnone call), nofun⟩
  | @finalizePass call a db after pid env henv hat hphase hfirst =>
    obtain ⟨rfl, row, hbegins, hgeneration, hattempt, -, hobject⟩ := finalizeTx_ok hfirst
    have hrow : w.row call.id = some row := hbegins.found
    refine h.goto honward hat hphase rfl rfl nofun nofun ?_ nofun nofun
    rintro a' ⟨⟩
    refine ⟨⟨_, hlast, row, hrow, hgeneration, hattempt, hobject⟩, hinv.issued call.id row hrow, ?_⟩
    intro row' hrow'
    obtain rfl := Option.some.inj (hrow.symm.trans hrow')
    exact ⟨hgeneration.ge, hbegins.authorized⟩
  | finalizeReceipt pid env henv hat hphase hfirst =>
    exact h.goto honward hat hphase rfl rfl nofun nofun nofun nofun nofun
  | finalizeRefused pid env henv hat hphase hfirst =>
    exact h.goto honward hat hphase rfl rfl nofun nofun nofun nofun nofun
  | finalizeFail pid hat hphase =>
    rcases hphase with hphase | ⟨a, hphase⟩ | ⟨leader, hphase⟩ <;>
      exact h.goto honward hat hphase rfl rfl nofun nofun nofun nofun nofun
  | @finalizeFollow call a leader pid hat hphase hleader =>
    refine h.goto honward hat hphase rfl rfl nofun nofun nofun nofun ?_
    rintro leader' ⟨⟩
    obtain ⟨lead, hlead, -, hid, hleads⟩ := h.leaders _ _ leader hleader
    have hinput := hown.waits pid call a leader lead hat hphase (Function.update_self _ _ _) hlead
    exact ⟨lead, hlead, hid, hinput, Or.inl hleads⟩
  | @finalizeLead call a pid hat hphase hfree =>
    refine h.update honward rfl ?_
      (Next.goto hat hphase nofun (fun _ => Or.inl rfl) ?_ nofun nofun)
    · intro process id leader hleader
      rw [World.setLeader_finalizing] at hleader
      split at hleader
      · rename_i hsame
        exact Or.inl ⟨(Option.some.inj hleader).symm, hsame.1, hsame.2, rfl⟩
      · -- another entry of the map: this call does not lead yet
        refine Or.inr ⟨?_, hleader⟩
        rintro rfl
        obtain ⟨lead, hlead, -, -, hleads⟩ := h.leaders process id leader hleader
        obtain rfl := Option.some.inj (hat.symm.trans hlead)
        rw [hphase] at hleads
        cases hleads
    · rintro a' ⟨⟩
      exact h.copying honward hat hphase rfl
  | copySpool pid hat hphase hobject hcopy =>
    refine h.goto honward hat hphase rfl rfl nofun (fun _ => rfl) ?_ nofun nofun
    rintro a' ⟨⟩
    exact h.copying honward hat hphase rfl
  | @copyReject call a object pid hat hphase hobject hcopy =>
    refine h.answer honward hat hphase rfl rfl nofun ⟨nofun, fun _ => ?_⟩
    have hpassed := h.copying honward hat hphase rfl
    exact ⟨a, object, hpassed.uploaded, hcopy, _, hlast, hobject, List.mem_cons_self⟩
  | copyWrite pid hat hphase =>
    refine h.goto honward hat hphase rfl rfl nofun (fun _ => rfl) ?_ nofun nofun
    rintro a' ⟨⟩
    exact h.copying honward hat hphase rfl
  | copyLost pid hat hphase =>
    exact h.answer honward hat hphase rfl rfl nofun (settled_incidental ⟨nofun, nofun⟩)
  | copyFail pid hat hphase =>
    rcases hphase with ⟨a, hphase⟩ | ⟨a, body, hphase⟩ <;>
      exact h.answer honward hat hphase rfl rfl nofun (settled_incidental ⟨nofun, nofun⟩)
  | @accept call a receipt db after pid env henv hat hphase hsecond =>
    obtain ⟨-, rfl, -⟩ := acceptTx_ok hinv.unique henv.mono (hinv.pair hat hphase) hsecond
    obtain ⟨t, hash, hone, hgeneration, hhash, hattempt⟩ :=
      confirmed_of_run hnow (Or.inl List.mem_cons_self)
    have hsame : call.attempt = hash :=
      Except.ok.inj ((validateAttempt_ok (hinv.valid pid call hat)).2.symm.trans hhash)
    refine h.answer honward hat hphase rfl rfl nofun ⟨rfl, t, hone, hgeneration, ?_⟩
    rw [hsame]
    exact hattempt
  | @acceptRefused call a err after pid env henv hat hphase hsecond =>
    have hpassed := h.copies pid call a hat (by rw [hphase]; rfl)
    refine h.answer honward hat hphase rfl rfl nofun ?_
    rcases acceptTx_refused hsecond with hincidental | ⟨rfl, hrefusal |
      ⟨row, hrow, huploading, hgeneration, hbegan, hdeadline⟩⟩
    · exact settled_incidental hincidental
    · exact ⟨fun _ => hpassed.refused henv hrefusal, nofun⟩
    · -- the transaction would have overrun the reservation
      have hmoved : Function.update w.calls pid
          (some (call.goto (.computed (.error .unavailable)))) pid ≠ some call := by
        intro hsame
        rw [Function.update_self] at hsame
        have hphase' := congrArg FinalizeCall.phase (Option.some.inj hsame)
        rw [hphase] at hphase'
        cases hphase'
      have hintime := hown.deadline pid call a row hat hphase hmoved hrow huploading hgeneration
        ((henv.lower 1).trans_lt hbegan)
      exact absurd (hdeadline.trans (henv.upper 3)) (Nat.not_le.mpr hintime)
  | acceptFail pid hat hphase =>
    exact h.answer honward hat hphase rfl rfl nofun (settled_incidental ⟨nofun, nofun⟩)
  | @finalizeReturn call result pid hat hphase =>
    have hsettled := honward.settled (h.computed pid call result hat hphase)
    refine h.update honward rfl ?_
      (Next.goto hat hphase nofun (fun _ => Or.inr ⟨result, rfl, hsettled⟩) nofun nofun nofun)
    intro process id leader hleader
    rw [World.setLeader_finalizing] at hleader
    split at hleader
    · cases hleader
    rename_i hother
    refine Or.inr ⟨?_, hleader⟩
    -- the entry of a call is that of its own process and request
    rintro rfl
    obtain ⟨lead, hlead, rfl, rfl, -⟩ := h.leaders process id leader hleader
    obtain rfl := Option.some.inj (hat.symm.trans hlead)
    exact hother ⟨rfl, rfl⟩
  | finalizeShared pid hat hphase hleader hdone =>
    exact h.goto honward hat hphase rfl rfl nofun nofun nofun nofun nofun
  | _ => exact h.same honward rfl rfl

theorem led_of_run (hrun : Run (OwnStep cfg) (World.start clock) trace w) : Led cfg trace w := by
  have hboth : Run (Step cfg) (World.start clock) trace w ∧ Led cfg trace w := by
    refine Run.history_invariant
      (fun trace w => Run (Step cfg) (World.start clock) trace w ∧ Led cfg trace w) ?_ ?_ hrun
    · have hfree : ∀ pid call, (World.start clock).calls pid ≠ some call := fun _ call hat =>
        Option.some_ne_none call hat.symm
      exact ⟨Run.nil, fun _ _ _ hat => absurd hat (hfree _ _),
        fun _ _ _ hat => absurd hat (hfree _ _),
        fun _ _ leader hleader => absurd hleader.symm (Option.some_ne_none leader),
        fun _ _ _ hat => absurd hat (hfree _ _)⟩
    · intro trace w label w' _ hpast hstep
      exact ⟨hpast.1.snoc hstep.step, hpast.2.step hpast.1 hstep⟩
  exact hboth.2

/-! ### The answers -/

/-- What the answer of the call `pid` says about its own attempt.  `before` and `w` are the
states around its return, `trace` is the run up to it. -/
structure OwnAnswer (cfg : Config) (trace : List (Label × World)) (before w : World) (pid : Nat)
    (call : FinalizeCall) (result : Result) : Prop where
  unavailable : result = .error .unavailable → ∀ row, w.row call.id = some row →
    row.generation ≠ call.input.generation ∨ row.state = .unavailable ∨ row.expiresAt ≤ w.clock ∨
      tokenHash cfg.sha256 call.token ≠ .ok row.submissionTokenHash
  /-- the upload was rejected in this very call, or in the one it waited for -/
  invalid : result = .error .invalid →
    ∃ reader, (reader = pid ∨ call.phase = .following reader) ∧ Rejected cfg trace reader call
  receipt : ∀ receipt, result = .ok receipt →
    receipt = ⟨call.input.generation, .submitted⟩ ∧ AcceptedOnly trace call
  /-- an answer taken from another call is about the same attempt -/
  shared : ∀ leader, call.phase = .following leader → result ≠ .error .other →
    ∃ lead, before.calls leader = some lead ∧ lead.id = call.id ∧ lead.input = call.input ∧
      lead.phase = .returned result

theorem OwnAnswer.of_settled {before : World} {reader : Nat}
    (h : Settled cfg trace w reader call result)
    (hreader : reader = pid ∨ call.phase = .following reader)
    (hshared : ∀ leader, call.phase = .following leader → ∃ lead, before.calls leader = some lead ∧
      lead.id = call.id ∧ lead.input = call.input ∧ lead.phase = .returned result) :
    OwnAnswer cfg trace before w pid call result where
  unavailable := by
    rintro rfl row hrow
    rcases (h.1 rfl).2 row hrow with hlate | hunavailable | hexpired
    · exact Or.inl hlate.ne'
    · exact Or.inr (Or.inl hunavailable)
    · exact Or.inr (Or.inr (Or.inl hexpired))
  invalid := by
    rintro rfl
    exact ⟨reader, hreader, h.2 rfl⟩
  receipt := by
    rintro receipt rfl
    exact h
  shared := fun leader hfollowing _ => hshared leader hfollowing

/-- What is said of the leader's attempt is said of the follower's, if they are the same. -/
theorem Settled.share {lead : FinalizeCall} (h : Settled cfg trace w pid lead result)
    (hid : lead.id = call.id) (hinput : lead.input = call.input)
    (hattempt : lead.attempt = call.attempt) : Settled cfg trace w pid call result := by
  cases result with
  | ok receipt =>
    rw [Settled, AcceptedOnly, ← hid, ← hinput, ← hattempt]
    exact h
  | error err =>
    simp only [Settled, Rejected, Uploaded, ← hid, ← hinput, ← hattempt]
    exact h

/-- **Coalescing answers with the caller's own attempt.**  In every run in which calls start to
wait only for calls of their own attempt and no acceptance overruns its reservation, every
answer of `Finalize` is about the attempt it was called for. -/
theorem finalize_answers_own_attempt {clock : Nat} {front back : List (Label × World)}
    {after : World}
    (hrun : Run (OwnStep cfg) (World.start clock) (front ++ (label, after) :: back) w) {pid : Nat}
    {id : String} {input : AttemptInput} {result : Result}
    (hanswer : .finalized pid id input result ∈ label.answers) :
    ∃ before call, Run (OwnStep cfg) (World.start clock) front before ∧
      before.calls pid = some call ∧ call.id = id ∧ call.input = input ∧
      validateAttempt cfg input = .ok call.attempt ∧
      OwnAnswer cfg (front ++ [(label, after)]) before after pid call result := by
  obtain ⟨before, hfront, hown, -⟩ := hrun.split
  have hplain : Run (Step cfg) (World.start clock) front before :=
    Run.mono (fun _ _ _ hstep => hstep.step) hfront
  have hinv := inv_of_run hplain
  have hled := led_of_run hfront
  have hnow : Run (Step cfg) (World.start clock) (front ++ [(label, after)]) after :=
    hplain.snoc hown.step
  have honward : Onward cfg front before label after :=
    ⟨hown.step.1.advance hinv, fun id => (past_of_requests hnow id).length_le⟩
  refine ⟨before, ?_⟩
  obtain ⟨accepted, answers⟩ := label
  have haction := hown.step.1
  dsimp only at haction hanswer
  cases haction with
  | @finalizeReceipt call receipt db after' pid' env henv hat hphase hfirst =>
    rcases List.mem_cons.mp hanswer with heq | hmem
    · cases heq
    · cases List.mem_singleton.mp hmem
      have hvalid := hinv.valid pid call hat
      obtain ⟨-, -, -, -, -, -, rfl⟩ := finalizeTx_ok hfirst
      obtain ⟨t, hash, hone, hgeneration, hhash, hattempt⟩ :=
        confirmed_of_run hnow (Or.inl List.mem_cons_self)
      have hsame : call.attempt = hash :=
        Except.ok.inj ((validateAttempt_ok hvalid).2.symm.trans hhash)
      refine ⟨call, hfront, hat, rfl, rfl, hvalid, nofun, nofun, ?_, ?_⟩
      · rintro receipt ⟨⟩
        exact ⟨rfl, t, hone, hgeneration, hsame ▸ hattempt⟩
      · rw [hphase]
        nofun
  | @finalizeRefused call err after' pid' env henv hat hphase hfirst =>
    cases List.mem_singleton.mp hanswer
    refine ⟨call, hfront, hat, rfl, rfl, hinv.valid pid call hat, ?_, ?_, nofun, ?_⟩
    · rintro ⟨⟩ row hrow
      rcases finalizeTx_refused hfirst with hincidental | ⟨-, hrefusal⟩
      · exact absurd rfl hincidental.2
      · rcases hrefusal row hrow with hother | hforeign | hunavailable | ⟨i, hexpired⟩
        · exact Or.inl hother
        · exact Or.inr (Or.inr (Or.inr hforeign))
        · exact Or.inr (Or.inl hunavailable)
        · exact Or.inr (Or.inr (Or.inl (hexpired.trans (henv.upper i))))
    · rintro ⟨⟩
      rcases finalizeTx_refused hfirst with hincidental | ⟨hno, -⟩
      · exact absurd rfl hincidental.1
      · cases hno
    · rw [hphase]
      nofun
  | @finalizeFail call pid' hat hphase =>
    cases List.mem_singleton.mp hanswer
    exact ⟨call, hfront, hat, rfl, rfl, hinv.valid pid call hat, nofun, nofun, nofun,
      fun _ _ hno => absurd rfl hno⟩
  | @finalizeReturn call result' pid' hat hphase =>
    cases List.mem_singleton.mp hanswer
    exact ⟨call, hfront, hat, rfl, rfl, hinv.valid pid call hat,
      OwnAnswer.of_settled (honward.settled (hled.computed pid call result hat hphase))
        (Or.inl rfl) (by rw [hphase]; nofun)⟩
  | @finalizeShared call lead leader result' pid' hat hphase hleader hdone =>
    cases List.mem_singleton.mp hanswer
    have hvalid := hinv.valid pid call hat
    obtain ⟨lead', hlead', hid, hinput, hawaited⟩ := hled.followers pid call leader hat hphase
    obtain rfl := Option.some.inj (hleader.symm.trans hlead')
    have hattempt : lead.attempt = call.attempt := by
      have hlead := hinv.valid leader lead hleader
      rw [hinput] at hlead
      exact Except.ok.inj (hlead.symm.trans hvalid)
    have hsettled : Settled cfg front before leader lead result := by
      rcases hawaited with hleads | ⟨result', hreturned, hsettled⟩
      · rw [hdone] at hleads
        cases hleads
      · rw [hdone] at hreturned
        cases hreturned
        exact hsettled
    refine ⟨call, hfront, hat, rfl, rfl, hvalid, OwnAnswer.of_settled
      (honward.settled (hsettled.share hid hinput hattempt)) (Or.inr hphase) ?_⟩
    intro leader' hfollowing
    rw [hphase] at hfollowing
    cases hfollowing
    exact ⟨lead, hleader, hid, hinput, hdone⟩
  | reserve =>
    obtain ⟨_, -, -, heq⟩ := mem_reservedAnswers hanswer
    cases heq
  | submit | attempt | openConsume | copyReject | accept => cases List.mem_singleton.mp hanswer
  | _ => cases hanswer

/-! ### Concrete runs -/

/-- Every call is for this attempt. -/
def World.Only (w : World) (input : AttemptInput) : Prop :=
  ∀ pid call, w.calls pid = some call → call.input = input

theorem World.Only.of_free {input : AttemptInput} (h : ∀ pid, w.calls pid = none) :
    w.Only input := by
  intro pid call hat
  rw [h pid] at hat
  cases hat

theorem World.Only.update {input : AttemptInput} (h : w.Only input)
    (hcalls : w'.calls = Function.update w.calls pid (some call)) (hinput : call.input = input) :
    w'.Only input := by
  intro other found hfound
  rw [hcalls, Function.update_apply] at hfound
  split at hfound
  · rw [← Option.some.inj hfound]
    exact hinput
  · exact h other found hfound

/-- With one attempt, and at one instant, every step is one the answers are read from. -/
theorem Action.snoc_own {input : AttemptInput} {answers : List Answer}
    (h : Run (OwnStep cfg) (World.start clock) trace w ∧ w.Only input)
    (haction : Action cfg w answers w') (hclock : w'.clock = w.clock) (honly : w'.Only input) :
    Run (OwnStep cfg) (World.start clock)
      (trace ++ [(⟨fun id => movedToSubmitted (w.row id) (w'.row id), answers⟩, w')]) w' ∧
      w'.Only input := by
  refine ⟨h.1.snoc ⟨haction.step, ?_, ?_⟩, honly⟩
  · -- all calls are for the one attempt, so also the one that is waited for
    intro pid call a leader lead hat _ _ hlead
    exact (h.2 leader lead hlead).trans (h.2 pid call hat).symm
  · intro pid call a row _ _ _ _ _ _ hlive
    rw [hclock]
    exact hlive

end

theorem sample_verifies : copyVerified (digestConfig sampleCodec) sampleAttempt
    (some (sampleBody, sampleBody.length)) = .ok sampleBody := by
  decide +kernel

/-- The reservation that is made after the first one was given up. -/
def secondUploadKey : String := uploadKeyOf (List.replicate 16 5)

def secondFinalKey : String := finalKeyOf (List.replicate 16 6)

def secondRow : RequestRow :=
  (reservedRow.endReservation 1).reserve ⟨List.replicate 32 4, List.replicate 32 123, 32,
    Envelope.marshal ⟨2, stdEncoding.encodeToString ageMagic⟩, List.replicate 32 97,
    secondUploadKey, secondFinalKey, 1 + 60 * second⟩

def secondDB : DB := { abandonedDB with requests := [secondRow] }

def secondAttempt : ObjectAttempt :=
  ⟨secondUploadKey, secondFinalKey, 32, some (List.replicate 32 97)⟩

/-- The first call leads, and its upload is there. -/
theorem sample_leads :
    ∃ trace w, (Run (OwnStep (digestConfig sampleCodec)) (World.start 1) trace w ∧
        w.Only ⟨1, sampleToken 3⟩) ∧
      w.clock = 1 ∧ w.db = reservedWorld.db ∧ w.calls 1 = none ∧
      w.calls 0 = some (sampleCall (.leading sampleAttempt)) ∧
      w.finalizing 0 sampleID = some 0 ∧ w.objects sampleUploadKey = some sampleBody ∧
      secondUploadKey ∉ w.used ∧ secondFinalKey ∉ w.used := by
  have hstart : Run (OwnStep (digestConfig sampleCodec)) (World.start 1) [] (World.start 1) ∧
      (World.start 1).Only ⟨1, sampleToken 3⟩ := ⟨Run.nil, .of_free fun _ => rfl⟩
  have hcreated := Action.snoc_own hstart sample_creation rfl (.of_free fun _ => rfl)
  have hreserved := Action.snoc_own hcreated sample_reservation rfl (.of_free fun _ => rfl)
  have hput := Action.snoc_own hreserved
    (Action.put sampleUploadKey sampleBody (uploadKeyOf_ne_finalKeyOf _)) rfl
    (.of_free fun _ => rfl)
  have henter := Action.snoc_own hput
    (Action.finalizeEnter 0 0 sampleID (sampleToken 1) _ rfl sample_validates) rfl
    (hput.2.update rfl rfl)
  have hpass := Action.snoc_own henter
    (Action.finalizePass 0 _ (stillEnv_within 1 sampleJobs) rfl rfl sample_passes) rfl
    (henter.2.update rfl rfl)
  have hlead := Action.snoc_own hpass (Action.finalizeLead 0 rfl rfl rfl) rfl
    (hpass.2.update rfl rfl)
  exact ⟨_, _, hlead, rfl, rfl, rfl, rfl, rfl, rfl, by decide +kernel, by decide +kernel⟩

/-- The second call waits for the first. -/
theorem sample_waits :
    ∃ trace label w, (Run (OwnStep (digestConfig sampleCodec)) (World.start 1)
        (trace ++ [(label, w)]) w ∧ w.Only ⟨1, sampleToken 3⟩) ∧
      w.clock = 1 ∧ w.db = reservedWorld.db ∧
      w.calls 1 = some (sampleCall (.following 0)) ∧
      w.calls 0 = some (sampleCall (.leading sampleAttempt)) ∧
      w.objects sampleUploadKey = some sampleBody := by
  obtain ⟨trace, w, hrun, hclock, hdb, hfree, hlead, hleader, hobject, -, -⟩ := sample_leads
  have hwithin : (stillEnv 1 sampleJobs).Within w.clock 1 := by
    rw [hclock]
    exact stillEnv_within 1 sampleJobs
  have henter := Action.snoc_own hrun
    (Action.finalizeEnter 1 0 sampleID (sampleToken 1) _ hfree sample_validates) rfl
    (hrun.2.update rfl rfl)
  have hpass := Action.snoc_own henter
    (Action.finalizePass 1 _ hwithin rfl rfl (hdb.symm ▸ sample_passes)) hclock.symm
    (henter.2.update rfl rfl)
  have hfollow := Action.snoc_own hpass (Action.finalizeFollow 1 rfl rfl hleader) rfl
    (hpass.2.update rfl rfl)
  exact ⟨_, _, _, hfollow, rfl, hdb, rfl, hlead, hobject⟩

/-- Two calls for the same upload: the second waits for the first and takes its receipt. -/
theorem finalize_answers_own_attempt_shared :
    ∃ (front : List (Label × World)) (label : Label) (after : World),
      Run (OwnStep (digestConfig sampleCodec)) (World.start 1) (front ++ [(label, after)]) after ∧
      (∃ entry ∈ front, entry.2.calls 1 = some (sampleCall (.following 0))) ∧
      label.answers = [.finalized 1 sampleID ⟨1, sampleToken 3⟩ (.ok ⟨1, .submitted⟩)] ∧
      ∃ before call, before.calls 1 = some call ∧ call.input = ⟨1, sampleToken 3⟩ ∧
        OwnAnswer (digestConfig sampleCodec) (front ++ [(label, after)]) before after 1 call
          (.ok ⟨1, .submitted⟩) := by
  have hsecond : acceptTx (digestConfig sampleCodec) (stillEnv 1 sampleJobs) sampleID
      (sampleToken 1) 1 (List.replicate 32 3) sampleAttempt reservedWorld.db =
        .commit { reservedWorld.db with
          requests := [reservedRow.accept]
          outbox := [.pending "jobs" "first" 1 (objectEvent "job-1" sampleUploadKey .orphan 1)] }
          (.ok (some ⟨1, .submitted⟩)) := by
    decide +kernel
  obtain ⟨trace, label, w, hwaits, hclock, hdb, hfollowing, hlead, hobject⟩ := sample_waits
  have hwithin : (stillEnv 1 sampleJobs).Within w.clock 1 := by
    rw [hclock]
    exact stillEnv_within 1 sampleJobs
  have hspool := Action.snoc_own hwaits (Action.copySpool 0 hlead rfl hobject sample_verifies) rfl
    (hwaits.2.update rfl rfl)
  have hwrite := Action.snoc_own hspool (Action.copyWrite 0 rfl rfl) rfl (hspool.2.update rfl rfl)
  have haccept := Action.snoc_own hwrite
    (Action.accept 0 _ hwithin rfl rfl (hdb.symm ▸ hsecond)) hclock.symm
    (hwrite.2.update rfl rfl)
  have hreturn := Action.snoc_own haccept (Action.finalizeReturn 0 rfl rfl) rfl
    (haccept.2.update rfl rfl)
  have hshared := Action.snoc_own hreturn (Action.finalizeShared 1 hfollowing rfl rfl rfl) rfl
    (hreturn.2.update rfl rfl)
  obtain ⟨before, call, -, hat, -, hinput, -, hown⟩ :=
    finalize_answers_own_attempt hshared.1 (List.mem_singleton_self _)
  refine ⟨_, _, _, hshared.1, ⟨(label, w), ?_, hfollowing⟩, rfl, before, call, hat, hinput, hown⟩
  simp

/-- The first call has copied its upload. -/
theorem sample_copied :
    ∃ trace w, Run (Step (digestConfig sampleCodec)) (World.start 1) trace w ∧
      w.clock = 1 ∧ w.db = reservedWorld.db ∧ w.calls 1 = none ∧
      w.calls 0 = some (sampleCall (.copied sampleAttempt)) ∧
      w.finalizing 0 sampleID = some 0 ∧ secondUploadKey ∉ w.used ∧ secondFinalKey ∉ w.used := by
  obtain ⟨trace, w, hrun, hclock, hdb, hfree, hlead, hleader, hobject, hupload, hfinal⟩ :=
    sample_leads
  have hplain : Run (Step (digestConfig sampleCodec)) (World.start 1) trace w :=
    Run.mono (fun _ _ _ hstep => hstep.step) hrun.1
  have hspool := hplain.snoc (Action.copySpool 0 hlead rfl hobject sample_verifies).step
  have hwrite := hspool.snoc (Action.copyWrite 0 rfl rfl).step
  exact ⟨_, _, hwrite, hclock, hdb, hfree, rfl, hleader,
    List.not_mem_cons_of_ne_of_not_mem (by decide +kernel) hupload,
    List.not_mem_cons_of_ne_of_not_mem (by decide +kernel) hfinal⟩

/-- The second reservation and its upload, while the first finalization goes on. -/
def overtakenWorld (w : World) : World :=
  World.store { w.setDB 1 secondDB with used := secondUploadKey :: secondFinalKey :: w.used }
    secondUploadKey sampleBody

/-- **A follower is told of another attempt.**  A finalization of generation 1 has copied its
upload; the reservation is given up and made again, and the new upload is there.  A
`Finalize` for it, with the reservation live and the upload valid all the time, waits for
the old finalization and is told `ErrUnavailable`. -/
theorem follower_told_of_another_attempt :
    ∃ (trace later : List (Label × World)) (mid final : World) (label : Label),
      Run (Step (digestConfig sampleCodec)) (World.start 1) trace mid ∧
      mid.calls 1 = none ∧ mid.row sampleID = some secondRow ∧
      secondRow.state = .uploading ∧ secondRow.generation = 2 ∧
      secondRow.attemptTokenHash = some (List.replicate 32 4) ∧
      validateAttempt (digestConfig sampleCodec) ⟨2, sampleToken 4⟩ = .ok (List.replicate 32 4) ∧
      mid.clock < secondRow.reservationExpires ∧ mid.clock < secondRow.expiresAt ∧
      secondRow.objectAttempt (digestConfig sampleCodec) = .ok secondAttempt ∧
      mid.objects secondUploadKey = some sampleBody ∧
      copyVerified (digestConfig sampleCodec) secondAttempt (some (sampleBody, sampleBody.length)) =
        .ok sampleBody ∧
      Run (Step (digestConfig sampleCodec)) mid (later ++ [(label, final)]) final ∧
      (∀ entry ∈ later ++ [(label, final)], entry.2.clock = mid.clock ∧ entry.2.db = mid.db ∧
        entry.2.objects = mid.objects) ∧
      label.answers = [.finalized 1 sampleID ⟨2, sampleToken 4⟩ (.error .unavailable)] := by
  obtain ⟨trace, w, hrun, hclock, hdb, hfree, hcopied, hleader, hupload, hfinal⟩ := sample_copied
  have hwithin : (stillEnv 1 sampleJobs).Within w.clock 1 := by
    rw [hclock]
    exact stillEnv_within 1 sampleJobs
  have habandon : abandon (digestConfig sampleCodec) (stillEnv 1 sampleJobs) sampleID
      (sampleToken 1) ⟨1, sampleToken 3⟩ w.db = .commit abandonedDB (.ok (some ⟨2, .waiting⟩)) := by
    rw [hdb]
    exact sample_abandons
  have hreserve : reserve (digestConfig sampleCodec) (stillEnv 1 sampleJobs) (List.replicate 16 5)
      (List.replicate 16 6) (some "url") sampleID (sampleToken 1)
      (sampleUpload 4 97 2) abandonedDB =
        .commit secondDB (.ok (some ⟨2, .uploading, some ("url", 1 + 60 * second)⟩)) := by
    decide +kernel
  have hvalid : validateAttempt (digestConfig sampleCodec) ⟨2, sampleToken 4⟩ =
      .ok (List.replicate 32 4) := by
    decide +kernel
  have hfirst : finalizeTx (digestConfig sampleCodec) (stillEnv 1 sampleJobs) sampleID
      (sampleToken 1) 2 (List.replicate 32 4) secondDB =
        .commit secondDB (.ok (some (.copy secondAttempt))) := by
    decide +kernel
  have hrefuse : ∀ v : World, v.clock = 1 → v.db = secondDB →
      v.calls 0 = some (sampleCall (.copied sampleAttempt)) → Action (digestConfig sampleCodec) v []
        ({ v with clock := 1 }.setCall 0
          ((sampleCall (.copied sampleAttempt)).goto (.computed (.error .unavailable)))) := by
    intro v hclock hdb hat
    have hsecond : acceptTx (digestConfig sampleCodec) (stillEnv 1 sampleJobs) sampleID
        (sampleToken 1) 1 (List.replicate 32 3) sampleAttempt v.db = .rollback .unavailable := by
      rw [hdb]
      decide +kernel
    exact Action.acceptRefused 0 _ (hclock.symm ▸ stillEnv_within 1 sampleJobs) hat rfl hsecond
  have hgiven := hrun.snoc (Action.abandon _ hwithin _ _ _ habandon (by simp)).step
  have hagain := hgiven.snoc
    (Action.reserve (w := w.setDB 1 abandonedDB) _ (stillEnv_within 1 sampleJobs) _ _ _ _ _ _
    ⟨hupload, hfinal, by decide⟩ hreserve (by simp)).step
  have hmid := hagain.snoc
    (Action.put secondUploadKey sampleBody (uploadKeyOf_ne_finalKeyOf _)).step
  have henter := Run.nil.snoc (Action.finalizeEnter (w := overtakenWorld w) 1 0 sampleID
    (sampleToken 1) ⟨2, sampleToken 4⟩ hfree hvalid).step
  have hpass := henter.snoc
    (Action.finalizePass 1 _ (stillEnv_within 1 sampleJobs) rfl rfl hfirst).step
  have hfollow := hpass.snoc (Action.finalizeFollow 1 rfl rfl hleader).step
  have hrefused := hfollow.snoc (hrefuse _ rfl rfl (by exact hcopied)).step
  have hreturn := hrefused.snoc (Action.finalizeReturn 0 rfl rfl).step
  have hshared := hreturn.snoc (Action.finalizeShared 1 rfl rfl rfl rfl).step
  refine ⟨_, _, overtakenWorld w, _, _, hmid, hfree, rfl, rfl, rfl, rfl, hvalid, ?_, ?_,
    by decide +kernel, ?_, by decide +kernel, hshared, ?_, rfl⟩
  · show 1 < 1 + 60 * second
    decide
  · show 1 < 1 + 60 * second
    decide
  · show Function.update w.objects secondUploadKey (some sampleBody) secondUploadKey = _
    exact Function.update_self _ _ _
  · intro entry hentry
    simp only [List.nil_append, List.cons_append, List.mem_cons, List.not_mem_nil,
      or_false] at hentry
    rcases hentry with rfl | rfl | rfl | rfl | rfl | rfl <;> exact ⟨rfl, rfl, rfl⟩

end Requests
end FlickDrop
