import Mathlib.Data.List.Range
import FlickDrop.Worker.ReceiptStore

/-!
# The life of one job

Everything the three worker tables hold about one job is a `JobView`: its receipt, its
attempts in insertion order and its dead letter.  `JobStep` lists what can happen to a
view at an instant, independently of how the tables are stored; `JobInv` is the
invariant of a job's life.  The store refines this machine (`ReceiptMachine`).
-/

namespace FlickDrop
namespace Worker

open Foundations

structure JobView where
  receipt : Option Receipt
  attempts : List Attempt
  letter : Option DeadLetter

/-- The failures that spend the budget. -/
def counted (attempts : List Attempt) : Nat :=
  (attempts.filter Attempt.counts).length

/-- What a lapsed lease does to an attempt row. -/
def Attempt.interrupt (now : Nat) (a : Attempt) : Attempt :=
  if a.result = .running then
    { a with result := .failed, finishedAt := some now, error := none }
  else
    a

/-- The end of an attempt's lease interval, which starts at `startedAt`: its finish, or
one `processingLease` after the start if that comes first. -/
def Attempt.leaseEnd (a : Attempt) : Nat :=
  match a.finishedAt with
  | none => a.startedAt + processingLease
  | some finished => min finished (a.startedAt + processingLease)

/-- The attempts after the running one is finished. -/
def finishRunning (finish : Finish) (now : Nat) (attempts : List Attempt) : List Attempt :=
  attempts.map fun a => if a.result = .running then a.finish finish now else a

/-- What can happen to one job at instant `now`. -/
inductive JobStep (maxFailures : Nat) (now : Nat) : JobView → JobView → Prop
  /-- the first delivery creates the receipt and claims attempt 1 -/
  | first (r : Receipt) (id : Nat) (hnew : r.attempts = 0) :
      JobStep maxFailures now ⟨none, [], none⟩
        ⟨some (r.claim now), [r.nextAttempt id now], none⟩
  /-- a redelivery after a recorded failure -/
  | retry (r : Receipt) (attempts : List Attempt) (letter : Option DeadLetter) (id : Nat)
      (hstate : r.state = .failed) (hbudget : counted attempts < maxFailures) :
      JobStep maxFailures now ⟨some r, attempts, letter⟩
        ⟨some (r.claim now), attempts ++ [r.nextAttempt id now], letter⟩
  /-- a redelivery after the lease of a lost attempt lapsed -/
  | recover (r : Receipt) (attempts : List Attempt) (letter : Option DeadLetter) (id : Nat)
      (hstate : r.state = .processing) (hlapsed : r.updatedAt + processingLease ≤ now)
      (hbudget : counted (attempts.map (Attempt.interrupt now)) < maxFailures) :
      JobStep maxFailures now ⟨some r, attempts, letter⟩
        ⟨some (r.claim now), attempts.map (Attempt.interrupt now) ++ [r.nextAttempt id now],
          letter⟩
  /-- a redelivery that finds the budget already spent -/
  | exhausted (r : Receipt) (attempts attempts' : List Attempt)
      (old : Option DeadLetter) (jobError : String) (letter : DeadLetter)
      (hkept : (r.state = .failed ∧ attempts' = attempts) ∨
        (r.state = .processing ∧ attempts' = attempts.map (Attempt.interrupt now)))
      (hbudget : maxFailures ≤ counted attempts') :
      JobStep maxFailures now ⟨some r, attempts, old⟩
        ⟨some (r.bury jobError now), attempts', some letter⟩
  /-- the running attempt finishes within the budget -/
  | finish (r : Receipt) (attempts : List Attempt) (letter : Option DeadLetter) (finish : Finish)
      (hstate : r.state = .processing)
      (hbudget : finish = .succeeded ∨
        counted (finishRunning finish now attempts) < maxFailures) :
      JobStep maxFailures now ⟨some r, attempts, letter⟩
        ⟨some (r.finish finish now), finishRunning finish now attempts, letter⟩
  /-- the running attempt fails and spends the last of the budget -/
  | finishDead (r : Receipt) (attempts : List Attempt) (old : Option DeadLetter)
      (finish : Finish) (jobError : String) (letter : DeadLetter)
      (hstate : r.state = .processing) (hfailed : finish ≠ .succeeded)
      (hbudget : maxFailures ≤ counted (finishRunning finish now attempts)) :
      JobStep maxFailures now ⟨some r, attempts, old⟩
        ⟨some ((r.finish finish now).bury jobError now), finishRunning finish now attempts,
          some letter⟩

/-- The invariant of a job's life at clock `clock`. -/
structure JobInv (maxFailures : Nat) (clock : Nat) (v : JobView) : Prop where
  absent : v.receipt = none → v.attempts = [] ∧ v.letter = none
  numbered : ∀ r, v.receipt = some r → v.attempts.map (·.attempt) = List.range' 1 r.attempts
  running : ∀ r, v.receipt = some r → r.state = .processing →
    ∃ front last, v.attempts = front ++ [last] ∧ last.result = .running ∧
      last.startedAt = r.updatedAt ∧ ∀ a ∈ front, a.result ≠ .running
  idle : ∀ r, v.receipt = some r → r.state ≠ .processing →
    ∀ a ∈ v.attempts, a.result ≠ .running
  finished : ∀ a ∈ v.attempts, a.result ≠ .running →
    ∃ t, a.finishedAt = some t ∧ t ≤ clock
  leases : v.attempts.Pairwise fun a b => a.leaseEnd ≤ b.startedAt
  budget : ∀ r, v.receipt = some r → (r.state = .dead ↔ maxFailures ≤ counted v.attempts)
  buried : ∀ r, v.receipt = some r → r.state = .dead → v.letter.isSome

/-! ### Small facts about the row operations -/

@[simp] theorem counted_append (front back : List Attempt) :
    counted (front ++ back) = counted front + counted back := by
  simp [counted]

@[simp] theorem counted_nextAttempt (r : Receipt) (id : Nat) (now : Nat) :
    counted [r.nextAttempt id now] = 0 := by
  simp [counted, Receipt.nextAttempt, Attempt.counts]

@[simp] theorem interrupt_attempt (now : Nat) (a : Attempt) :
    (a.interrupt now).attempt = a.attempt := by
  unfold Attempt.interrupt
  split <;> rfl

@[simp] theorem interrupt_startedAt (now : Nat) (a : Attempt) :
    (a.interrupt now).startedAt = a.startedAt := by
  unfold Attempt.interrupt
  split <;> rfl

theorem interrupt_not_running (now : Nat) (a : Attempt) :
    (a.interrupt now).result ≠ .running := by
  unfold Attempt.interrupt
  split
  · simp
  · assumption

theorem interrupt_of_not_running {now : Nat} {a : Attempt} (h : a.result ≠ .running) :
    a.interrupt now = a := if_neg h

/-- An interruption never spends the budget: it changes no counted failure and adds
none. -/
theorem counts_interrupt (now : Nat) (a : Attempt) :
    (a.interrupt now).counts = a.counts := by
  unfold Attempt.interrupt
  split
  · rename_i hrunning
    simp [Attempt.counts, hrunning]
  · rfl

theorem counted_map_interrupt (now : Nat) (attempts : List Attempt) :
    counted (attempts.map (Attempt.interrupt now)) = counted attempts := by
  induction attempts with
  | nil => rfl
  | cons a rest ih =>
    simp only [counted, List.map_cons, List.filter_cons, counts_interrupt] at ih ⊢
    split
    · simp only [List.length_cons, ih]
    · exact ih

/-- Once finished no later than `clock`, a lease ended no later than `clock`. -/
theorem leaseEnd_le_of_finished {a : Attempt} {t clock : Nat}
    (hfinished : a.finishedAt = some t) (ht : t ≤ clock) : a.leaseEnd ≤ clock := by
  unfold Attempt.leaseEnd
  rw [hfinished]
  exact Nat.le_trans (Nat.min_le_left _ _) ht

/-! ### The invariant is preserved -/

/-- Attempts of which none is running: what a claim or a terminal receipt needs. -/
structure Settled (clock : Nat) (attempts : List Attempt) : Prop where
  idle : ∀ a ∈ attempts, a.result ≠ .running
  finished : ∀ a ∈ attempts, ∃ t, a.finishedAt = some t ∧ t ≤ clock
  leases : attempts.Pairwise fun a b => a.leaseEnd ≤ b.startedAt

section

variable {maxFailures clock now : Nat} {r : Receipt} {attempts : List Attempt}
  {letter : Option DeadLetter} {v v' : JobView}

theorem JobInv.mono {clock' : Nat} (hclock : clock ≤ clock') (h : JobInv maxFailures clock v) :
    JobInv maxFailures clock' v := by
  refine { h with finished := ?_ }
  intro a ha hresult
  obtain ⟨t, hfinished, ht⟩ := h.finished a ha hresult
  exact ⟨t, hfinished, Nat.le_trans ht hclock⟩

/-- A receipt that is not being processed has only settled attempts. -/
theorem JobInv.settled (hclock : clock ≤ now)
    (h : JobInv maxFailures clock ⟨some r, attempts, letter⟩) (hstate : r.state ≠ .processing) :
    Settled now attempts := by
  have hidle := h.idle r rfl hstate
  refine ⟨hidle, ?_, h.leases⟩
  intro a ha
  obtain ⟨t, hfinished, ht⟩ := h.finished a ha (hidle a ha)
  exact ⟨t, hfinished, Nat.le_trans ht hclock⟩

/-- Closing the running attempt at `now`, whatever its new result, settles a job that
was being processed. -/
theorem JobInv.settled_close (hclock : clock ≤ now)
    (h : JobInv maxFailures clock ⟨some r, attempts, letter⟩) (hstate : r.state = .processing)
    (close : Attempt → Attempt) (hstart : ∀ a, (close a).startedAt = a.startedAt)
    (hkeep : ∀ a, a.result ≠ .running → close a = a)
    (hclose : ∀ a, a.result = .running →
      (close a).result ≠ .running ∧ (close a).finishedAt = some now) :
    Settled now (attempts.map close) := by
  obtain ⟨front, last, hattempts, hrunning, -, hfront⟩ := h.running r rfl hstate
  have hsame : front.map close = front := by
    conv_rhs => rw [← List.map_id front]
    apply List.map_congr_left
    intro a ha
    simp [hkeep a (hfront a ha)]
  simp only at hattempts
  subst hattempts
  rw [List.map_append, hsame, List.map_cons, List.map_nil]
  refine ⟨?_, ?_, ?_⟩
  · intro a ha
    rcases List.mem_append.mp ha with ha | ha
    · exact hfront a ha
    · rw [List.mem_singleton] at ha
      subst ha
      exact (hclose last hrunning).1
  · intro a ha
    rcases List.mem_append.mp ha with ha | ha
    · obtain ⟨t, hfinished, ht⟩ := h.finished a (List.mem_append_left _ ha) (hfront a ha)
      exact ⟨t, hfinished, Nat.le_trans ht hclock⟩
    · rw [List.mem_singleton] at ha
      subst ha
      exact ⟨now, (hclose last hrunning).2, Nat.le_refl now⟩
  · -- only the last row changed, and its start did not
    have hpair := h.leases
    simp only [List.pairwise_append] at hpair ⊢
    refine ⟨hpair.1, by simp, ?_⟩
    intro a ha b hb
    rw [List.mem_singleton] at hb
    subst hb
    rw [hstart]
    exact hpair.2.2 a ha last (List.mem_singleton_self last)

/-- Claiming the next attempt on settled attempts within the budget. -/
theorem JobInv.claim (id : Nat) (hsettled : Settled now attempts)
    (hnumbered : attempts.map (·.attempt) = List.range' 1 r.attempts)
    (hbudget : counted attempts < maxFailures) :
    JobInv maxFailures now
      ⟨some (r.claim now), attempts ++ [r.nextAttempt id now], letter⟩ := by
  refine ⟨by simp, ?_, ?_, ?_, ?_, ?_, ?_, ?_⟩
  · rintro _ ⟨rfl⟩
    simp only [List.map_append, hnumbered, Receipt.claim, List.map_cons, List.map_nil,
      Receipt.nextAttempt]
    rw [List.range'_concat, Nat.one_mul, Nat.add_comm 1]
  · rintro _ ⟨rfl⟩ _
    exact ⟨attempts, r.nextAttempt id now, rfl, rfl, rfl, hsettled.idle⟩
  · rintro _ ⟨rfl⟩ hstate
    exact absurd rfl hstate
  · intro a ha hresult
    rcases List.mem_append.mp ha with ha | ha
    · exact hsettled.finished a ha
    · rw [List.mem_singleton] at ha
      subst ha
      exact absurd rfl hresult
  · rw [List.pairwise_append]
    refine ⟨hsettled.leases, by simp, ?_⟩
    intro a ha b hb
    rw [List.mem_singleton] at hb
    subst hb
    obtain ⟨t, hfinished, ht⟩ := hsettled.finished a ha
    exact leaseEnd_le_of_finished hfinished ht
  · rintro _ ⟨rfl⟩
    have hnotDead : (r.claim now).state ≠ .dead := by simp [Receipt.claim]
    simp only [counted_append, counted_nextAttempt, Nat.add_zero, hnotDead, false_iff]
    omega
  · rintro _ ⟨rfl⟩ hdead
    exact absurd hdead (by simp [Receipt.claim])

/-- A receipt that leaves `processing`, with settled attempts and a state that agrees
with the budget. -/
theorem JobInv.leave (hsettled : Settled now attempts)
    (hnumbered : attempts.map (·.attempt) = List.range' 1 r.attempts)
    (hstate : r.state ≠ .processing) (hbudget : r.state = .dead ↔ maxFailures ≤ counted attempts)
    (hburied : r.state = .dead → letter.isSome) :
    JobInv maxFailures now ⟨some r, attempts, letter⟩ := by
  refine ⟨by simp, ?_, ?_, ?_, ?_, hsettled.leases, ?_, ?_⟩
  · rintro _ ⟨rfl⟩
    exact hnumbered
  · rintro _ ⟨rfl⟩ hprocessing
    exact absurd hprocessing hstate
  · rintro _ ⟨rfl⟩ _
    exact hsettled.idle
  · intro a ha _
    exact hsettled.finished a ha
  · rintro _ ⟨rfl⟩
    exact hbudget
  · rintro _ ⟨rfl⟩
    exact hburied

theorem JobInv.within_budget (h : JobInv maxFailures clock ⟨some r, attempts, letter⟩)
    (hstate : r.state ≠ .dead) : counted attempts < maxFailures := by
  have hiff := h.budget r rfl
  by_contra hge
  exact hstate (hiff.mpr (Nat.le_of_not_lt hge))

theorem finish_startedAt (a : Attempt) (finish : Finish) (now : Nat) :
    (if a.result = .running then a.finish finish now else a).startedAt = a.startedAt := by
  split <;> rfl

theorem finish_attempt (a : Attempt) (finish : Finish) (now : Nat) :
    (if a.result = .running then a.finish finish now else a).attempt = a.attempt := by
  split <;> rfl

theorem Finish.result_ne_running (finish : Finish) : finish.result ≠ .running := by
  cases finish <;> simp [Finish.result]

/-- A success never spends the budget. -/
theorem counted_finishRunning_succeeded (now : Nat) (attempts : List Attempt) :
    counted (finishRunning .succeeded now attempts) = counted attempts := by
  induction attempts with
  | nil => rfl
  | cons a rest ih =>
    have hcounts : (if a.result = .running then a.finish .succeeded now else a).counts
        = a.counts := by
      by_cases h : a.result = .running
      · simp [h, Attempt.counts, Attempt.finish, Finish.result]
      · simp [h]
    simp only [counted, finishRunning, List.map_cons, List.filter_cons, hcounts] at ih ⊢
    split
    · simp only [List.length_cons, ih]
    · exact ih

/-- The running attempt, once finished, leaves only settled attempts behind. -/
theorem JobInv.settled_finish (hclock : clock ≤ now)
    (h : JobInv maxFailures clock ⟨some r, attempts, letter⟩) (hstate : r.state = .processing)
    (finish : Finish) : Settled now (finishRunning finish now attempts) := by
  apply JobInv.settled_close hclock h hstate
  · exact fun a => finish_startedAt a finish now
  · intro a ha
    exact if_neg ha
  · intro a ha
    rw [if_pos ha]
    exact ⟨finish.result_ne_running, rfl⟩

theorem JobInv.settled_interrupt (hclock : clock ≤ now)
    (h : JobInv maxFailures clock ⟨some r, attempts, letter⟩) (hstate : r.state = .processing) :
    Settled now (attempts.map (Attempt.interrupt now)) := by
  apply JobInv.settled_close hclock h hstate
  · exact interrupt_startedAt now
  · intro a ha
    exact interrupt_of_not_running ha
  · intro a ha
    refine ⟨interrupt_not_running now a, ?_⟩
    simp [Attempt.interrupt, ha]

/-- **Step lemma.**  Whatever happens to a job at `now` keeps the invariant. -/
theorem JobInv.step (hclock : clock ≤ now) (hmax : 1 ≤ maxFailures) (h : JobInv maxFailures clock v)
    (hstep : JobStep maxFailures now v v') : JobInv maxFailures now v' := by
  cases hstep with
  | first r id hnew =>
    have hnone : Settled now ([] : List Attempt) := ⟨by simp, by simp, List.Pairwise.nil⟩
    exact JobInv.claim id hnone (by simp [hnew]) (by simp only [counted]; exact hmax)
  | retry r attempts letter id hstate hbudget =>
    have hsettled := JobInv.settled hclock h (by simp [hstate])
    exact JobInv.claim id hsettled (h.numbered r rfl) hbudget
  | recover r attempts letter id hstate hlapsed hbudget =>
    have hsettled := JobInv.settled_interrupt hclock h hstate
    refine JobInv.claim id hsettled ?_ hbudget
    have hnumbered := h.numbered r rfl
    simpa [Function.comp_def] using hnumbered
  | exhausted r attempts attempts' old jobError letter hkept hbudget =>
    -- the budget cannot be spent while the receipt is alive
    exfalso
    rcases hkept with ⟨hstate, rfl⟩ | ⟨hstate, rfl⟩
    · have hwithin := h.within_budget (by simp [hstate])
      omega
    · have hwithin := h.within_budget (by simp [hstate])
      rw [counted_map_interrupt] at hbudget
      omega
  | finish r attempts letter finish hstate hbudget =>
    have hsettled := JobInv.settled_finish hclock h hstate finish
    have halive : counted (finishRunning finish now attempts) < maxFailures := by
      rcases hbudget with rfl | hbudget
      · rw [counted_finishRunning_succeeded]
        exact h.within_budget (by simp [hstate])
      · exact hbudget
    have hnotDead : (r.finish finish now).state ≠ .dead := by
      cases finish <;> simp [Receipt.finish, Finish.receiptState]
    refine JobInv.leave hsettled ?_ ?_ ?_ (fun hdead => absurd hdead hnotDead)
    · have hnumbered := h.numbered r rfl
      simpa [finishRunning, Function.comp_def, finish_attempt, Receipt.finish] using hnumbered
    · cases finish <;> simp [Receipt.finish, Finish.receiptState]
    · simp only [hnotDead, false_iff]
      omega
  | finishDead r attempts old finish jobError letter hstate hfailed hbudget =>
    have hsettled := JobInv.settled_finish hclock h hstate finish
    refine JobInv.leave hsettled ?_ ?_ ?_ (fun _ => rfl)
    · have hnumbered := h.numbered r rfl
      simpa [finishRunning, Function.comp_def, finish_attempt, Receipt.finish,
        Receipt.bury] using hnumbered
    · simp [Receipt.bury]
    · simpa [Receipt.bury] using hbudget

/-- A succeeded or dead job never moves again. -/
theorem JobStep.alive (hstep : JobStep maxFailures now v v') (hreceipt : v.receipt = some r) :
    r.state = .processing ∨ r.state = .failed := by
  cases hstep with
  | first => simp at hreceipt
  | retry _ _ _ _ hstate _ =>
    obtain rfl := Option.some.inj hreceipt
    exact Or.inr hstate
  | recover _ _ _ _ hstate _ _ =>
    obtain rfl := Option.some.inj hreceipt
    exact Or.inl hstate
  | exhausted _ _ _ _ _ _ hkept _ =>
    obtain rfl := Option.some.inj hreceipt
    rcases hkept with ⟨hstate, -⟩ | ⟨hstate, -⟩
    · exact Or.inr hstate
    · exact Or.inl hstate
  | finish _ _ _ _ hstate _ =>
    obtain rfl := Option.some.inj hreceipt
    exact Or.inl hstate
  | finishDead _ _ _ _ _ _ hstate _ _ =>
    obtain rfl := Option.some.inj hreceipt
    exact Or.inl hstate

end

end Worker
end FlickDrop
