import Mathlib.Algebra.Order.Field.Basic
import Mathlib.Tactic.Linarith
import Mathlib.Tactic.Ring

/-!
# Token buckets

A bucket fills at a constant rate up to its burst.  A call takes one token when there is one and
is refused otherwise.  Times and tokens are numbers of one ordered field.

* `serve` answers the calls of one bucket in order;
* `serve_window` bounds the calls it allows between two times.
-/

namespace FlickDrop
namespace Foundations
namespace TokenBucket

/-- The calls allowed in the closed window from `start` to `stop`. -/
def allowedIn {K : Type*} [LinearOrder K] (start stop : K) (answers : List (K × Bool)) : Nat :=
  answers.countP fun answer => answer.2 && decide (start ≤ answer.1 ∧ answer.1 ≤ stop)

theorem allowedIn_cons {K : Type*} [LinearOrder K] (start stop now : K) (allowed : Bool)
    (answers : List (K × Bool)) :
    allowedIn start stop ((now, allowed) :: answers) =
      allowedIn start stop answers +
        if allowed = true ∧ start ≤ now ∧ now ≤ stop then 1 else 0 := by
  simp only [allowedIn, List.countP_cons, Bool.and_eq_true, decide_eq_true_eq]

variable {K : Type*} [Field K] [LinearOrder K]

/-- The tokens of a bucket that has filled for `elapsed`. -/
def refill (rate burst tokens elapsed : K) : K :=
  if 0 < elapsed then min burst (tokens + elapsed * rate) else tokens

/-- One call: whether a token was there, and the tokens that remain. -/
def take (level : K) : Bool × K :=
  if level < 1 then (false, level) else (true, level - 1)

/-- The answers to calls at the given times, each with its time. -/
def serve (rate burst : K) : K → K → List K → List (K × Bool)
  | _, _, [] => []
  | tokens, last, now :: rest =>
    let taken := take (refill rate burst tokens (now - last))
    (now, taken.1) :: serve rate burst taken.2 now rest

variable {rate burst tokens elapsed level last : K}

theorem refill_le_burst (h : tokens ≤ burst) : refill rate burst tokens elapsed ≤ burst := by
  rw [refill]
  split
  · exact min_le_left _ _
  · exact h

/-- A call pays for itself. -/
theorem take_paid (level : K) :
    (if (take level).1 = true then 1 else 0) + (take level).2 = level := by
  rw [take]
  split
  · simp
  · simp

/-- No call after the window counts. -/
theorem allowedIn_serve_late {start stop : K} {times : List K} (hlate : ∀ now ∈ times, stop < now) :
    allowedIn start stop (serve rate burst tokens last times) = 0 := by
  induction times generalizing tokens last with
  | nil => rfl
  | cons now rest ih =>
    have hnow : ¬ now ≤ stop := not_le.mpr (hlate now List.mem_cons_self)
    rw [serve, allowedIn_cons, ih fun later h => hlate later (List.mem_cons_of_mem _ h)]
    simp [hnow]

variable [IsStrictOrderedRing K] {times : List K} {stop : K}

theorem refill_nonneg (elapsed : K) (hrate : 0 ≤ rate) (hburst : 0 ≤ burst) (h : 0 ≤ tokens) :
    0 ≤ refill rate burst tokens elapsed := by
  rw [refill]
  split
  · rename_i hlater
    exact le_min hburst (add_nonneg h (mul_nonneg hlater.le hrate))
  · exact h

theorem refill_le_add (burst tokens : K) (hrate : 0 ≤ rate) (helapsed : 0 ≤ elapsed) :
    refill rate burst tokens elapsed ≤ tokens + elapsed * rate := by
  rw [refill]
  split
  · exact min_le_right _ _
  · exact le_add_of_nonneg_right (mul_nonneg helapsed hrate)

/-- A bucket that is left alone long enough is full. -/
theorem refill_full (h : 0 ≤ tokens) (hlater : 0 < elapsed) (hlong : burst ≤ elapsed * rate) :
    refill rate burst tokens elapsed = burst := by
  rw [refill, if_pos hlater]
  exact min_eq_left (hlong.trans (le_add_of_nonneg_left h))

/-- A full bucket stays full. -/
theorem refill_burst (hrate : 0 ≤ rate) : refill rate burst burst elapsed = burst := by
  rw [refill]
  split
  · rename_i hlater
    exact min_eq_left (le_add_of_nonneg_right (mul_nonneg hlater.le hrate))
  · rfl

theorem take_nonneg (h : 0 ≤ level) : 0 ≤ (take level).2 := by
  rw [take]
  split
  · exact h
  · rename_i hone
    exact sub_nonneg.mpr (not_lt.mp hone)

theorem take_le : (take level).2 ≤ level := by
  rw [take]
  split
  · exact le_rfl
  · exact sub_le_self level zero_le_one

/-- From a time inside the window, the tokens at hand and those still to come pay for every
call the window allows. -/
theorem allowedIn_serve_le (start : K) (hrate : 0 ≤ rate) (hburst : 0 ≤ burst)
    (htokens : 0 ≤ tokens) (hlast : last ≤ stop) (hsorted : (last :: times).Pairwise (· ≤ ·)) :
    (allowedIn start stop (serve rate burst tokens last times) : K) ≤
      tokens + (stop - last) * rate := by
  induction times generalizing tokens last with
  | nil =>
    have hcome : 0 ≤ (stop - last) * rate := mul_nonneg (sub_nonneg.mpr hlast) hrate
    simpa [serve, allowedIn] using add_nonneg htokens hcome
  | cons now rest ih =>
    obtain ⟨hafter, hrest⟩ := List.pairwise_cons.mp hsorted
    have hlater : last ≤ now := hafter now List.mem_cons_self
    rcases lt_or_ge stop now with hlate | hnow
    · rw [allowedIn_serve_late]
      · have hcome : 0 ≤ (stop - last) * rate := mul_nonneg (sub_nonneg.mpr hlast) hrate
        simpa using add_nonneg htokens hcome
      · intro later hmem
        rcases List.mem_cons.mp hmem with rfl | hmem
        · exact hlate
        · exact hlate.trans_le ((List.pairwise_cons.mp hrest).1 later hmem)
    · -- the call spends what the bucket held or gained since the last one
      have hlevel := refill_le_add burst tokens hrate (sub_nonneg.mpr hlater)
      have hpaid := take_paid (refill rate burst tokens (now - last))
      have hih := ih (take_nonneg (refill_nonneg (now - last) hrate hburst htokens)) hnow hrest
      have hsplit : (stop - last) * rate = (now - last) * rate + (stop - now) * rate := by ring
      have hone : ((if (take (refill rate burst tokens (now - last))).1 = true ∧ start ≤ now ∧
          now ≤ stop then 1 else 0 : Nat) : K) ≤
          if (take (refill rate burst tokens (now - last))).1 = true then 1 else 0 := by
        split_ifs with hcounted hallowed
        · simp
        · exact absurd hcounted.1 hallowed
        · simp
        · simp
      rw [serve, allowedIn_cons]
      push_cast
      push_cast at hone
      linarith

/-- **The window bound**: between two times a bucket allows no more calls than its burst and
what the window fills. -/
theorem serve_window (last : K) {start : K} (hrate : 0 ≤ rate) (hburst : 0 ≤ burst)
    (htokens : 0 ≤ tokens) (hmost : tokens ≤ burst) (hwindow : start ≤ stop)
    (hsorted : times.Pairwise (· ≤ ·)) :
    (allowedIn start stop (serve rate burst tokens last times) : K) ≤
      burst + rate * (stop - start) := by
  induction times generalizing tokens last with
  | nil =>
    have hcome : 0 ≤ rate * (stop - start) := mul_nonneg hrate (sub_nonneg.mpr hwindow)
    simpa [serve, allowedIn] using add_nonneg hburst hcome
  | cons now rest ih =>
    have hlevel : refill rate burst tokens (now - last) ≤ burst := refill_le_burst hmost
    have hnonneg : 0 ≤ refill rate burst tokens (now - last) := refill_nonneg _ hrate hburst htokens
    by_cases hinside : start ≤ now ∧ now ≤ stop
    · -- the first call of the window finds at most the burst
      have hpaid := take_paid (refill rate burst tokens (now - last))
      have hrest := allowedIn_serve_le start hrate hburst (take_nonneg hnonneg) hinside.2 hsorted
      have hcome : (stop - now) * rate ≤ rate * (stop - start) := by
        rw [mul_comm rate]
        exact mul_le_mul_of_nonneg_right (sub_le_sub_left hinside.1 stop) hrate
      rw [serve, allowedIn_cons]
      simp only [hinside, and_true]
      push_cast
      linarith
    · rw [serve, allowedIn_cons, if_neg fun hcounted => hinside hcounted.2, Nat.add_zero]
      exact ih now (take_nonneg hnonneg) (take_le.trans hlevel) (List.pairwise_cons.mp hsorted).2

end TokenBucket
end Foundations
end FlickDrop
