import Mathlib.Data.Rat.Floor
import FlickDrop.Foundations.IP
import FlickDrop.Foundations.TokenBucket
import FlickDrop.Foundations.Transaction

/-!
# Rate limits

Model of the limiter of `internal/httpapi/ratelimit.go`: a token bucket for every key and the pass
that drops idle buckets.  Tokens are exact rationals; a time is a number of nanoseconds.
-/

namespace FlickDrop
namespace Httpapi

open Foundations

/-- `tokenBucket`. -/
structure TokenBucket where
  tokens : ℚ
  last : Int
deriving DecidableEq

/-- `rateLimiter`. -/
structure RateLimiter where
  buckets : String → Option TokenBucket
  rate : ℚ
  burst : ℚ
  trustedProxies : List IPNet

/-- `newRateLimiter`. -/
def newRateLimiter (perMinute : Int) (trustedProxies : List IPNet) : RateLimiter :=
  let perMinute := if perMinute ≤ 0 then 10 else perMinute
  { buckets := fun _ => none
    rate := perMinute / 60
    burst := perMinute
    trustedProxies := trustedProxies }

/-- `time.Time.Sub`, which saturates. -/
def timeSub (now last : Int) : Int := max (-2 ^ 63) (min (2 ^ 63 - 1) (now - last))

/-- `time.Duration.Seconds`. -/
def seconds (d : Int) : ℚ := d / 1000000000

/-- The bucket a call finds: a full one when there is none. -/
def RateLimiter.bucket (rl : RateLimiter) (key : String) (now : Int) : TokenBucket :=
  (rl.buckets key).getD ⟨rl.burst, now⟩

/-- The tokens of bucket `b` when a call finds it at `now`. -/
def RateLimiter.level (rl : RateLimiter) (b : TokenBucket) (now : Int) : ℚ :=
  let elapsed := seconds (timeSub now b.last)
  if 0 < elapsed then
    let tokens := b.tokens + elapsed * rl.rate
    if rl.burst < tokens then rl.burst else tokens
  else
    b.tokens

def RateLimiter.store (rl : RateLimiter) (key : String) (b : TokenBucket) : RateLimiter :=
  { rl with buckets := Function.update rl.buckets key (some b) }

/-- `rateLimiter.allow`. -/
def RateLimiter.allow (rl : RateLimiter) (key : String) (now : Int) : Bool × RateLimiter :=
  let tokens := rl.level (rl.bucket key now) now
  if tokens < 1 then
    (false, rl.store key ⟨tokens, now⟩)
  else
    (true, rl.store key ⟨tokens - 1, now⟩)

/-- One pass of `rateLimiter.cleanup`. -/
def RateLimiter.cleanup (rl : RateLimiter) (now : Int) : RateLimiter :=
  { rl with
    buckets := fun key =>
      (rl.buckets key).filter fun b => ¬ timeSub now b.last > 10 * minute }

/-! ### Runs of the limiter -/

/-- What happens to a limiter: a call of `allow`, or a cleanup pass with the reading of its tick. -/
inductive Event
  | call (key : String) (now : Int)
  | cleanup (now : Int)
deriving DecidableEq

def Event.isCall : Event → Bool
  | .call _ _ => true
  | .cleanup _ => false

/-- The readings of an event and a later one: calls have non-decreasing times, and the tick of a
cleanup pass is at most nine minutes ahead of a call that follows the pass. -/
def Event.Before : Event → Event → Prop
  | .call _ now, .call _ later => now ≤ later
  | .cleanup now, .call _ later => now ≤ later + 9 * minute
  | _, .cleanup _ => True

instance (e later : Event) : Decidable (e.Before later) := by
  unfold Event.Before
  split <;> infer_instance

structure Answer where
  key : String
  now : Int
  allowed : Bool
deriving DecidableEq

def RateLimiter.step (rl : RateLimiter) : Event → RateLimiter
  | .call key now => (rl.allow key now).2
  | .cleanup now => rl.cleanup now

/-- The limiter after a sequence of events. -/
def RateLimiter.after (rl : RateLimiter) (events : List Event) : RateLimiter :=
  events.foldl RateLimiter.step rl

/-- The answers to the calls of a sequence of events. -/
def RateLimiter.answers (rl : RateLimiter) : List Event → List Answer
  | [] => []
  | .call key now :: rest =>
    ⟨key, now, (rl.allow key now).1⟩ :: RateLimiter.answers (rl.allow key now).2 rest
  | .cleanup now :: rest => RateLimiter.answers (rl.cleanup now) rest

/-- How many calls of `key` were allowed from `start` to `stop`, both included. -/
def allowedCalls (key : String) (start stop : Int) (answers : List Answer) : Nat :=
  answers.countP fun a => a.allowed && decide (a.key = key ∧ start ≤ a.now ∧ a.now ≤ stop)

/-! ### The bucket of a key -/

/-- What holds of every limiter in every run: a minute fills a bucket, and no bucket is overdrawn
or overfull. -/
structure RateLimiter.Sound (rl : RateLimiter) : Prop where
  rate_eq : rl.rate = rl.burst / 60
  burst_nonneg : 0 ≤ rl.burst
  tokens : ∀ key b, rl.buckets key = some b → 0 ≤ b.tokens ∧ b.tokens ≤ rl.burst

section Bucket

variable {rl : RateLimiter}

theorem newRateLimiter_sound (perMinute : Int) (trusted : List IPNet) :
    (newRateLimiter perMinute trusted).Sound where
  rate_eq := rfl
  burst_nonneg := by
    simp only [newRateLimiter]
    split
    · norm_num
    · exact_mod_cast (by omega : 0 ≤ perMinute)
  tokens := by
    intro key b h
    cases h

theorem RateLimiter.Sound.rate_nonneg (h : rl.Sound) : 0 ≤ rl.rate := by
  rw [h.rate_eq]
  exact div_nonneg h.burst_nonneg (by norm_num)

theorem RateLimiter.Sound.bucket (h : rl.Sound) (key : String) (now : Int) :
    0 ≤ (rl.bucket key now).tokens ∧ (rl.bucket key now).tokens ≤ rl.burst := by
  rw [RateLimiter.bucket]
  cases hb : rl.buckets key with
  | none => exact ⟨h.burst_nonneg, le_rfl⟩
  | some b => exact h.tokens key b hb

theorem seconds_sub (now last : Int) : seconds (now - last) = seconds now - seconds last := by
  simp only [seconds]
  push_cast
  ring

theorem seconds_mono {a b : Int} (h : a ≤ b) : seconds a ≤ seconds b := by
  have hcast : (a : ℚ) ≤ b := by exact_mod_cast h
  simp only [seconds]
  linarith

theorem seconds_le_iff {a b : Int} : seconds a ≤ seconds b ↔ a ≤ b := by
  constructor
  · intro h
    simp only [seconds] at h
    exact_mod_cast (by linarith : (a : ℚ) ≤ b)
  · exact seconds_mono

/-- After a minute or more a bucket is full, whatever `Sub` makes of the time. -/
theorem RateLimiter.Sound.refill_minute (h : rl.Sound) {tokens : ℚ} (htokens : 0 ≤ tokens) {d : Int}
    (hd : (minute : Int) ≤ d) :
    TokenBucket.refill rl.rate rl.burst tokens (seconds d) = rl.burst := by
  have hminute : (60 : ℚ) ≤ seconds d := by
    have hle := seconds_mono hd
    have hsixty : seconds (minute : Int) = 60 := by norm_num [seconds, minute, second]
    rwa [hsixty] at hle
  refine TokenBucket.refill_full htokens (by linarith) ?_
  have hfill : 60 * rl.rate = rl.burst := by
    rw [h.rate_eq]
    ring
  calc rl.burst = 60 * rl.rate := hfill.symm
    _ ≤ seconds d * rl.rate := mul_le_mul_of_nonneg_right hminute h.rate_nonneg

theorem timeSub_eq {now last : Int} (hleast : -2 ^ 63 ≤ now - last) (hmost : now - last < 2 ^ 63) :
    timeSub now last = now - last := by
  rw [timeSub]
  omega

/-- The level a call finds is the refilled bucket. -/
theorem RateLimiter.Sound.level_eq (h : rl.Sound) {b : TokenBucket} {now : Int}
    (htokens : 0 ≤ b.tokens) :
    rl.level b now =
      TokenBucket.refill rl.rate rl.burst b.tokens (seconds now - seconds b.last) := by
  have hrefill : rl.level b now =
      TokenBucket.refill rl.rate rl.burst b.tokens (seconds (timeSub now b.last)) := by
    simp only [RateLimiter.level, TokenBucket.refill]
    split
    · split
      · rename_i hover
        exact (min_eq_left hover.le).symm
      · rename_i hunder
        exact (min_eq_right (not_lt.mp hunder)).symm
    · rfl
  rw [hrefill, ← seconds_sub]
  rcases Int.lt_or_le (now - b.last) (-2 ^ 63) with hearly | hleast
  · -- far in the past: neither reading of the time fills the bucket
    have hneg : ∀ d : Int, d < 0 →
        TokenBucket.refill rl.rate rl.burst b.tokens (seconds d) = b.tokens := by
      intro d hd
      refine if_neg ?_
      have hzero := seconds_mono hd.le
      simp only [seconds] at hzero ⊢
      push_cast at hzero
      linarith
    rw [hneg _ (by rw [timeSub]; omega), hneg _ (by omega)]
  · rcases Int.lt_or_le (now - b.last) (2 ^ 63) with hmost | hlate
    · rw [timeSub_eq hleast hmost]
    · have hminute : (minute : Int) = 60000000000 := rfl
      rw [h.refill_minute htokens (by rw [timeSub]; omega), h.refill_minute htokens (by omega)]

theorem RateLimiter.allow_eq (rl : RateLimiter) (key : String) (now : Int) :
    rl.allow key now =
      ((TokenBucket.take (rl.level (rl.bucket key now) now)).1,
        rl.store key ⟨(TokenBucket.take (rl.level (rl.bucket key now) now)).2, now⟩) := by
  simp only [RateLimiter.allow, TokenBucket.take]
  split
  · rfl
  · rfl

theorem RateLimiter.Sound.allow (h : rl.Sound) (key : String) (now : Int) :
    (rl.allow key now).2.Sound where
  rate_eq := by
    rw [RateLimiter.allow_eq]
    exact h.rate_eq
  burst_nonneg := by
    rw [RateLimiter.allow_eq]
    exact h.burst_nonneg
  tokens := by
    intro other b hb
    rw [RateLimiter.allow_eq] at hb ⊢
    simp only [RateLimiter.store, Function.update_apply] at hb
    split at hb
    · cases hb
      obtain ⟨hleast, hmost⟩ := h.bucket key now
      rw [h.level_eq hleast]
      exact ⟨TokenBucket.take_nonneg
          (TokenBucket.refill_nonneg _ h.rate_nonneg h.burst_nonneg hleast),
        TokenBucket.take_le.trans (TokenBucket.refill_le_burst hmost)⟩
    · exact h.tokens other b hb

theorem RateLimiter.Sound.cleanup (h : rl.Sound) (now : Int) : (rl.cleanup now).Sound where
  rate_eq := h.rate_eq
  burst_nonneg := h.burst_nonneg
  tokens := by
    intro key b hb
    exact h.tokens key b (Option.filter_eq_some_iff.mp hb).1

theorem RateLimiter.Sound.after (h : rl.Sound) (events : List Event) : (rl.after events).Sound := by
  induction events generalizing rl with
  | nil => exact h
  | cons e rest ih =>
    cases e with
    | call key now => exact ih (h.allow key now)
    | cleanup now => exact ih (h.cleanup now)

theorem RateLimiter.after_burst (rl : RateLimiter) (events : List Event) :
    (rl.after events).burst = rl.burst := by
  induction events generalizing rl with
  | nil => rfl
  | cons e rest ih =>
    rw [RateLimiter.after, List.foldl_cons, ← RateLimiter.after, ih]
    cases e with
    | call key now => simp only [RateLimiter.step, RateLimiter.allow_eq, RateLimiter.store]
    | cleanup now => rfl

end Bucket

/-! ### Evictions are invisible -/

/-- A limiter that dropped buckets agrees with one that kept them all: a dropped bucket is full
again before the next of the `later` calls. -/
structure Agrees (later : List Event) (rl kept : RateLimiter) : Prop where
  rate : rl.rate = kept.rate
  burst : rl.burst = kept.burst
  buckets : ∀ key, rl.buckets key = kept.buckets key ∨
    rl.buckets key = none ∧ ∃ b, kept.buckets key = some b ∧
      ∀ called now, Event.call called now ∈ later → b.last + minute ≤ now

section Eviction

variable {rl kept : RateLimiter} {later : List Event} {now : Int} {key : String}

theorem Agrees.refl (later : List Event) (rl : RateLimiter) : Agrees later rl rl :=
  ⟨rfl, rfl, fun _ => .inl rfl⟩

theorem RateLimiter.level_congr (hrate : rl.rate = kept.rate) (hburst : rl.burst = kept.burst)
    (b : TokenBucket) (now : Int) : rl.level b now = kept.level b now := by
  rw [RateLimiter.level, RateLimiter.level, hrate, hburst]

/-- A call finds the same level in both limiters. -/
theorem Agrees.level (h : Agrees (.call key now :: later) rl kept) (hkept : kept.Sound) :
    rl.level (rl.bucket key now) now = kept.level (kept.bucket key now) now := by
  rcases h.buckets key with hsame | ⟨hnone, b, hb, hfull⟩
  · rw [RateLimiter.level_congr h.rate h.burst, RateLimiter.bucket, RateLimiter.bucket, hsame,
      h.burst]
  · have hnow := hfull key now List.mem_cons_self
    have hnew : rl.level (rl.bucket key now) now = rl.burst := by
      simp [RateLimiter.bucket, RateLimiter.level, hnone, timeSub, seconds]
    rw [hnew, h.burst, RateLimiter.bucket, hb, Option.getD_some,
      hkept.level_eq (hkept.tokens key b hb).1, ← seconds_sub,
      hkept.refill_minute (hkept.tokens key b hb).1 (by omega)]

theorem Agrees.call (h : Agrees (.call key now :: later) rl kept) (hkept : kept.Sound) :
    (rl.allow key now).1 = (kept.allow key now).1 ∧
      Agrees later (rl.allow key now).2 (kept.allow key now).2 := by
  rw [RateLimiter.allow_eq, RateLimiter.allow_eq, h.level hkept]
  refine ⟨rfl, h.rate, h.burst, ?_⟩
  intro other
  simp only [RateLimiter.store, Function.update_apply]
  by_cases hother : other = key
  · exact .inl (by simp [hother])
  · simp only [if_neg hother]
    rcases h.buckets other with hsame | ⟨hnone, b, hb, hfull⟩
    · exact .inl hsame
    · exact .inr ⟨hnone, b, hb,
        fun called at' hmem => hfull called at' (List.mem_cons_of_mem _ hmem)⟩

/-- A bucket that a pass drops was idle for more than ten minutes by a tick that is less than nine
ahead of the next call. -/
theorem Agrees.cleanup (h : Agrees (.cleanup now :: later) rl kept)
    (hbefore : ∀ e ∈ later, (Event.cleanup now).Before e) : Agrees later (rl.cleanup now) kept := by
  refine ⟨h.rate, h.burst, ?_⟩
  intro key
  rcases h.buckets key with hsame | ⟨hnone, b, hb, hfull⟩
  · cases hb : kept.buckets key with
    | none =>
      rw [hb] at hsame
      exact .inl (by simp [RateLimiter.cleanup, hsame])
    | some b =>
      rw [hb] at hsame
      by_cases hidle : timeSub now b.last > 10 * minute
      · refine .inr ⟨by simp [RateLimiter.cleanup, hsame, hidle], b, rfl, ?_⟩
        intro called at' hmem
        have hahead : now ≤ at' + 9 * minute := hbefore _ hmem
        have hminute : (minute : Int) = 60000000000 := rfl
        rw [timeSub] at hidle
        omega
      · exact .inl (by simp [RateLimiter.cleanup, hsame, Int.not_lt.mp hidle])
  · exact .inr ⟨by simp [RateLimiter.cleanup, hnone], b, hb,
      fun called at' hmem => hfull called at' (List.mem_cons_of_mem _ hmem)⟩

theorem Agrees.answers (h : Agrees later rl kept) (hkept : kept.Sound)
    (hordered : later.Pairwise Event.Before) :
    rl.answers later = kept.answers (later.filter Event.isCall) := by
  induction later generalizing rl kept with
  | nil => rfl
  | cons e rest ih =>
    obtain ⟨hbefore, hrest⟩ := List.pairwise_cons.mp hordered
    cases e with
    | call key now =>
      obtain ⟨hanswer, hagrees⟩ := h.call hkept
      rw [List.filter_cons_of_pos rfl, RateLimiter.answers, RateLimiter.answers, hanswer,
        ih hagrees (hkept.allow key now) hrest]
    | cleanup now =>
      rw [List.filter_cons_of_neg (by simp [Event.isCall]), RateLimiter.answers]
      exact ih (h.cleanup hbefore) hkept hrest

end Eviction

/-! ### One key -/

/-- The times of the calls of a key, in seconds. -/
def callTimes (key : String) (events : List Event) : List ℚ :=
  events.filterMap fun
    | .call called now => if called = key then some (seconds now) else none
    | .cleanup _ => none

/-- The answers to a key with their times in seconds. -/
def answersOf (key : String) (answers : List Answer) : List (ℚ × Bool) :=
  (answers.filter fun a => a.key = key).map fun a => (seconds a.now, a.allowed)

theorem allowedCalls_eq (key : String) (start stop : Int) (answers : List Answer) :
    allowedCalls key start stop answers =
      TokenBucket.allowedIn (seconds start) (seconds stop) (answersOf key answers) := by
  rw [allowedCalls, TokenBucket.allowedIn, answersOf, List.countP_map, List.countP_filter]
  refine List.countP_congr ?_
  intro a _
  simp only [Function.comp, seconds_le_iff, Bool.and_eq_true, decide_eq_true_eq]
  tauto

section Key

variable {rl : RateLimiter} {events : List Event}

/-- A key without a bucket has a full one, filled at any time. -/
theorem RateLimiter.Sound.level_bucket (h : rl.Sound) (key : String) (now t : Int) :
    rl.level (rl.bucket key now) now =
      TokenBucket.refill rl.rate rl.burst (rl.bucket key t).tokens
        (seconds now - seconds (rl.bucket key t).last) := by
  rw [h.level_eq (h.bucket key now).1]
  cases hb : rl.buckets key with
  | none =>
    simp only [RateLimiter.bucket, hb, Option.getD_none, TokenBucket.refill_burst h.rate_nonneg]
  | some b => simp only [RateLimiter.bucket, hb, Option.getD_some]

/-- The limiter serves each key as a bucket of its own. -/
theorem RateLimiter.Sound.answersOf_eq (h : rl.Sound) (key : String) (t : Int)
    (hcalls : ∀ e ∈ events, e.isCall = true) :
    answersOf key (rl.answers events) =
      TokenBucket.serve rl.rate rl.burst (rl.bucket key t).tokens (seconds (rl.bucket key t).last)
        (callTimes key events) := by
  induction events generalizing rl t with
  | nil => rfl
  | cons e rest ih =>
    have hrest : ∀ later ∈ rest, later.isCall = true :=
      fun later hmem => hcalls later (List.mem_cons_of_mem _ hmem)
    cases e with
    | cleanup now =>
      have hcall := hcalls _ List.mem_cons_self
      cases hcall
    | call called now =>
      have hallow := rl.allow_eq called now
      by_cases hkey : called = key
      · subst hkey
        have hih := ih (h.allow called now) now hrest
        rw [hallow] at hih
        simp only [RateLimiter.store, RateLimiter.bucket, Function.update_self,
          Option.getD_some] at hih
        simp only [RateLimiter.answers, answersOf, List.filter_cons, decide_true, if_true,
          List.map_cons, callTimes, List.filterMap_cons, TokenBucket.serve]
        rw [← answersOf, ← callTimes, hallow, ← h.level_bucket called now t]
        exact congrArg _ hih
      · -- a call of another key leaves this bucket alone
        have hih := ih (h.allow called now) t hrest
        rw [hallow] at hih
        simp only [RateLimiter.store, RateLimiter.bucket,
          Function.update_of_ne (Ne.symm hkey)] at hih
        simp only [RateLimiter.answers, answersOf, List.filter_cons, decide_eq_true_eq,
          if_neg hkey, callTimes, List.filterMap_cons]
        rw [← answersOf, ← callTimes, hallow]
        exact hih

theorem callTimes_sorted (key : String) (hordered : events.Pairwise Event.Before) :
    (callTimes key events).Pairwise (· ≤ ·) := by
  rw [callTimes, List.pairwise_filterMap]
  refine hordered.imp ?_
  intro e later hbefore time htime time' htime'
  cases e with
  | cleanup now => cases htime
  | call called now =>
    cases later with
    | cleanup now' => cases htime'
    | call called' now' =>
      simp only [Option.ite_none_right_eq_some, Option.some.injEq] at htime htime'
      obtain ⟨-, rfl⟩ := htime
      obtain ⟨-, rfl⟩ := htime'
      exact seconds_mono hbefore

end Key

/-- **The rate limit**: a key is allowed no more than the burst and what its window fills, no
bucket is overdrawn or overfull, and no answer depends on the cleanup passes. -/
theorem rate_limit (perMinute : Int) (hpositive : 0 < perMinute) (trustedProxies : List IPNet)
    (events : List Event) (hordered : events.Pairwise Event.Before) :
    (newRateLimiter perMinute trustedProxies).burst = perMinute ∧
    (newRateLimiter perMinute trustedProxies).rate = perMinute / 60 ∧
    (∀ key start length, 0 ≤ length →
      (allowedCalls key start (start + length)
        ((newRateLimiter perMinute trustedProxies).answers events) : ℚ) ≤
        perMinute + perMinute / 60 * seconds length) ∧
    (∀ front, front <+: events → ∀ key b,
      ((newRateLimiter perMinute trustedProxies).after front).buckets key = some b →
        0 ≤ b.tokens ∧ b.tokens ≤ perMinute) ∧
    (newRateLimiter perMinute trustedProxies).answers events =
      (newRateLimiter perMinute trustedProxies).answers (events.filter Event.isCall) := by
  have hsound := newRateLimiter_sound perMinute trustedProxies
  have hburst : (newRateLimiter perMinute trustedProxies).burst = perMinute := by
    simp [newRateLimiter, Int.not_le.mpr hpositive]
  have hrate : (newRateLimiter perMinute trustedProxies).rate = perMinute / 60 := by
    simp [newRateLimiter, Int.not_le.mpr hpositive]
  have hsame := (Agrees.refl events (newRateLimiter perMinute trustedProxies)).answers hsound
    hordered
  refine ⟨hburst, hrate, ?_, ?_, hsame⟩
  · intro key start length hlength
    have hkey := hsound.answersOf_eq key 0
      (fun e (hmem : e ∈ events.filter Event.isCall) => List.of_mem_filter hmem)
    obtain ⟨hleast, hmost⟩ := hsound.bucket key 0
    have hwindow := TokenBucket.serve_window
      (seconds ((newRateLimiter perMinute trustedProxies).bucket key 0).last) hsound.rate_nonneg
      hsound.burst_nonneg hleast hmost (seconds_mono (show start ≤ start + length by omega))
      (callTimes_sorted key (hordered.filter Event.isCall))
    rw [hsame, allowedCalls_eq, hkey, ← hrate, ← hburst]
    rwa [← seconds_sub, add_sub_cancel_left] at hwindow
  · intro front _ key b hb
    have htokens := (hsound.after front).tokens key b hb
    rwa [RateLimiter.after_burst, hburst] at htokens

/-- Three calls at once, and a fourth after a pass that dropped the bucket. -/
def idleEvents : List Event :=
  [.call "k" 0, .call "k" 0, .call "k" 0, .cleanup (11 * minute), .call "k" (11 * minute)]

theorem rate_limit_idle :
    (((newRateLimiter 2 []).after (idleEvents.take 4)).buckets "k" = none ∧
      ((newRateLimiter 2 []).answers idleEvents).map Answer.allowed = [true, true, false, true]) ∧
    (newRateLimiter 2 []).answers idleEvents =
      (newRateLimiter 2 []).answers (idleEvents.filter Event.isCall) := by
  refine ⟨⟨by decide +kernel, by decide +kernel⟩, ?_⟩
  exact (rate_limit 2 (by decide) [] idleEvents (by decide)).2.2.2.2

end Httpapi
end FlickDrop
