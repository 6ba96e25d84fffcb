import Mathlib.Data.Char
import Mathlib.Data.List.DropRight
import Mathlib.Data.List.Lex
import FlickDrop.Foundations.Text
import FlickDrop.Foundations.Transaction

/-!
# Timestamps as text

Go's `time.RFC3339Nano` for UTC instants: what `Format` writes, what `Parse` reads back, and
how the texts compare.  An instant is the number of nanoseconds since the zero time of
Go, 0001-01-01T00:00:00Z.

The seconds are written with a fixed width and compare as numbers do.  The fraction is
written without its trailing zeros, and without the point if nothing is left; behind it
stands `Z`.  Without the `Z` the texts compare as the instants do.  With it they do not:
`Z` sorts behind the digits and the point, so of two instants in one second, one of which
continues the digits of the other, the later one sorts first.
-/

namespace FlickDrop
namespace Foundations

/-! ### The calendar -/

/-- `daysPer400Years`, `daysPer100Years` and `daysPer4Years` of Go's `time`. -/
def daysPer400Years : Nat := 365 * 400 + 97

def daysPer100Years : Nat := 365 * 100 + 24

def daysPer4Years : Nat := 365 * 4 + 1

def isLeap (year : Int) : Bool :=
  decide (year % 4 = 0) && (decide (year % 100 ≠ 0) || decide (year % 400 = 0))

/-- The year within 400 years and the day within the year, both from 0.  The last cycle
of each length has a leap day more, which `n - n / 4` accounts for. -/
def yearDay (day : Nat) : Nat × Nat :=
  let centuries := day / daysPer100Years - day / daysPer100Years / 4
  let day := day - daysPer100Years * centuries
  let cycles := day / daysPer4Years
  let day := day - daysPer4Years * cycles
  let years := day / 365 - day / 365 / 4
  (100 * centuries + 4 * cycles + years, day - 365 * years)

/-- The year and the day within it, of a day since 0001-01-01. -/
def civilYear (day : Int) : Int × Nat :=
  let (year, yday) := yearDay (day % daysPer400Years).toNat
  (1 + 400 * (day / daysPer400Years) + year, yday)

/-- The days of a common year before its months, which count from 0. -/
def daysBefore (month : Nat) : Nat :=
  [0, 31, 59, 90, 120, 151, 181, 212, 243, 273, 304, 334, 365].getD month 0

/-- The month and the day of the month, both from 1. -/
def monthDay (leap : Bool) (yday : Nat) : Nat × Nat :=
  if leap ∧ yday = 59 then
    (2, 29)
  else
    -- after the leap day, pretend it was not there
    let day := if leap ∧ 59 < yday then yday - 1 else yday
    let month := day / 31
    if daysBefore (month + 1) ≤ day then (month + 2, day - daysBefore (month + 1) + 1)
    else (month + 1, day - daysBefore month + 1)

/-- The day of the year, from 0. -/
def yearDayOf (leap : Bool) (month mday : Nat) : Nat :=
  daysBefore (month - 1) + (if leap ∧ 3 ≤ month then 1 else 0) + (mday - 1)

def daysIn (leap : Bool) (month : Nat) : Nat :=
  if leap ∧ month = 2 then 29 else daysBefore month - daysBefore (month - 1)

/-- The days from 0001-01-01 to the first day of a year: `daysSinceEpoch`. -/
def daysToYear (year : Int) : Int :=
  let y := ((year - 1) % 400).toNat
  daysPer400Years * ((year - 1) / 400) + (daysPer100Years * (y / 100) : Nat) +
    (daysPer4Years * (y % 100 / 4) : Nat) + (365 * (y % 4) : Nat)

variable {c : Char} {nanos w n : Nat}

/-- The cycles a day lies in: only the last year of a cycle of four years has a day 365, and
of a century's last such cycle only the last century's. -/
theorem yearDay_cycles {day : Nat} (h : day < daysPer400Years) :
    ∃ c q n yday, yearDay day = (100 * c + 4 * q + n, yday) ∧ c ≤ 3 ∧ q ≤ 24 ∧ n ≤ 3 ∧
      day = 36524 * c + 1461 * q + 365 * n + yday ∧ yday ≤ 365 ∧
      (yday = 365 → n = 3 ∧ (q = 24 → c = 3)) := by
  simp only [daysPer400Years] at h
  refine ⟨_, _, _, _, rfl, ?_⟩
  simp only [daysPer100Years, daysPer4Years]
  generalize hc : day / (365 * 100 + 24) - day / (365 * 100 + 24) / 4 = c
  generalize hd : day - (365 * 100 + 24) * c = d
  have hcentury : c ≤ 3 ∧ day = 36524 * c + d ∧ d ≤ 36524 ∧ (d = 36524 → c = 3) := by omega
  generalize hq : d / (365 * 4 + 1) = q
  generalize hr : d - (365 * 4 + 1) * q = r
  have hcycle : d = 1461 * q + r ∧ r < 1461 ∧ q ≤ 24 := by omega
  generalize hn : r / 365 - r / 365 / 4 = n
  generalize hyday : r - 365 * n = yday
  have hyear : n ≤ 3 ∧ r = 365 * n + yday ∧ yday ≤ 365 ∧ (yday = 365 → n = 3) := by omega
  omega

/-- What `civilYear` computes, in the cycles of its day. -/
theorem civilYear_cycles (day : Int) :
    ∃ (e : Int) (c q n yday : Nat), civilYear day = (1 + 400 * e + (100 * c + 4 * q + n : Nat),
      yday) ∧ c ≤ 3 ∧ q ≤ 24 ∧ n ≤ 3 ∧
      day = 146097 * e + (36524 * c + 1461 * q + 365 * n + yday : Nat) ∧ yday ≤ 365 ∧
      (yday = 365 → n = 3 ∧ (q = 24 → c = 3)) := by
  have hlt : (day % daysPer400Years).toNat < daysPer400Years := by
    simp only [daysPer400Years]
    omega
  obtain ⟨c, q, n, yday, hyear, hc, hq, hn, hday, hrest⟩ := yearDay_cycles hlt
  refine ⟨day / daysPer400Years, c, q, n, yday, ?_, hc, hq, hn, ?_, hrest⟩
  · simp only [civilYear, hyear]
  · simp only [daysPer400Years] at hday ⊢
    omega

theorem daysToYear_civilYear (day : Int) :
    daysToYear (civilYear day).1 + (civilYear day).2 = day := by
  obtain ⟨e, c, q, n, yday, hyear, hc, hq, hn, hday, -⟩ := civilYear_cycles day
  have hy : ((1 + 400 * e + (100 * c + 4 * q + n : Nat) - 1) % 400).toNat =
      100 * c + 4 * q + n := by
    omega
  have hera : (1 + 400 * e + (100 * c + 4 * q + n : Nat) - 1) / 400 = e := by omega
  have hfields : (100 * c + 4 * q + n) / 100 = c ∧ (100 * c + 4 * q + n) % 100 / 4 = q ∧
      (100 * c + 4 * q + n) % 4 = n := by
    omega
  rw [hyear]
  simp only [daysToYear, hy, hera, hfields.1, hfields.2.1, hfields.2.2, daysPer400Years,
    daysPer100Years, daysPer4Years]
  omega

theorem civilYear_yday_lt (day : Int) :
    (civilYear day).2 < 365 + (isLeap (civilYear day).1).toNat := by
  obtain ⟨e, c, q, n, yday, hyear, hc, hq, hn, -, hle, hlast⟩ := civilYear_cycles day
  rw [hyear]
  by_cases hleap : yday = 365
  · obtain ⟨rfl, hcentury⟩ := hlast hleap
    have hyes : isLeap (1 + 400 * e + (100 * c + 4 * q + 3 : Nat)) = true := by
      simp only [isLeap, Bool.and_eq_true, Bool.or_eq_true, decide_eq_true_eq]
      omega
    rw [hyes]
    exact Nat.lt_succ_of_le hle
  · show yday < _
    omega

/-- Later days lie in later years, or later in the same year. -/
theorem civilYear_lt {a b : Int} (h : a < b) :
    (civilYear a).1 < (civilYear b).1 ∨
      (civilYear a).1 = (civilYear b).1 ∧ (civilYear a).2 < (civilYear b).2 := by
  obtain ⟨e, c, q, n, yday, hyear, hc, hq, hn, ha, hle, -⟩ := civilYear_cycles a
  obtain ⟨e', c', q', n', yday', hyear', hc', hq', hn', hb, hle', hlast'⟩ := civilYear_cycles b
  rw [hyear, hyear']
  dsimp only
  by_contra hnot
  omega

/-- Months and days of the month are in range, and lead back to the day of the year. -/
theorem monthDay_spec (leap : Bool) {yday : Nat} (h : yday < 365 + leap.toNat) :
    1 ≤ (monthDay leap yday).1 ∧ (monthDay leap yday).1 ≤ 12 ∧ 1 ≤ (monthDay leap yday).2 ∧
      (monthDay leap yday).2 ≤ daysIn leap (monthDay leap yday).1 ∧
      yearDayOf leap (monthDay leap yday).1 (monthDay leap yday).2 = yday := by
  revert yday
  cases leap <;> decide +kernel

/-- A month is over before the next ones begin. -/
theorem yearDayOf_lt_of_month (leap : Bool) {month month' mday mday' : Nat} (hpos : 1 ≤ month)
    (hlt : month < month') (hle : month' ≤ 12) (hmday : mday ≤ daysIn leap month)
    (hone : 1 ≤ mday) : yearDayOf leap month mday < yearDayOf leap month' mday' := by
  have hend : ∀ leap, ∀ month' < 13, ∀ month < month', 1 ≤ month →
      daysBefore (month - 1) + (if leap = true ∧ 3 ≤ month then 1 else 0) + daysIn leap month ≤
        daysBefore (month' - 1) + (if leap = true ∧ 3 ≤ month' then 1 else 0) := by
    decide
  have hend := hend leap month' (by omega) month hlt hpos
  simp only [yearDayOf]
  omega

theorem monthDay_lt (leap : Bool) {a b : Nat} (h : a < b) (hb : b < 365 + leap.toNat) :
    (monthDay leap a).1 < (monthDay leap b).1 ∨
      (monthDay leap a).1 = (monthDay leap b).1 ∧ (monthDay leap a).2 < (monthDay leap b).2 := by
  obtain ⟨hmonth, hmonth', hmday, hmday', hyday⟩ := monthDay_spec leap (h.trans hb)
  obtain ⟨hbmonth, hbmonth', hbmday, hbmday', hbyday⟩ := monthDay_spec leap hb
  rcases Nat.lt_trichotomy (monthDay leap a).1 (monthDay leap b).1 with hlt | heq | hgt
  · exact .inl hlt
  · refine .inr ⟨heq, ?_⟩
    simp only [yearDayOf, heq] at hyday hbyday
    omega
  · have hback : yearDayOf leap (monthDay leap b).1 (monthDay leap b).2 <
        yearDayOf leap (monthDay leap a).1 (monthDay leap a).2 :=
      yearDayOf_lt_of_month leap hbmonth hgt hmonth' hbmday' hbmday
    rw [hyday, hbyday] at hback
    omega

/-! ### Text -/

/-- The last `w` decimal digits of a number. -/
def digits : Nat → Nat → List Char
  | 0, _ => []
  | w + 1, n => digits w (n / 10) ++ [Nat.digitChar (n % 10)]

/-- `appendInt`: at least `w` digits. -/
def appendInt (w n : Nat) : List Char :=
  if n < 10 ^ w then digits w n else Nat.toDigits 10 n

def yearText (year : Int) : List Char :=
  if year < 0 then '-' :: appendInt 4 year.natAbs else appendInt 4 year.toNat

/-- The text up to the whole seconds, of a number of seconds since 0001-01-01. -/
def secondText (seconds : Int) : List Char :=
  let (year, yday) := civilYear (seconds / 86400)
  let (month, mday) := monthDay (isLeap year) yday
  let clock := (seconds % 86400).toNat
  yearText year ++ '-' :: (appendInt 2 month ++ '-' :: (appendInt 2 mday ++ 'T' ::
    (appendInt 2 (clock / 3600) ++ ':' :: (appendInt 2 (clock % 3600 / 60) ++ ':' ::
      appendInt 2 (clock % 60)))))

/-- A list of digits without its trailing zeros. -/
def trimZeros : List Char → List Char
  | [] => []
  | c :: rest =>
    match trimZeros rest with
    | [] => if c = '0' then [] else [c]
    | d :: ds => c :: d :: ds

/-- `appendNano` for the layout `.999999999`. -/
def fractionText (nanos : Nat) : List Char :=
  match trimZeros (digits 9 nanos) with
  | [] => []
  | d :: ds => '.' :: d :: ds

/-- The text of an instant before its zone. -/
def instantText (t : Int) : List Char :=
  secondText (t / second) ++ fractionText (t % second).toNat

/-- `t.UTC().Format(time.RFC3339Nano)`. -/
def formatTime (t : Int) : List Char :=
  instantText t ++ ['Z']

/-- The year an instant lies in. -/
def yearOf (t : Int) : Int :=
  (civilYear (t / second / 86400)).1

/-! ### How texts compare -/

section

variable {α : Type*} [LT α]

/-- Texts compare by their fronts, if these have one length. -/
theorem append_lt_append_iff {a b x y : List α} (hlength : a.length = b.length) :
    a ++ x < b ++ y ↔ a < b ∨ a = b ∧ x < y := by
  induction a generalizing b with
  | nil =>
    obtain rfl : b = [] := List.length_eq_zero_iff.mp hlength.symm
    simp
  | cons c a ih =>
    cases b with
    | nil => simp at hlength
    | cons d b =>
      have hih := ih (b := b) (by simpa using hlength)
      simp only [List.cons_append, List.cons_lt_cons_iff, hih, List.cons.injEq]
      tauto

/-- What follows does not matter once two texts differ. -/
theorem append_lt_append_of_not_prefix {a b : List α} (x y : List α) (hlt : a < b)
    (hnot : ¬ a <+: b) : a ++ x < b ++ y := by
  induction a generalizing b with
  | nil => exact absurd List.nil_prefix hnot
  | cons c a ih =>
    cases b with
    | nil => exact absurd hlt (List.not_lt_nil _)
    | cons d b =>
      rw [List.cons_append, List.cons_append, List.cons_lt_cons_iff]
      rcases List.cons_lt_cons_iff.mp hlt with hcd | ⟨rfl, hab⟩
      · exact .inl hcd
      · refine .inr ⟨rfl, ih hab ?_⟩
        intro hfront
        exact hnot (List.cons_prefix_cons.mpr ⟨rfl, hfront⟩)

end

theorem length_digits (w n : Nat) : (digits w n).length = w := by
  induction w generalizing n with
  | zero => rfl
  | succ w ih => rw [digits, List.length_append, ih, List.length_singleton]

theorem digitChar_lt : ∀ b < 10, ∀ a < b, Nat.digitChar a < Nat.digitChar b := by
  decide

/-- Numbers of one width compare as their digits do. -/
theorem digits_lt {a b : Nat} (h : a < b) (hb : b < 10 ^ w) : digits w a < digits w b := by
  induction w generalizing a b with
  | zero =>
    rw [Nat.pow_zero] at hb
    omega
  | succ w ih =>
    rw [digits, digits, append_lt_append_iff (by rw [length_digits, length_digits])]
    rw [Nat.pow_succ] at hb
    rcases Nat.lt_or_ge (a / 10) (b / 10) with hlt | hge
    · exact .inl (ih hlt (by omega))
    · have heq : a / 10 = b / 10 := by omega
      refine .inr ⟨by rw [heq], ?_⟩
      exact List.cons_lt_cons_iff.mpr (.inl (digitChar_lt _ (by omega) _ (by omega)))

theorem appendInt_of_lt (h : n < 10 ^ w) : appendInt w n = digits w n :=
  if_pos h

/-- A fixed-width field decides, if it differs. -/
theorem field_lt {a b : Nat} (x y : List Char) (h : a < b) (hb : b < 10 ^ w) :
    appendInt w a ++ x < appendInt w b ++ y := by
  rw [appendInt_of_lt (h.trans hb), appendInt_of_lt hb,
    append_lt_append_iff (by rw [length_digits, length_digits])]
  exact .inl (digits_lt h hb)

/-- Equal fields and the separator behind them do not decide. -/
theorem field_same {front x y : List Char} (c : Char) (h : x < y) :
    front ++ c :: x < front ++ c :: y := by
  rw [append_lt_append_iff rfl]
  exact .inr ⟨rfl, List.cons_lt_cons_iff.mpr (.inr ⟨rfl, h⟩)⟩

theorem digitChar_bounds : ∀ d < 10, '0' ≤ Nat.digitChar d ∧ Nat.digitChar d ≤ '9' := by
  decide

theorem digits_bounds (h : c ∈ digits w n) : '0' ≤ c ∧ c ≤ '9' := by
  induction w generalizing n with
  | zero => cases h
  | succ w ih =>
    rcases List.mem_append.mp h with hfront | hlast
    · exact ih hfront
    · rw [List.mem_singleton.mp hlast]
      exact digitChar_bounds _ (Nat.mod_lt _ (by decide))

theorem yearText_lt {year year' : Int} (x y : List Char) (h : year < year') (hnonneg : 0 ≤ year')
    (hle : year' ≤ 9999) : yearText year ++ x < yearText year' ++ y := by
  have hlt : year'.toNat < 10 ^ 4 := by omega
  simp only [yearText, if_neg (Int.not_lt.mpr hnonneg)]
  split
  · -- a year before year 0 starts with a minus sign
    rw [appendInt_of_lt hlt]
    cases hdigits : digits 4 year'.toNat with
    | nil =>
      have hlength := length_digits 4 year'.toNat
      rw [hdigits] at hlength
      cases hlength
    | cons c rest =>
      have hbound : '0' ≤ c := (digits_bounds (hdigits ▸ List.mem_cons_self)).1
      exact List.cons_lt_cons_iff.mpr (.inl (lt_of_lt_of_le (by decide) hbound))
  · exact field_lt x y (by omega) hlt

/-- The year of a number of seconds. -/
def secondYear (seconds : Int) : Int := (civilYear (seconds / 86400)).1

/-- Later seconds have larger texts. -/
theorem secondText_lt {a b : Int} (x y : List Char) (h : a < b) (hnonneg : 0 ≤ secondYear b)
    (hle : secondYear b ≤ 9999) : secondText a ++ x < secondText b ++ y := by
  simp only [secondText, List.append_assoc, List.cons_append]
  have hclock : ∀ n : Int, (n % 86400).toNat < 86400 := by omega
  have hca := hclock a
  have hcb := hclock b
  rcases Int.lt_or_le (a / 86400) (b / 86400) with hday | hday
  · rcases civilYear_lt hday with hyear | ⟨hyear, hyday⟩
    · exact yearText_lt _ _ hyear hnonneg hle
    · rw [hyear]
      apply field_same
      have hybound := civilYear_yday_lt (b / 86400)
      obtain ⟨-, hmonth, -, hmday, -⟩ := monthDay_spec _ hybound
      rcases monthDay_lt _ hyday hybound with hmonths | ⟨hmonths, hmdays⟩
      · exact field_lt _ _ hmonths (by omega)
      · rw [hmonths]
        apply field_same
        have hdays : ∀ leap, ∀ month < 13, daysIn leap month ≤ 31 := by decide
        have hdays := hdays (isLeap (civilYear (b / 86400)).1)
          (monthDay (isLeap (civilYear (b / 86400)).1) (civilYear (b / 86400)).2).1 (by omega)
        exact field_lt _ _ hmdays (by omega)
  · have hsame : a / 86400 = b / 86400 := by omega
    have hlater : (a % 86400).toNat < (b % 86400).toNat := by omega
    rw [hsame]
    generalize (a % 86400).toNat = ca at *
    generalize (b % 86400).toNat = cb at *
    apply field_same
    apply field_same
    apply field_same
    rcases Nat.lt_or_ge (ca / 3600) (cb / 3600) with hhour | hhour
    · exact field_lt _ _ hhour (by omega)
    · rw [show ca / 3600 = cb / 3600 by omega]
      apply field_same
      rcases Nat.lt_or_ge (ca % 3600 / 60) (cb % 3600 / 60) with hminute | hminute
      · exact field_lt _ _ hminute (by omega)
      · rw [show ca % 3600 / 60 = cb % 3600 / 60 by omega]
        apply field_same
        exact field_lt _ _ (by omega) (by omega)

/-- Trailing zeros do not matter for the order. -/
theorem trimZeros_lt {a b : List Char} (hlength : a.length = b.length) (h : a < b)
    (hdigits : ∀ c ∈ a, '0' ≤ c) : trimZeros a < trimZeros b := by
  induction a generalizing b with
  | nil =>
    obtain rfl : b = [] := List.length_eq_zero_iff.mp hlength.symm
    exact absurd h (List.not_lt_nil _)
  | cons c a ih =>
    cases b with
    | nil => simp at hlength
    | cons d b =>
      have hc : '0' ≤ c := hdigits c List.mem_cons_self
      rcases List.cons_lt_cons_iff.mp h with hcd | ⟨rfl, hab⟩
      · -- the first digits differ, so the larger one is kept
        have hkept : ∃ rest, trimZeros (d :: b) = d :: rest := by
          rw [trimZeros]
          split
          · rw [if_neg (ne_of_gt (lt_of_le_of_lt hc hcd))]
            exact ⟨[], rfl⟩
          · exact ⟨_, rfl⟩
        obtain ⟨rest, hrest⟩ := hkept
        rw [hrest, trimZeros]
        split
        · split
          · exact List.nil_lt_cons _ _
          · exact List.cons_lt_cons_iff.mpr (.inl hcd)
        · exact List.cons_lt_cons_iff.mpr (.inl hcd)
      · have hrest := ih (by simpa using hlength) hab
          (fun e he => hdigits e (List.mem_cons_of_mem _ he))
        cases htrim : trimZeros b with
        | nil =>
          rw [htrim] at hrest
          exact absurd hrest (List.not_lt_nil _)
        | cons e es =>
          rw [htrim] at hrest
          rw [trimZeros, trimZeros, htrim]
          dsimp only
          split
          · split
            · exact List.nil_lt_cons _ _
            · exact List.cons_lt_cons_iff.mpr (.inr ⟨rfl, List.nil_lt_cons _ _⟩)
          · rename_i f fs hcase
            rw [hcase] at hrest
            exact List.cons_lt_cons_iff.mpr (.inr ⟨rfl, hrest⟩)

theorem fractionText_lt {a b : Nat} (h : a < b) (hb : b < second) :
    fractionText a < fractionText b := by
  have htrim : trimZeros (digits 9 a) < trimZeros (digits 9 b) := by
    apply trimZeros_lt
    · rw [length_digits, length_digits]
    · exact digits_lt h hb
    · exact fun c hc => (digits_bounds hc).1
  rw [fractionText, fractionText]
  cases hb' : trimZeros (digits 9 b) with
  | nil =>
    rw [hb'] at htrim
    exact absurd htrim (List.not_lt_nil _)
  | cons e es =>
    rw [hb'] at htrim
    split
    · exact List.nil_lt_cons _ _
    · rename_i d ds hcase
      rw [hcase] at htrim
      exact List.cons_lt_cons_iff.mpr (.inr ⟨rfl, htrim⟩)

/-- Later instants have larger texts, as long as the zone is left out. -/
theorem instantText_lt {a b : Int} (h : a < b) (hnonneg : 0 ≤ yearOf b) (hle : yearOf b ≤ 9999) :
    instantText a < instantText b := by
  have hsecond : (second : Int) = 1000000000 := rfl
  rw [instantText, instantText]
  rcases Int.lt_or_le (a / second) (b / second) with hlt | hge
  · exact secondText_lt _ _ hlt hnonneg hle
  · rw [hsecond] at hge ⊢
    have hsame : a / 1000000000 = b / 1000000000 := by omega
    rw [hsame, append_lt_append_iff rfl]
    refine .inr ⟨rfl, fractionText_lt ?_ ?_⟩
    · omega
    · show _ < 1000000000
      omega

theorem civilYear_mono {a b : Int} (h : a ≤ b) : (civilYear a).1 ≤ (civilYear b).1 := by
  rcases Int.lt_or_eq_of_le h with hlt | rfl
  · rcases civilYear_lt hlt with hyear | ⟨hyear, -⟩
    · exact Int.le_of_lt hyear
    · exact Int.le_of_eq hyear
  · exact Int.le_refl _

theorem yearOf_mono {a b : Int} (h : a ≤ b) : yearOf a ≤ yearOf b := by
  apply civilYear_mono
  rw [show (second : Int) = 1000000000 from rfl]
  omega

/-- `a <= b` of SQLite, for texts of ASCII characters. -/
def textLe (a b : List Char) : Bool := decide (¬ b < a)

/-- **Texts without the zone order instants**: an instant of the years 0 to 9999 against any
one up to the year 9999. -/
theorem textLe_instantText {a b : Int} (hnonneg : 0 ≤ yearOf a) (hle : yearOf a ≤ 9999)
    (hle' : yearOf b ≤ 9999) : textLe (instantText a) (instantText b) = true ↔ a ≤ b := by
  rw [textLe, decide_eq_true_eq]
  constructor
  · intro htext
    by_contra hnot
    exact htext (instantText_lt (Int.not_le.mp hnot) hnonneg hle)
  · intro h
    rcases Int.lt_or_eq_of_le h with hlt | rfl
    · exact not_lt_of_gt (instantText_lt hlt (Int.le_trans hnonneg (yearOf_mono h)) hle')
    · exact lt_irrefl _

/-! ### Texts with the zone -/

/-- Two instants of one second, the digits of the first of which the second one continues. -/
def Continues (a b : Int) : Prop :=
  a / second = b / second ∧ a ≠ b ∧
    fractionText (a % second).toNat <+: fractionText (b % second).toNat

instance (a b : Int) : Decidable (Continues a b) :=
  inferInstanceAs (Decidable (_ ∧ _ ∧ _))

theorem lt_Z_of_mem_fractionText (h : c ∈ fractionText nanos) : c < 'Z' := by
  have htrim : ∀ l : List Char, ∀ c ∈ trimZeros l, c ∈ l := by
    intro l
    induction l with
    | nil => exact fun c hc => hc
    | cons d l ih =>
      intro c hc
      rw [trimZeros] at hc
      split at hc
      · split at hc
        · cases hc
        rw [List.mem_singleton.mp hc]
        exact List.mem_cons_self
      · rename_i e es hcase
        rcases List.mem_cons.mp hc with rfl | hrest
        · exact List.mem_cons_self
        · exact List.mem_cons_of_mem _ (ih c (hcase ▸ hrest))
  rw [fractionText] at h
  split at h
  · cases h
  rename_i e es hcase
  rcases List.mem_cons.mp h with rfl | hrest
  · decide
  · exact lt_of_le_of_lt (digits_bounds (htrim _ c (hcase ▸ hrest))).2 (by decide)

/-- A later instant that does not continue an earlier one has a larger text. -/
theorem formatTime_lt {a b : Int} (h : a < b) (hnonneg : 0 ≤ yearOf b) (hle : yearOf b ≤ 9999)
    (hcontinues : ¬ Continues a b) : formatTime a < formatTime b := by
  have hlt := instantText_lt h hnonneg hle
  rw [formatTime, formatTime]
  rcases Int.lt_or_le (a / second) (b / second) with hsecond | hsecond
  · rw [instantText, instantText, List.append_assoc, List.append_assoc]
    exact secondText_lt _ _ hsecond hnonneg hle
  · have hsame : a / second = b / second := by
      rw [show (second : Int) = 1000000000 from rfl] at hsecond ⊢
      omega
    apply append_lt_append_of_not_prefix _ _ hlt
    rw [instantText, instantText, hsame, List.prefix_append_right_inj]
    exact fun hprefix => hcontinues ⟨hsame, Int.ne_of_lt h, hprefix⟩

/-- An instant that continues another one is the later of the two, with the smaller text. -/
theorem Continues.reversed {a b : Int} (h : Continues a b) :
    a < b ∧ formatTime b < formatTime a := by
  obtain ⟨hsame, hne, tail, htail⟩ := h
  have hsecond : (second : Int) = 1000000000 := rfl
  have hlt : a < b := by
    by_contra hnot
    have htexts : fractionText (b % second).toNat < fractionText (a % second).toNat ++ [] := by
      rw [List.append_nil]
      refine fractionText_lt ?_ (show _ < 1000000000 by rw [hsecond]; omega)
      rw [hsecond] at hsame ⊢
      omega
    rw [← htail, append_lt_append_iff rfl] at htexts
    rcases htexts with hirrefl | ⟨-, hnil⟩
    · exact lt_irrefl _ hirrefl
    · exact List.not_lt_nil _ hnil
  refine ⟨hlt, ?_⟩
  cases tail with
  | nil =>
    have htexts := fractionText_lt
      (show (a % second).toNat < (b % second).toNat by rw [hsecond] at hsame ⊢; omega)
      (show _ < 1000000000 by rw [hsecond]; omega)
    rw [← htail, List.append_nil] at htexts
    exact absurd htexts (lt_irrefl _)
  | cons c tail =>
    have hc : c < 'Z' :=
      lt_Z_of_mem_fractionText (htail ▸ List.mem_append_right _ List.mem_cons_self)
    rw [formatTime, formatTime, instantText, instantText, ← htail, hsame, ← List.append_assoc,
      List.append_assoc, append_lt_append_iff rfl]
    exact .inr ⟨rfl, List.cons_lt_cons_iff.mpr (.inl hc)⟩

/-- **Texts with the zone** order two instants, if neither continues the other. -/
theorem textLe_formatTime {a b : Int} (hnonneg : 0 ≤ yearOf a) (hle : yearOf a ≤ 9999)
    (hnonneg' : 0 ≤ yearOf b) (hle' : yearOf b ≤ 9999) (hab : ¬ Continues a b)
    (hba : ¬ Continues b a) : textLe (formatTime a) (formatTime b) = true ↔ a ≤ b := by
  rw [textLe, decide_eq_true_eq]
  constructor
  · intro htext
    by_contra hnot
    exact htext (formatTime_lt (Int.not_le.mp hnot) hnonneg hle hba)
  · intro h
    rcases Int.lt_or_eq_of_le h with hlt | rfl
    · exact not_lt_of_gt (formatTime_lt hlt hnonneg' hle' hab)
    · exact lt_irrefl _

/-- SQLite's `rtrim(s, 'Z')`. -/
def rtrimZ (s : List Char) : List Char := s.rdropWhile fun c => decide (c = 'Z')

theorem field_suffix {field rest : List Char} (front : List Char) (c : Char) (h : field <:+ rest) :
    field <:+ front ++ c :: rest :=
  h.trans ((List.suffix_cons c rest).trans (List.suffix_append front (c :: rest)))

/-- The text of an instant ends in its seconds or its fraction, of digits and a point. -/
theorem instantText_tail (t : Int) :
    ∃ front back, instantText t = front ++ back ∧ back ≠ [] ∧ ∀ c ∈ back, c < 'Z' := by
  have hclock : (t / second % 86400).toNat % 60 < 10 ^ 2 := by omega
  have hseconds : digits 2 ((t / second % 86400).toNat % 60) <:+ secondText (t / second) := by
    rw [← appendInt_of_lt hclock]
    apply field_suffix
    apply field_suffix
    apply field_suffix
    apply field_suffix
    apply field_suffix
    exact List.suffix_refl _
  obtain ⟨front, hfront⟩ := hseconds
  refine ⟨front, digits 2 ((t / second % 86400).toNat % 60) ++ fractionText (t % second).toNat, ?_,
    ?_, ?_⟩
  · rw [instantText, ← hfront, List.append_assoc]
  · simp [digits]
  · intro c hc
    rcases List.mem_append.mp hc with hdigit | hfraction
    · exact lt_of_le_of_lt (digits_bounds hdigit).2 (by decide)
    · exact lt_Z_of_mem_fractionText hfraction

/-- Trimming takes off the zone and nothing else. -/
theorem rtrimZ_formatTime (t : Int) : rtrimZ (formatTime t) = instantText t := by
  obtain ⟨front, back, htext, hne, hlt⟩ := instantText_tail t
  rw [rtrimZ, formatTime, List.rdropWhile_concat_pos _ _ _ (by decide), List.rdropWhile_eq_self_iff]
  intro hnil hlast
  have hmem : (instantText t).getLast hnil ∈ back := by
    simp only [htext, List.getLast_append_of_ne_nil _ hne]
    exact List.getLast_mem hne
  rw [of_decide_eq_true hlast] at hmem
  exact lt_irrefl _ (hlt _ hmem)

/-! ### Parsing -/

/-- A number in a given range, of `len` digits from `start` on. -/
def parseField (s : List Char) (start len lo hi : Nat) : Option Nat :=
  (parseDigits 0 ((s.drop start).take len)).filter fun n => lo ≤ n ∧ n ≤ hi

/-- `parseNanoseconds`: digits after the ninth are dropped. -/
def parseNanoseconds (ds : List Char) : Option Nat :=
  (parseDigits 0 (ds.take 9)).map (· * 10 ^ (9 - (ds.take 9).length))

/-- The fraction, if there is one, and what follows it. -/
def parseFraction (s : List Char) : Option (Nat × List Char) :=
  match s with
  | '.' :: d :: rest =>
    if d.isDigit then
      (parseNanoseconds ((d :: rest).takeWhile Char.isDigit)).map
        fun nanos => (nanos, (d :: rest).dropWhile Char.isDigit)
    else some (0, s)
  | s => some (0, s)

/-- The offset of the zone, in seconds. -/
def parseZone (s : List Char) : Option Int :=
  if s = ['Z'] then
    some 0
  else if s.length ≠ 6 ∨ s[3]? ≠ some ':' then
    none
  else
    match parseField s 1 2 0 23, parseField s 4 2 0 59, s.head? with
    | some hours, some minutes, some '+' => some ((hours * 60 + minutes) * 60 : Nat)
    | some hours, some minutes, some '-' => some (-((hours * 60 + minutes) * 60 : Nat))
    | _, _, _ => none

/-- `time.Date` in UTC. -/
def instantOf (year month mday hour minute sec nanos : Nat) : Int :=
  ((daysToYear year + yearDayOf (isLeap year) month mday) * 86400 +
    (hour * 3600 + minute * 60 + sec : Nat)) * second + nanos

/-- `time.Parse(time.RFC3339Nano, s)` on the spellings of RFC 3339.  The few other texts
`Parse` takes are rejected here. -/
def parseTime (s : List Char) : Option Int :=
  if s.length < 19 then
    none
  else
    (parseField s 0 4 0 9999).bind fun year =>
    (parseField s 5 2 1 12).bind fun month =>
    (parseField s 8 2 1 (daysIn (isLeap year) month)).bind fun mday =>
    (parseField s 11 2 0 23).bind fun hour =>
    (parseField s 14 2 0 59).bind fun minute =>
    (parseField s 17 2 0 59).bind fun sec =>
    if s[4]? = some '-' ∧ s[7]? = some '-' ∧ s[10]? = some 'T' ∧ s[13]? = some ':' ∧
        s[16]? = some ':' then
      (parseFraction (s.drop 19)).bind fun (nanos, zone) =>
      (parseZone zone).map fun offset =>
        instantOf year month mday hour minute sec nanos - offset * second
    else none

theorem digitChar_isDigit : ∀ d < 10, (Nat.digitChar d).isDigit = true ∧
    (Nat.digitChar d).toNat - '0'.toNat = d := by
  decide

theorem parseDigits_append {a : List Char} {acc : Nat} (b : List Char)
    (h : parseDigits acc a = some n) : parseDigits acc (a ++ b) = parseDigits n b := by
  induction a generalizing acc with
  | nil =>
    cases h
    rfl
  | cons c a ih =>
    rw [List.cons_append, parseDigits]
    rw [parseDigits] at h
    split at h
    · rename_i hdigit
      rw [if_pos hdigit]
      exact ih h
    · cases h

theorem parseDigits_digits (acc : Nat) (h : n < 10 ^ w) :
    parseDigits acc (digits w n) = some (acc * 10 ^ w + n) := by
  induction w generalizing n with
  | zero =>
    rw [Nat.pow_zero] at h ⊢
    obtain rfl : n = 0 := by omega
    simp [digits, parseDigits]
  | succ w ih =>
    rw [Nat.pow_succ] at h
    obtain ⟨hdigit, hvalue⟩ := digitChar_isDigit (n % 10) (Nat.mod_lt _ (by decide))
    rw [digits, parseDigits_append _ (ih (by omega)), parseDigits, if_pos hdigit, hvalue,
      parseDigits, Nat.pow_succ, Nat.add_mul, Nat.mul_assoc]
    congr 1
    omega

theorem parseField_digits {s : List Char} {start len lo hi : Nat}
    (hs : digits len n <+: s.drop start) (hn : n < 10 ^ len) (hlo : lo ≤ n) (hhi : n ≤ hi) :
    parseField s start len lo hi = some n := by
  have hfield : (s.drop start).take len = digits len n := by
    have htake := List.prefix_iff_eq_take.mp hs
    rw [length_digits] at htake
    exact htake.symm
  rw [parseField, hfield, parseDigits_digits 0 hn, Nat.zero_mul, Nat.zero_add, Option.filter_some]
  simp [hlo, hhi]

/-- A field and its separator are skipped. -/
theorem drop_field (w n k : Nat) (c : Char) (rest : List Char) :
    (digits w n ++ c :: rest).drop (w + 1 + k) = rest.drop k := by
  rw [← List.drop_drop, List.append_cons, List.drop_left']
  rw [List.length_append, length_digits, List.length_singleton]

theorem isDigit_of_mem_digits (h : c ∈ digits w n) : c.isDigit = true := by
  induction w generalizing n with
  | zero => cases h
  | succ w ih =>
    rcases List.mem_append.mp h with hfront | hlast
    · exact ih hfront
    · rw [List.mem_singleton.mp hlast]
      exact (digitChar_isDigit _ (Nat.mod_lt _ (by decide))).1

theorem parseDigits_isSome {l : List Char} (acc : Nat) (h : ∀ c ∈ l, c.isDigit = true) :
    ∃ n, parseDigits acc l = some n := by
  induction l generalizing acc with
  | nil => exact ⟨acc, rfl⟩
  | cons c l ih =>
    rw [parseDigits, if_pos (h c List.mem_cons_self)]
    exact ih _ fun d hd => h d (List.mem_cons_of_mem _ hd)

theorem parseDigits_zeros (acc k : Nat) :
    parseDigits acc (List.replicate k '0') = some (acc * 10 ^ k) := by
  induction k generalizing acc with
  | zero => simp [parseDigits]
  | succ k ih =>
    rw [List.replicate_succ, parseDigits, if_pos (by decide), ih, Nat.pow_succ]
    congr 1
    rw [show '0'.toNat - '0'.toNat = 0 from rfl, Nat.add_zero, Nat.mul_assoc, Nat.mul_comm 10]

/-- What is trimmed are zeros. -/
theorem trimZeros_append (l : List Char) : ∃ k, l = trimZeros l ++ List.replicate k '0' := by
  induction l with
  | nil => exact ⟨0, rfl⟩
  | cons c l ih =>
    obtain ⟨k, hk⟩ := ih
    rw [trimZeros]
    split
    · rename_i hnil
      rw [hnil, List.nil_append] at hk
      split
      · rename_i hzero
        exact ⟨k + 1, by rw [hzero, hk, List.replicate_succ, List.nil_append]⟩
      · exact ⟨k, by rw [← hk]; rfl⟩
    · rename_i d ds hcons
      rw [hcons] at hk
      exact ⟨k, by rw [List.cons_append, ← hk]⟩

/-- The fraction is read back. -/
theorem parseFraction_fractionText (h : nanos < second) :
    parseFraction (fractionText nanos ++ ['Z']) = some (nanos, ['Z']) := by
  obtain ⟨k, hk⟩ := trimZeros_append (digits 9 nanos)
  have hdigits : ∀ c ∈ trimZeros (digits 9 nanos), c.isDigit = true := by
    intro c hc
    refine isDigit_of_mem_digits (w := 9) (n := nanos) ?_
    rw [hk]
    exact List.mem_append_left _ hc
  obtain ⟨value, hvalue⟩ := parseDigits_isSome 0 hdigits
  have hwhole : value * 10 ^ k = nanos := by
    have hparse := parseDigits_digits (w := 9) 0 h
    rw [hk, parseDigits_append _ hvalue, parseDigits_zeros] at hparse
    simpa using hparse
  have hlength : (trimZeros (digits 9 nanos)).length + k = 9 := by
    have hlength := congrArg List.length hk
    rw [length_digits, List.length_append, List.length_replicate] at hlength
    exact hlength.symm
  rw [fractionText]
  split
  · rename_i hnil
    rw [hnil] at hvalue
    cases hvalue
    rw [Nat.zero_mul] at hwhole
    rw [← hwhole]
    rfl
  · rename_i d ds hcons
    rw [hcons] at hdigits hvalue hlength
    have htake : ((d :: ds) ++ ['Z']).takeWhile Char.isDigit = d :: ds := by
      rw [List.takeWhile_append_of_pos hdigits]
      simp
    have hdrop : ((d :: ds) ++ ['Z']).dropWhile Char.isDigit = ['Z'] := by
      rw [List.dropWhile_append_of_pos hdigits]
      rfl
    have hshort : (d :: ds).take 9 = d :: ds := List.take_of_length_le (by omega)
    have hscale : 9 - (d :: ds).length = k := by omega
    show (if d.isDigit then _ else _) = _
    rw [if_pos (hdigits d List.mem_cons_self)]
    show Option.map _ (parseNanoseconds (((d :: ds) ++ ['Z']).takeWhile Char.isDigit)) = _
    rw [htake, parseNanoseconds, hshort, hvalue, hscale]
    show some (value * 10 ^ k, ((d :: ds) ++ ['Z']).dropWhile Char.isDigit) = _
    rw [hdrop, hwhole]

/-- A text with its fields in range is read field by field. -/
theorem parseTime_fields {year month mday hour minute sec : Nat} (hyear : year ≤ 9999)
    (hmonth : 1 ≤ month ∧ month ≤ 12) (hmday : 1 ≤ mday ∧ mday ≤ daysIn (isLeap year) month)
    (hhour : hour ≤ 23) (hminute : minute ≤ 59) (hsec : sec ≤ 59) (hnanos : nanos < second) :
    parseTime (digits 4 year ++ '-' :: (digits 2 month ++ '-' :: (digits 2 mday ++ 'T' ::
      (digits 2 hour ++ ':' :: (digits 2 minute ++ ':' ::
        (digits 2 sec ++ (fractionText nanos ++ ['Z']))))))) =
      some (instantOf year month mday hour minute sec nanos) := by
  have hdaysIn : ∀ leap, ∀ month < 13, daysIn leap month ≤ 31 := by decide
  have hdaysIn := hdaysIn (isLeap year) month (by omega)
  generalize hs : digits 4 year ++ '-' :: (digits 2 month ++ '-' :: (digits 2 mday ++ 'T' ::
      (digits 2 hour ++ ':' :: (digits 2 minute ++ ':' ::
        (digits 2 sec ++ (fractionText nanos ++ ['Z'])))))) = s
  have hlong : ¬ s.length < 19 := by
    rw [← hs]
    simp only [List.length_append, List.length_cons, length_digits]
    omega
  -- where the fields stand
  have h5 : digits 2 month <+: s.drop (4 + 1 + 0) := by
    rw [← hs, drop_field]
    exact List.prefix_append _ _
  have h8 : digits 2 mday <+: s.drop (4 + 1 + (2 + 1 + 0)) := by
    rw [← hs, drop_field, drop_field]
    exact List.prefix_append _ _
  have h11 : digits 2 hour <+: s.drop (4 + 1 + (2 + 1 + (2 + 1 + 0))) := by
    rw [← hs, drop_field, drop_field, drop_field]
    exact List.prefix_append _ _
  have h14 : digits 2 minute <+: s.drop (4 + 1 + (2 + 1 + (2 + 1 + (2 + 1 + 0)))) := by
    rw [← hs, drop_field, drop_field, drop_field, drop_field]
    exact List.prefix_append _ _
  have h17 : digits 2 sec <+: s.drop (4 + 1 + (2 + 1 + (2 + 1 + (2 + 1 + (2 + 1 + 0))))) := by
    rw [← hs, drop_field, drop_field, drop_field, drop_field, drop_field]
    exact List.prefix_append _ _
  have h19 : s.drop (4 + 1 + (2 + 1 + (2 + 1 + (2 + 1 + (2 + 1 + 2))))) =
      fractionText nanos ++ ['Z'] := by
    rw [← hs, drop_field, drop_field, drop_field, drop_field, drop_field,
      List.drop_left' (length_digits 2 sec)]
  have hseparators : s[4]? = some '-' ∧ s[7]? = some '-' ∧ s[10]? = some 'T' ∧ s[13]? = some ':' ∧
      s[16]? = some ':' := by
    rw [← hs]
    simp [List.getElem?_append, length_digits]
  have hyearField : parseField s 0 4 0 9999 = some year :=
    parseField_digits (hs ▸ List.prefix_append _ _) (by omega) (by omega) hyear
  have hmonthField : parseField s 5 2 1 12 = some month :=
    parseField_digits h5 (by omega) hmonth.1 hmonth.2
  have hmdayField : parseField s 8 2 1 (daysIn (isLeap year) month) = some mday :=
    parseField_digits h8 (by omega) hmday.1 hmday.2
  have hhourField : parseField s 11 2 0 23 = some hour :=
    parseField_digits h11 (by omega) (by omega) hhour
  have hminuteField : parseField s 14 2 0 59 = some minute :=
    parseField_digits h14 (by omega) (by omega) hminute
  have hsecField : parseField s 17 2 0 59 = some sec :=
    parseField_digits h17 (by omega) (by omega) hsec
  rw [parseTime, if_neg hlong, hyearField, Option.bind_some, hmonthField, Option.bind_some,
    hmdayField, Option.bind_some, hhourField, Option.bind_some, hminuteField, Option.bind_some,
    hsecField, Option.bind_some, if_pos hseparators, h19, parseFraction_fractionText hnanos,
    Option.bind_some]
  simp [parseZone]

/-- **Round trip**: `Parse` reads back what `Format` wrote, in the years 0 to 9999. -/
theorem parseTime_formatTime {t : Int} (hnonneg : 0 ≤ yearOf t) (hle : yearOf t ≤ 9999) :
    parseTime (formatTime t) = some t := by
  have hsecond : (second : Int) = 1000000000 := rfl
  -- the fields and their ranges
  obtain ⟨year, hyear⟩ := Int.eq_ofNat_of_zero_le hnonneg
  have hdays := daysToYear_civilYear (t / second / 86400)
  have hyday := civilYear_yday_lt (t / second / 86400)
  rw [show (civilYear (t / second / 86400)).1 = (year : Int) from hyear] at hdays hyday
  obtain ⟨hmonth, hmonth', hmday, hmday', hback⟩ := monthDay_spec (isLeap year) hyday
  have hdaysIn : ∀ leap, ∀ month < 13, daysIn leap month ≤ 31 := by decide
  have hdaysIn := hdaysIn (isLeap year) _ (Nat.lt_succ_of_le hmonth')
  have hyearText : yearText (year : Int) = digits 4 year := by
    rw [yearText, if_neg (by omega), appendInt_of_lt (by omega)]
    rfl
  generalize hclock : (t / second % 86400).toNat = clock
  have hclockLt : clock < 86400 := by omega
  generalize hnanos : (t % second).toNat = nanos
  have hnanosLt : nanos < second := by
    show nanos < 1000000000
    rw [hsecond] at hnanos
    omega
  generalize hmonthDay : monthDay (isLeap year) (civilYear (t / second / 86400)).2 = md at *
  obtain ⟨month, mday⟩ := md
  dsimp only at *
  have htext : formatTime t = digits 4 year ++ '-' ::
      (digits 2 month ++ '-' :: (digits 2 mday ++ 'T' ::
      (digits 2 (clock / 3600) ++ ':' :: (digits 2 (clock % 3600 / 60) ++ ':' ::
        (digits 2 (clock % 60) ++ (fractionText nanos ++ ['Z'])))))) := by
    simp only [formatTime, instantText, secondText, hclock, hnanos,
      show (civilYear (t / second / 86400)).1 = (year : Int) from hyear, hmonthDay, hyearText,
      List.append_assoc, List.cons_append]
    rw [appendInt_of_lt (by omega), appendInt_of_lt (by omega), appendInt_of_lt (by omega),
      appendInt_of_lt (by omega), appendInt_of_lt (by omega)]
  rw [htext, parseTime_fields (by omega) ⟨hmonth, hmonth'⟩ ⟨hmday, hmday'⟩ (by omega) (by omega)
    (by omega) hnanosLt, instantOf, hback]
  congr 1
  rw [hsecond] at *
  omega

end Foundations
end FlickDrop
