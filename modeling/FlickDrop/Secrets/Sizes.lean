import Mathlib.Data.Int.ConditionallyCompleteOrder
import Mathlib.Order.ConditionallyCompleteLattice.Basic
import FlickDrop.Secrets.Age

/-!
# The two size bounds

`MaxPlaintextBytes` is the inverse of `MaxCiphertextBytes` in the order of the integers, and
the code computes both in `int64` arithmetic without overflow.
-/

namespace FlickDrop
namespace Secrets

open Foundations

/-- `MaxCiphertextBytes` in `int64` arithmetic. -/
def maxCiphertextBytesInt64 (n : Int) : Option Int := do
  let padded ← int64 (n + ageChunkBytes)
  let rounded ← int64 (padded - 1)
  let started ← int64 (rounded.tdiv ageChunkBytes)
  let chunks := max 1 started
  let body ← int64 (ageHeaderAllowanceBytes + agePayloadNonceBytes + n)
  let tags ← int64 (ageTagBytes * chunks)
  int64 (body + tags)

/-- The loop of `MaxPlaintextBytes` in `int64` arithmetic. -/
def growPlaintextInt64 (c n : Int) : Option Int :=
  match _hnext : int64 (n + 1) with
  | none => none
  | some next =>
    match maxCiphertextBytesInt64 next with
    | none => none
    | some size => if size ≤ c then growPlaintextInt64 c next else some n
termination_by (2 ^ 63 - n).toNat
decreasing_by
  obtain ⟨rfl, hrange⟩ := int64_eq_some _hnext
  omega

/-- `MaxPlaintextBytes` in `int64` arithmetic. -/
def maxPlaintextBytesInt64 (c : Int) : Option Int := do
  let least ← maxCiphertextBytesInt64 0
  if c < least then
    return 0
  let bare ← int64 (c - ageHeaderAllowanceBytes)
  let payload ← int64 (bare - agePayloadNonceBytes)
  let padded ← int64 (c + ageChunkBytes)
  let rounded ← int64 (padded - 1)
  let started ← int64 (rounded.tdiv ageChunkBytes)
  let tags ← int64 (ageTagBytes * started)
  let estimate ← int64 (payload - tags)
  growPlaintextInt64 c (max 0 estimate)

theorem maxCiphertextBytesInt64_eq {n : Int} (hn : 0 ≤ n) (hmost : n ≤ 2 ^ 62 + 1) :
    maxCiphertextBytesInt64 n = some (maxCiphertextBytes n) := by
  have htdiv : (n + 65536 - 1).tdiv 65536 = (n + 65535) / 65536 := by
    rw [Int.tdiv_eq_ediv_of_nonneg (by omega)]
    omega
  simp only [maxCiphertextBytesInt64, maxCiphertextBytes, ageHeaderAllowanceBytes,
    agePayloadNonceBytes, ageTagBytes, ageChunkBytes_eq, Option.bind_eq_bind]
  rw [int64_of_range (by omega) (by omega), Option.bind_some, int64_of_range (by omega) (by omega),
    Option.bind_some, htdiv, int64_of_range (by omega) (by omega), Option.bind_some,
    int64_of_range (by omega) (by omega), Option.bind_some, int64_of_range (by omega) (by omega),
    Option.bind_some, int64_of_range (by omega) (by omega)]

theorem growPlaintextInt64_step {c n : Int} (hn : 0 ≤ n) (hmost : n ≤ 2 ^ 62) :
    growPlaintextInt64 c n =
      if maxCiphertextBytes (n + 1) ≤ c then growPlaintextInt64 c (n + 1) else some n := by
  have hsize := maxCiphertextBytesInt64_eq (n := n + 1) (by omega) (by omega)
  rw [growPlaintextInt64]
  split
  · rename_i hnone
    rw [int64_of_range (by omega) (by omega)] at hnone
    cases hnone
  · rename_i next hnext
    obtain ⟨rfl, -⟩ := int64_eq_some hnext
    rw [hsize]

theorem growPlaintextInt64_eq {c n : Int} (hn : 0 ≤ n) (hnc : n ≤ c) (hc : c ≤ 2 ^ 62) :
    growPlaintextInt64 c n = some (growPlaintext c n) := by
  induction n using growPlaintext.induct c with
  | case1 n hstep ih =>
    have hlonger := lt_maxCiphertextBytes (n + 1)
    rw [growPlaintextInt64_step hn (by omega), if_pos hstep, growPlaintext, if_pos hstep]
    exact ih (by omega) (by omega)
  | case2 n hstop =>
    rw [growPlaintextInt64_step hn (by omega), if_neg hstop, growPlaintext, if_neg hstop]

theorem maxPlaintextBytesInt64_eq {c : Int} (hc : 0 ≤ c) (hmost : c ≤ 2 ^ 62) :
    maxPlaintextBytesInt64 c = some (maxPlaintextBytes c) := by
  rw [maxPlaintextBytesInt64, maxCiphertextBytesInt64_eq le_rfl (by omega)]
  by_cases hsmall : c < maxCiphertextBytes 0
  · rw [maxPlaintextBytes, if_pos hsmall]
    simp only [Option.bind_eq_bind, Option.bind_some, if_pos hsmall]
    rfl
  · have htdiv : (c + 65536 - 1).tdiv 65536 = (c + 65535) / 65536 := by
      rw [Int.tdiv_eq_ediv_of_nonneg (by omega)]
      omega
    have hlarge : 4128 ≤ c := by
      have hempty := maxCiphertextBytes_eq (n := 0) le_rfl
      omega
    rw [maxPlaintextBytes, if_neg hsmall]
    simp only [Option.bind_eq_bind, Option.bind_some, if_neg hsmall, ageHeaderAllowanceBytes,
      agePayloadNonceBytes, ageTagBytes, ageChunkBytes_eq]
    rw [int64_of_range (by omega) (by omega), Option.bind_some,
      int64_of_range (by omega) (by omega), Option.bind_some,
      int64_of_range (by omega) (by omega), Option.bind_some,
      int64_of_range (by omega) (by omega), Option.bind_some, htdiv,
      int64_of_range (by omega) (by omega), Option.bind_some,
      int64_of_range (by omega) (by omega), Option.bind_some,
      int64_of_range (by omega) (by omega), Option.bind_some]
    exact growPlaintextInt64_eq (by omega) (by omega) hmost

/-- **The two size bounds invert each other**, and the code computes them without overflow. -/
theorem maxPlaintextBytes_inverts :
    (∀ c, 0 ≤ c →
      if maxCiphertextBytes 0 ≤ c then
        IsGreatest { n | 0 ≤ n ∧ maxCiphertextBytes n ≤ c } (maxPlaintextBytes c)
      else
        maxPlaintextBytes c = 0) ∧
    StrictMono maxCiphertextBytes ∧
    (∀ c, maxCiphertextBytes 0 ≤ c →
      startPlaintext c ≤ maxPlaintextBytes c ∧
      ∃ passes : Nat, maxPlaintextBytes c = startPlaintext c + passes ∧
        (∀ pass : Nat, pass < passes → maxCiphertextBytes (startPlaintext c + pass + 1) ≤ c) ∧
        c < maxCiphertextBytes (startPlaintext c + passes + 1)) ∧
    (∀ c, 0 ≤ c → c ≤ 2 ^ 62 → maxPlaintextBytesInt64 c = some (maxPlaintextBytes c)) := by
  refine ⟨?_, fun m n hmn => maxCiphertextBytes_lt hmn, ?_, ?_⟩
  · intro c _
    split
    · rename_i hc
      refine ⟨⟨maxPlaintextBytes_nonneg c, (le_maxPlaintextBytes_iff hc).mp le_rfl⟩, ?_⟩
      rintro n ⟨-, hfits⟩
      exact (le_maxPlaintextBytes_iff hc).mpr hfits
    · rename_i hc
      exact if_pos (Int.not_le.mp hc)
  · intro c hc
    rw [maxPlaintextBytes_of_ge hc]
    exact ⟨le_growPlaintext c _, growPlaintext_passes c _⟩
  · intro c hc hmost
    exact maxPlaintextBytesInt64_eq hc hmost

end Secrets
end FlickDrop
