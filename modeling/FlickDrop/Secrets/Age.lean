import Mathlib.Order.Lattice
import FlickDrop.Foundations.Base64
import FlickDrop.Foundations.Int64
import FlickDrop.Foundations.Transaction

/-!
# Age files

Model of `internal/secrets/age.go`: how long an opened body may stream, how large an
age file may be, and the check of an age file that travels base64-encoded in a field.
-/

namespace FlickDrop
namespace Secrets

open Foundations

/-- `OpenStreamTimeout`. -/
def openStreamTimeout : Nat := 30 * minute

def openObjectGrace : Nat := openStreamTimeout + 5 * minute

def ageHeaderAllowanceBytes : Int := 4096

def ageChunkBytes : Int := 64 * 1024

def ageTagBytes : Int := 16

def agePayloadNonceBytes : Int := 16

def maxWrappedIdentityBytes : Nat := 1024

def maxEncryptedFilenameBytes : Nat := 8 * 1024

def maxContentTypeBytes : Nat := 255

/-- The first line of every age file. -/
def ageMagic : Bytes :=
  "age-encryption.org/v1\n".toList.map fun c => UInt8.ofNat c.toNat

/-- `MaxCiphertextBytes`. -/
def maxCiphertextBytes (n : Int) : Int :=
  let chunks := max 1 ((n + ageChunkBytes - 1).tdiv ageChunkBytes)
  ageHeaderAllowanceBytes + agePayloadNonceBytes + n + ageTagBytes * chunks

variable {c n m : Int}

theorem lt_maxCiphertextBytes (n : Int) : n < maxCiphertextBytes n := by
  simp only [maxCiphertextBytes, ageHeaderAllowanceBytes, agePayloadNonceBytes, ageTagBytes]
  omega

/-- The loop of `MaxPlaintextBytes`. -/
def growPlaintext (c n : Int) : Int :=
  if maxCiphertextBytes (n + 1) ≤ c then growPlaintext c (n + 1) else n
termination_by (c - n).toNat
decreasing_by
  have hlonger := lt_maxCiphertextBytes (n + 1)
  omega

/-- `MaxPlaintextBytes`. -/
def maxPlaintextBytes (c : Int) : Int :=
  if c < maxCiphertextBytes 0 then
    0
  else
    growPlaintext c (max 0 (c - ageHeaderAllowanceBytes - agePayloadNonceBytes -
      ageTagBytes * ((c + ageChunkBytes - 1).tdiv ageChunkBytes)))

/-- `decodeAgeField`; `none` is `errNotAgeFile`. -/
def decodeAgeField (value : String) (limit : Nat) : Option Bytes :=
  if limit + 3 < stdEncoding.decodedLen value.utf8ByteSize then
    none
  else
    match stdEncoding.decodeString value with
    | none => none
    | some raw =>
      if limit < raw.length ∨ ageMagic.isPrefixOf raw = false then none else some raw

/-! ### The two size bounds invert each other -/

/-- The tags of a plaintext, counted by started chunks. -/
theorem maxCiphertextBytes_eq (hn : 0 ≤ n) :
    maxCiphertextBytes n = 4112 + n + 16 * max 1 ((n + 65535) / 65536) := by
  simp only [maxCiphertextBytes, ageHeaderAllowanceBytes, agePayloadNonceBytes, ageTagBytes,
    ageChunkBytes]
  rw [Int.tdiv_eq_ediv_of_nonneg (by omega)]
  omega

theorem ageChunkBytes_eq : ageChunkBytes = 65536 := rfl

theorem maxCiphertextBytes_lt (hmn : m < n) : maxCiphertextBytes m < maxCiphertextBytes n := by
  -- the tags never get fewer, and every byte of plaintext is a byte of the file
  have htags : (m + 65536 - 1).tdiv 65536 ≤ (n + 65536 - 1).tdiv 65536 :=
    Int.tdiv_le_tdiv (by omega) (by omega)
  simp only [maxCiphertextBytes, ageHeaderAllowanceBytes, agePayloadNonceBytes, ageTagBytes,
    ageChunkBytes_eq]
  omega

theorem maxCiphertextBytes_le (hmn : m ≤ n) : maxCiphertextBytes m ≤ maxCiphertextBytes n := by
  rcases Int.lt_or_eq_of_le hmn with hlt | rfl
  · exact Int.le_of_lt (maxCiphertextBytes_lt hlt)
  · exact Int.le_refl _

theorem growPlaintext_fits (h : maxCiphertextBytes n ≤ c) :
    maxCiphertextBytes (growPlaintext c n) ≤ c := by
  induction n using growPlaintext.induct c with
  | case1 n hstep ih =>
    rw [growPlaintext, if_pos hstep]
    exact ih hstep
  | case2 n hstop =>
    rw [growPlaintext, if_neg hstop]
    exact h

theorem le_growPlaintext (c n : Int) : n ≤ growPlaintext c n := by
  induction n using growPlaintext.induct c with
  | case1 n hstep ih =>
    rw [growPlaintext, if_pos hstep]
    omega
  | case2 n hstop =>
    rw [growPlaintext, if_neg hstop]

theorem growPlaintext_stops (c n : Int) : c < maxCiphertextBytes (growPlaintext c n + 1) := by
  induction n using growPlaintext.induct c with
  | case1 n hstep ih =>
    rw [growPlaintext, if_pos hstep]
    exact ih
  | case2 n hstop =>
    rw [growPlaintext, if_neg hstop]
    omega

theorem maxPlaintextBytes_nonneg (c : Int) : 0 ≤ maxPlaintextBytes c := by
  rw [maxPlaintextBytes]
  split
  · exact le_rfl
  · exact le_trans (Int.le_max_left 0 _) (le_growPlaintext _ _)

/-- Where the loop of `MaxPlaintextBytes` starts. -/
def startPlaintext (c : Int) : Int :=
  max 0 (c - ageHeaderAllowanceBytes - agePayloadNonceBytes -
    ageTagBytes * ((c + ageChunkBytes - 1).tdiv ageChunkBytes))

theorem maxPlaintextBytes_of_ge (hc : maxCiphertextBytes 0 ≤ c) :
    maxPlaintextBytes c = growPlaintext c (startPlaintext c) :=
  if_neg (Int.not_lt.mpr hc)

/-- The loop starts with a plaintext that fits: it has no more chunks than its age file. -/
theorem startPlaintext_fits (hc : maxCiphertextBytes 0 ≤ c) :
    maxCiphertextBytes (startPlaintext c) ≤ c := by
  have hempty := maxCiphertextBytes_eq (n := 0) le_rfl
  rw [startPlaintext, maxCiphertextBytes_eq (Int.le_max_left 0 _)]
  simp only [ageHeaderAllowanceBytes, agePayloadNonceBytes, ageTagBytes,
    ageChunkBytes_eq]
  rw [Int.tdiv_eq_ediv_of_nonneg (by omega)]
  omega

/-- `MaxPlaintextBytes` is the largest plaintext whose age file always fits, wherever an
empty one does. -/
theorem le_maxPlaintextBytes_iff (hc : maxCiphertextBytes 0 ≤ c) :
    n ≤ maxPlaintextBytes c ↔ maxCiphertextBytes n ≤ c := by
  rw [maxPlaintextBytes_of_ge hc]
  constructor
  · intro hle
    exact (maxCiphertextBytes_le hle).trans
      (growPlaintext_fits (startPlaintext_fits hc))
  · intro hle
    by_contra hgt
    have hstops := growPlaintext_stops c (startPlaintext c)
    have hnext := maxCiphertextBytes_le
      (show growPlaintext c (startPlaintext c) + 1 ≤ n by omega)
    omega

/-- The passes of the loop: every one but the last finds that one more byte fits. -/
theorem growPlaintext_passes (c n : Int) :
    ∃ passes : Nat, growPlaintext c n = n + passes ∧
      (∀ pass : Nat, pass < passes → maxCiphertextBytes (n + pass + 1) ≤ c) ∧
      c < maxCiphertextBytes (n + passes + 1) := by
  induction n using growPlaintext.induct c with
  | case1 n hstep ih =>
    obtain ⟨passes, hends, hfits, hstops⟩ := ih
    refine ⟨passes + 1, ?_, ?_, ?_⟩
    · rw [growPlaintext, if_pos hstep, hends]
      omega
    · intro pass hpass
      rcases Nat.eq_zero_or_pos pass with rfl | hlater
      · simpa using hstep
      · have hthis := hfits (pass - 1) (by omega)
        rwa [show n + 1 + ((pass - 1 : Nat) : Int) + 1 = n + pass + 1 by omega] at hthis
    · rwa [show n + ((passes + 1 : Nat) : Int) + 1 = n + 1 + passes + 1 by omega]
  | case2 n hstop =>
    refine ⟨0, ?_, ?_, ?_⟩
    · rw [growPlaintext, if_neg hstop]
      simp
    · intro pass hpass
      omega
    · simpa using hstop

end Secrets
end FlickDrop
