import Mathlib.Data.Finset.Card

/-!
# The first free candidate

A loop that counts up until the candidate of its index is not taken.  The loop is given a
number of rounds; when no two indices have the same candidate, one round more than there
are taken names is enough, whatever the names are.
-/

namespace FlickDrop
namespace Foundations

variable {Name : Type*} [DecidableEq Name]

/-- The first index from `index` on whose candidate is not taken, found within `fuel`
rounds. -/
def firstFree (candidate : Nat → Name) (taken : Finset Name) : Nat → Nat → Option Nat
  | 0, _ => none
  | fuel + 1, index =>
    if candidate index ∈ taken then firstFree candidate taken fuel (index + 1) else some index

variable {candidate : Nat → Name} {taken : Finset Name} {fuel index found : Nat}

/-- What the loop finds is free. -/
theorem firstFree_some (h : firstFree candidate taken fuel index = some found) :
    candidate found ∉ taken := by
  induction fuel generalizing index with
  | zero => cases h
  | succ fuel ih =>
    unfold firstFree at h
    split at h
    · exact ih h
    · rename_i hfree
      obtain rfl := Option.some.inj h
      exact hfree

/-- A loop that uses up its rounds has met taken candidates only. -/
theorem firstFree_none (h : firstFree candidate taken fuel index = none) :
    ∀ i, i < fuel → candidate (index + i) ∈ taken := by
  induction fuel generalizing index with
  | zero => exact fun i hi => absurd hi (Nat.not_lt_zero i)
  | succ fuel ih =>
    unfold firstFree at h
    split at h
    · rename_i htaken
      intro i hi
      cases i with
      | zero => exact htaken
      | succ i =>
        rw [Nat.add_comm i 1, ← Nat.add_assoc]
        exact ih h i (Nat.lt_of_succ_lt_succ hi)
    · cases h

/-- **The loop ends.** -/
theorem firstFree_isSome (index : Nat) (hinj : Function.Injective candidate)
    (hfuel : taken.card < fuel) : ∃ found, firstFree candidate taken fuel index = some found := by
  cases h : firstFree candidate taken fuel index with
  | some found => exact ⟨found, rfl⟩
  | none =>
    -- otherwise there are as many taken candidates as rounds
    have hsubset : (Finset.range fuel).image (fun i => candidate (index + i)) ⊆ taken := by
      intro name hname
      obtain ⟨i, hi, rfl⟩ := Finset.mem_image.mp hname
      exact firstFree_none h i (Finset.mem_range.mp hi)
    have hcard := Finset.card_le_card hsubset
    rw [Finset.card_image_of_injective, Finset.card_range] at hcard
    · omega
    · intro i j hij
      exact Nat.add_left_cancel (hinj hij)

/-- More rounds do not change what the loop finds. -/
theorem firstFree_mono {fuel' : Nat} (h : firstFree candidate taken fuel index = some found)
    (hfuel : fuel ≤ fuel') : firstFree candidate taken fuel' index = some found := by
  induction fuel generalizing fuel' index with
  | zero => cases h
  | succ fuel ih =>
    obtain ⟨rest, rfl⟩ : ∃ rest, fuel' = rest + 1 := ⟨fuel' - 1, by omega⟩
    unfold firstFree at h ⊢
    split at h
    · rename_i htaken
      rw [if_pos htaken]
      exact ih h (by omega)
    · rename_i hfree
      rw [if_neg hfree]
      exact h

end Foundations
end FlickDrop
