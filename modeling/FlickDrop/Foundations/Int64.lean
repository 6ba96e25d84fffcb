import Mathlib.Algebra.Group.Int.Defs
import Mathlib.Algebra.Group.Nat.Defs
import Mathlib.Order.Lattice

/-!
# `int64` arithmetic

`int64` checks a value: a computation whose every value is checked is `none` as soon as one value
lies outside the range, so one that ends in `some` has overflowed nowhere.  `wrapInt64` is what a
value becomes where the computation is not checked.
-/

namespace FlickDrop
namespace Foundations

/-- A value that an `int64` can hold. -/
def int64 (x : Int) : Option Int := if -2 ^ 63 ≤ x ∧ x < 2 ^ 63 then some x else none

/-- The value an `int64` holds after an operation that may overflow. -/
def wrapInt64 (x : Int) : Int := x.bmod (2 ^ 64)

theorem int64_of_range {x : Int} (hleast : -2 ^ 63 ≤ x) (hmost : x < 2 ^ 63) : int64 x = some x :=
  if_pos ⟨hleast, hmost⟩

theorem int64_eq_some {x y : Int} (h : int64 x = some y) : y = x ∧ x < 2 ^ 63 := by
  rw [int64] at h
  split at h
  · rename_i hrange
    exact ⟨(Option.some.inj h).symm, hrange.2⟩
  · cases h

end Foundations
end FlickDrop
