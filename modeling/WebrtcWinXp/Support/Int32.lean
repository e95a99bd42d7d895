import Mathlib.Algebra.Order.Ring.Int
import Mathlib.Data.Option.Basic

/-!
# Arithmetic that may overflow

A computation with values of 32 bits has no result when one of its
intermediate values is too large.
-/

namespace WebrtcWinXp.Support

/-- The values of an `int`. -/
def Fits (x : ℤ) : Prop := -2 ^ 31 ≤ x ∧ x < 2 ^ 31

instance (x : ℤ) : Decidable (Fits x) :=
  inferInstanceAs (Decidable (_ ∧ _))

/-- The value, unless it overflows. -/
def int32 (x : ℤ) : Option ℤ := if Fits x then some x else none

variable {x y : ℤ}

theorem fits_of_bounds (hlower : 0 ≤ x) (hupper : x < 2 ^ 31) : Fits x :=
  ⟨by omega, hupper⟩

theorem int32_of_fits (h : Fits x) : int32 x = some x :=
  if_pos h

end WebrtcWinXp.Support
