/-
Signed 64-bit arithmetic whose overflows are seen.

A result that does not fit, or a quotient by zero, is `none`.  A sum, a difference or a
product is checked as a whole number; a quotient is cut off towards zero.
-/

import Mathlib.Algebra.Order.Ring.Int

namespace QuorumKit
namespace Library

def int64Max : Int := 9223372036854775807

def FitsInt64 (value : Int) : Prop := -int64Max - 1 ≤ value ∧ value ≤ int64Max

instance (value : Int) : Decidable (FitsInt64 value) := inferInstanceAs (Decidable (_ ∧ _))

def checked (value : Int) : Option Int := if FitsInt64 value then some value else none

def divide (dividend divisor : Int) : Option Int :=
  if divisor = 0 then none else checked (dividend.tdiv divisor)

variable {value dividend divisor : Int}

theorem checked_some (fits : FitsInt64 value) : checked value = some value := if_pos fits

theorem checked_none (differs : ¬ FitsInt64 value) : checked value = none := if_neg differs

theorem checked_eq_some {result : Int} (isResult : checked value = some result) :
    result = value ∧ FitsInt64 value := by
  unfold checked at isResult
  split at isResult
  · rename_i fits
    exact ⟨(Option.some.inj isResult).symm, fits⟩
  · contradiction

theorem fitsInt64_of_nonneg (nonneg : 0 ≤ value) (small : value ≤ int64Max) : FitsInt64 value := by
  refine ⟨?_, small⟩
  unfold int64Max
  omega

theorem divide_zero (dividend : Int) : divide dividend 0 = none := if_pos rfl

theorem divide_nonneg (nonneg : 0 ≤ dividend) (small : dividend ≤ int64Max)
    (positive : 0 < divisor) :
    divide dividend divisor = some (dividend / divisor) ∧ 0 ≤ dividend / divisor ∧
      dividend / divisor ≤ dividend := by
  have lower : 0 ≤ dividend / divisor := Int.ediv_nonneg nonneg positive.le
  have upper : dividend / divisor ≤ dividend := Int.ediv_le_self _ nonneg
  unfold divide
  rw [if_neg (ne_of_gt positive), Int.tdiv_eq_ediv_of_nonneg nonneg]
  exact ⟨checked_some (fitsInt64_of_nonneg lower (upper.trans small)), lower, upper⟩

end Library
end QuorumKit
