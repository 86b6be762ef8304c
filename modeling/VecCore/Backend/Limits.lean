/-
  Backend/Limits.lean --- the scalar types of Limits.h and their limits.

  A scalar type is an integer type of any width and signedness, `float` or
  `double`.  Floating-point values include the infinities, but not NaN.
-/
import VecCore.Foundation.CInt
import VecCore.Foundation.FloatFormat

set_option autoImplicit false

namespace VecCore

open VecCore.Foundation

/-- The scalar types with limits. -/
inductive ScalarType where
  | integer (t : IntTy)
  | float
  | double

namespace ScalarType

/-- The values of a scalar type, NaN excepted. -/
def Value : ScalarType → Type
  | integer t => t.Value
  | float => FloatFormat.single.Extended
  | double => FloatFormat.double.Extended

instance : (T : ScalarType) → LinearOrder T.Value
  | integer _ => inferInstanceAs (LinearOrder (Subtype _))
  | float => inferInstanceAs (LinearOrder FloatFormat.single.Extended)
  | double => inferInstanceAs (LinearOrder FloatFormat.double.Extended)

/-- The value that `T{}` initialises with. -/
instance : (T : ScalarType) → Zero T.Value
  | integer t => ⟨⟨0, t.fits_zero⟩⟩
  | float => ⟨.finite .zero⟩
  | double => ⟨.finite .zero⟩

/-- `NumericLimits<T>::Max()`: for a floating-point type, the largest finite value. -/
def max : (T : ScalarType) → T.Value
  | integer t => ⟨t.hi, t.lo_nonpos.trans t.hi_nonneg, le_refl _⟩
  | float => .finite FloatFormat.single.largest
  | double => .finite FloatFormat.double.largest

/-- `NumericLimits<T>::Lowest()`: for a floating-point type, the lowest finite value. -/
def lowest : (T : ScalarType) → T.Value
  | integer t => ⟨t.lo, le_refl _, t.lo_nonpos.trans t.hi_nonneg⟩
  | float => .finite FloatFormat.single.lowest
  | double => .finite FloatFormat.double.lowest

/-- `x` is the infinity above all values; an integer type has none. -/
def IsPosInf : {T : ScalarType} → T.Value → Prop
  | integer _, _ => False
  | float, x => x = FloatFormat.Extended.posInf
  | double, x => x = FloatFormat.Extended.posInf

/-- `x` is the infinity below all values. -/
def IsNegInf : {T : ScalarType} → T.Value → Prop
  | integer _, _ => False
  | float, x => x = FloatFormat.Extended.negInf
  | double, x => x = FloatFormat.Extended.negInf

theorem le_max_iff {T : ScalarType} (x : T.Value) : x ≤ T.max ↔ ¬ IsPosInf x := by
  cases T with
  | integer t => exact iff_of_true x.property.2 (fun h => h)
  | float => exact FloatFormat.le_largest_iff x
  | double => exact FloatFormat.le_largest_iff x

theorem lowest_le_iff {T : ScalarType} (x : T.Value) :
    T.lowest ≤ x ↔ ¬ IsNegInf x := by
  cases T with
  | integer t => exact iff_of_true x.property.1 (fun h => h)
  | float => exact FloatFormat.lowest_le_iff x
  | double => exact FloatFormat.lowest_le_iff x

end ScalarType

end VecCore
