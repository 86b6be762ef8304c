/-
  Backend/VecMath.lean --- the two function macros of VecMath.h, and Min and Max.

  `VECCORE_MATH_UNARY_FUNCTION(F, f)` and `VECCORE_MATH_BINARY_FUNCTION(F, f)`
  apply a standard function lane by lane, into a copy of the first argument.
  `Min` and `Max` blend their arguments under the mask of a comparison.
-/
import VecCore.Backend.Implementation
import VecCore.Backend.Scalar

set_option autoImplicit false

namespace VecCore

open VecCore.Foundation

variable {V : Nat} {α : Type*}

/-- The functions that `VECCORE_MATH_UNARY_FUNCTION` defines. -/
inductive UnaryFunction where
  | Abs
  | Sin | Cos | Tan | ASin | ACos | ATan
  | Sinh | Cosh | Tanh | ASinh | ACosh | ATanh
  | Exp | Exp2 | Expm1 | Log | Log2 | Logb | Log10 | Log1p | Ilogb
  | TGamma
  | Sqrt | Cbrt
  | Ceil | Floor | Round | Trunc
  deriving DecidableEq, Repr

/-- The functions that `VECCORE_MATH_BINARY_FUNCTION` defines. -/
inductive BinaryFunction where
  | CopySign | ATan2 | Pow | Hypot | Fmod
  deriving DecidableEq, Repr

/-- `VECCORE_MATH_UNARY_FUNCTION`, for the standard function `f`. -/
def mathUnary (f : α → α) (x : Lanes V α) : Lanes V α :=
  forLanes V (fun i ret => set ret i (f (get x i))) x

/-- `VECCORE_MATH_BINARY_FUNCTION`, for the standard function `f`. -/
def mathBinary (f : α → α → α) (x y : Lanes V α) : Lanes V α :=
  forLanes V (fun i ret => set ret i (f (get x i) (get y i))) x

@[simp] theorem mathUnary_apply (f : α → α) (x : Lanes V α) (i : Fin V) :
    mathUnary f x i = f (x i) :=
  congrFun (forLanes_set (fun i _ => f (get x i)) x) i

@[simp] theorem mathBinary_apply (f : α → α → α) (x y : Lanes V α) (i : Fin V) :
    mathBinary f x y i = f (x i) (y i) :=
  congrFun (forLanes_set (fun i _ => f (get x i) (get y i)) x) i

/-! ## Min and Max -/

section MinMax

variable [Zero α] [LT α] [DecidableLT α]

/-- `Min(a, b)`. -/
def mathMin (a b : Lanes V α) : Lanes V α := blend (ltLanes a b) a b

/-- `Max(a, b)`, which compares with `a > b`. -/
def mathMax (a b : Lanes V α) : Lanes V α := blend (ltLanes b a) a b

/-- `Min(a, b, c)`. -/
def mathMin3 (a b c : Lanes V α) : Lanes V α := mathMin a (mathMin b c)

/-- `Max(a, b, c)`. -/
def mathMax3 (a b c : Lanes V α) : Lanes V α := mathMax a (mathMax b c)

end MinMax

namespace Scalar

/-- `VECCORE_MATH_UNARY_FUNCTION` on a scalar type. -/
def mathUnary (f : α → α) (x : α) : α :=
  forLanes 1 (fun i ret => set ret i (f (get x i))) x

/-- `VECCORE_MATH_BINARY_FUNCTION` on a scalar type. -/
def mathBinary (f : α → α → α) (x y : α) : α :=
  forLanes 1 (fun i ret => set ret i (f (get x i) (get y i))) x

end Scalar

end VecCore
