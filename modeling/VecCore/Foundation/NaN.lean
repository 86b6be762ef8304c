/-
  Foundation/NaN.lean --- exact numbers extended by a NaN.

  The elements of a field together with one further value, the result of a
  division by zero.  It propagates through every operation and fails every
  comparison.
-/
import Mathlib.Algebra.Order.Field.Basic

set_option autoImplicit false

namespace VecCore.Foundation

/-- An exact number, or NaN. -/
inductive WithNaN (F : Type*) where
  | nan
  | num (x : F)

namespace WithNaN

variable {F : Type*}

/-- Apply an operation to two numbers; NaN propagates. -/
def lift₂ (op : F → F → WithNaN F) : WithNaN F → WithNaN F → WithNaN F
  | num x, num y => op x y
  | _, _ => nan

instance [Add F] : Add (WithNaN F) := ⟨lift₂ fun x y => num (x + y)⟩
instance [Sub F] : Sub (WithNaN F) := ⟨lift₂ fun x y => num (x - y)⟩
instance [Mul F] : Mul (WithNaN F) := ⟨lift₂ fun x y => num (x * y)⟩
instance [Div F] [Zero F] [DecidableEq F] : Div (WithNaN F) :=
  ⟨lift₂ fun x y => if y = 0 then nan else num (x / y)⟩

/-- `x < y`, false when either side is NaN. -/
def lt [LT F] [DecidableLT F] : WithNaN F → WithNaN F → Bool
  | num x, num y => decide (x < y)
  | _, _ => false

@[simp] theorem num_add [Add F] (x y : F) : num x + num y = num (x + y) := rfl
@[simp] theorem num_sub [Sub F] (x y : F) : num x - num y = num (x - y) := rfl
@[simp] theorem num_mul [Mul F] (x y : F) : num x * num y = num (x * y) := rfl

@[simp] theorem nan_add [Add F] (x : WithNaN F) : nan + x = nan := rfl
@[simp] theorem nan_mul [Mul F] (x : WithNaN F) : nan * x = nan := rfl
@[simp] theorem nan_sub [Sub F] (x : WithNaN F) : nan - x = nan := rfl

@[simp] theorem add_nan [Add F] (x : WithNaN F) : x + nan = nan := by cases x <;> rfl
@[simp] theorem mul_nan [Mul F] (x : WithNaN F) : x * nan = nan := by cases x <;> rfl

section Div

variable [Div F] [Zero F] [DecidableEq F]

theorem num_div_of_ne (x : F) {y : F} (hy : y ≠ 0) : num x / num y = num (x / y) :=
  if_neg hy

end Div

section Lt

variable [LT F] [DecidableLT F]

@[simp] theorem lt_num (x y : F) : lt (num x) (num y) = decide (x < y) := rfl
@[simp] theorem nan_lt (x : WithNaN F) : lt nan x = false := rfl

end Lt

end WithNaN

end VecCore.Foundation
