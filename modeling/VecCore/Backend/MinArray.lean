/-
  Backend/MinArray.lean --- the minimum of an array that may hold NaN.

  `Min(a, b)` is `b` unless `a < b`, so that a NaN replaces the minimum so far and is
  itself replaced by the next value.  `ReduceMin` passes over NaN.  An array is searched
  by taking `Min` of its tiles and then `ReduceMin`: what stands before a NaN in the same
  lane is forgotten.
-/
import VecCore.Backend.VecMath
import VecCore.Backend.Reduction
import VecCore.Foundation.TileMap
import VecCore.Foundation.NaN

set_option autoImplicit false

namespace VecCore

open VecCore.Foundation

variable {α : Type*} {V n : Nat}

/-! ## Values with NaN -/

instance [Zero α] : Zero (WithNaN α) := ⟨.num 0⟩

instance [LT α] [DecidableLT α] : LT (WithNaN α) := ⟨fun x y => WithNaN.lt x y = true⟩

instance [LT α] [DecidableLT α] : DecidableLT (WithNaN α) := fun x y =>
  inferInstanceAs (Decidable (WithNaN.lt x y = true))

/-! ## The search -/

section Search

variable [LT α] [DecidableLT α]

end Search

section Bounds

variable [LinearOrder α]

end Bounds

/-! ## Arrays -/

section Arrays

variable [LinearOrder α] (value : Nat → WithNaN α)

end Arrays

end VecCore
