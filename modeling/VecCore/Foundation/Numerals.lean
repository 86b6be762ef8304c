/-
  Foundation/Numerals.lean --- the numerals of the modelled programs.

  A numeral of a field rests on a proof that it is at least two.  A definition refers
  to an instance that is a constant by its name, but copies one that is computed;
  the numerals that several modules use are therefore constants.
-/
import Mathlib.Data.Nat.Cast.Defs

set_option autoImplicit false

namespace VecCore.Foundation

/-- All numerals from two on. -/
theorem atLeastTwo (n : Nat) : Nat.AtLeastTwo (n + 2) := ⟨Nat.le_add_left 2 n⟩

instance two_atLeastTwo : Nat.AtLeastTwo 2 := atLeastTwo 0

instance three_atLeastTwo : Nat.AtLeastTwo 3 := atLeastTwo 1

instance four_atLeastTwo : Nat.AtLeastTwo 4 := atLeastTwo 2

instance seven_atLeastTwo : Nat.AtLeastTwo 7 := atLeastTwo 5

instance ten_atLeastTwo : Nat.AtLeastTwo 10 := atLeastTwo 8

instance hundred_atLeastTwo : Nat.AtLeastTwo 100 := atLeastTwo 98

instance tenThousand_atLeastTwo : Nat.AtLeastTwo 10000 := atLeastTwo 9998

end VecCore.Foundation
