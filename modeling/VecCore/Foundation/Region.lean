/-
  Foundation/Region.lean --- arrays with checked access.

  A subscript is an integer; outside the array it is undefined behaviour, which
  is `none`.
-/
import Mathlib.Logic.Function.Basic
import Mathlib.Tactic.Common

set_option autoImplicit false

namespace VecCore.Foundation

variable {α : Type*}

/-- An array of `size` cells. -/
structure Region (α : Type*) where
  size : Nat
  cell : Nat → α

namespace Region

/-- `r[a]` as a value. -/
def read (r : Region α) (a : Int) : Option α :=
  if 0 ≤ a ∧ a < r.size then some (r.cell a.toNat) else none

/-- `r[a] = x`. -/
def write (r : Region α) (a : Int) (x : α) : Option (Region α) :=
  if 0 ≤ a ∧ a < r.size then some { r with cell := Function.update r.cell a.toNat x }
  else none

theorem read_of_lt {r : Region α} {p : Nat} (h : p < r.size) :
    r.read p = some (r.cell p) := by
  rw [read, if_pos ⟨Int.natCast_nonneg p, Int.ofNat_lt.mpr h⟩, Int.toNat_natCast]

theorem write_of_lt {r : Region α} {p : Nat} (h : p < r.size) (x : α) :
    r.write p x = some { r with cell := Function.update r.cell p x } := by
  rw [write, if_pos ⟨Int.natCast_nonneg p, Int.ofNat_lt.mpr h⟩, Int.toNat_natCast]

end Region

end VecCore.Foundation
