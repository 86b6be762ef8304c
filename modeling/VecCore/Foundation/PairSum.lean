/-
  Foundation/PairSum.lean --- sums that nested loops accumulate.

  A loop over all bodies inside a loop over all bodies visits every ordered pair
  of them, the equal ones included.  When the two visits to a pair contribute the
  same and equal ones contribute nothing, the total is twice the sum over the
  unordered pairs.
-/
import Mathlib.Algebra.BigOperators.Intervals
import Mathlib.Algebra.Order.BigOperators.Group.Finset
import Mathlib.Tactic.Abel

set_option autoImplicit false

namespace VecCore.Foundation

/-- What a loop accumulates in one component of its state. -/
theorem foldl_range_eq_add_sum {σ M : Type*} [AddCommMonoid M] (view : σ → M)
    (body : σ → Nat → σ) (f : Nat → M) (hbody : ∀ s j, view (body s j) = view s + f j)
    (n : Nat) (s : σ) :
    view ((List.range n).foldl body s) = view s + ∑ j ∈ Finset.range n, f j := by
  induction n with
  | zero => simp
  | succ n ih =>
    rw [List.range_succ, List.foldl_append, Finset.sum_range_succ, ← add_assoc, ← ih]
    exact hbody _ n

section Pairs

variable {M : Type*} [AddCommMonoid M]

/-- Every ordered pair is an unordered pair in one of its two orders, or two equal
indices. -/
theorem sum_ordered_pairs (w : Nat → Nat → M) (n : Nat) :
    ∑ i ∈ Finset.range n, ∑ j ∈ Finset.range n, w i j =
      ∑ i ∈ Finset.range n, (∑ j ∈ Finset.range i, (w i j + w j i) + w i i) := by
  induction n with
  | zero => rfl
  | succ n ih =>
    -- row and column `n` are new, and share the pair `(n, n)`
    calc ∑ i ∈ Finset.range (n + 1), ∑ j ∈ Finset.range (n + 1), w i j
        = ∑ i ∈ Finset.range n, (∑ j ∈ Finset.range n, w i j + w i n) +
            (∑ j ∈ Finset.range n, w n j + w n n) := by
          simp only [Finset.sum_range_succ]
      _ = ∑ i ∈ Finset.range n, ∑ j ∈ Finset.range n, w i j +
            (∑ j ∈ Finset.range n, (w n j + w j n) + w n n) := by
          simp only [Finset.sum_add_distrib]
          abel
      _ = ∑ i ∈ Finset.range (n + 1), (∑ j ∈ Finset.range i, (w i j + w j i) + w i i) := by
          rw [ih, Finset.sum_range_succ]

/-- Visits that contribute the same count twice. -/
theorem sum_pairs_symm {w : Nat → Nat → M} (hsymm : ∀ i j, w i j = w j i)
    (hdiag : ∀ i, w i i = 0) (n : Nat) :
    ∑ i ∈ Finset.range n, ∑ j ∈ Finset.range n, w i j =
      2 • ∑ i ∈ Finset.range n, ∑ j ∈ Finset.range i, w i j := by
  rw [sum_ordered_pairs, ← Finset.sum_nsmul]
  apply Finset.sum_congr rfl
  intro i _
  rw [hdiag, add_zero, ← Finset.sum_nsmul]
  apply Finset.sum_congr rfl
  intro j _
  rw [← hsymm i j, two_nsmul]

/-- Contributions that are not negative add up to nothing only if there are none. -/
theorem sum_pairs_eq_zero_iff [PartialOrder M] [IsOrderedAddMonoid M] {w : Nat → Nat → M}
    {n : Nat} (hw : ∀ i j, j < i → i < n → 0 ≤ w i j) :
    ∑ i ∈ Finset.range n, ∑ j ∈ Finset.range i, w i j = 0 ↔
      ∀ i j, j < i → i < n → w i j = 0 := by
  have hrow : ∀ i ∈ Finset.range n, 0 ≤ ∑ j ∈ Finset.range i, w i j := by
    intro i hi
    exact Finset.sum_nonneg fun j hj =>
      hw i j (Finset.mem_range.mp hj) (Finset.mem_range.mp hi)
  rw [Finset.sum_eq_zero_iff_of_nonneg hrow]
  constructor
  · intro h i j hj hi
    have hzero := h i (Finset.mem_range.mpr hi)
    rw [Finset.sum_eq_zero_iff_of_nonneg fun j hj => hw i j (Finset.mem_range.mp hj) hi] at hzero
    exact hzero j (Finset.mem_range.mpr hj)
  · intro h i hi
    exact Finset.sum_eq_zero fun j hj =>
      h i j (Finset.mem_range.mp hj) (Finset.mem_range.mp hi)

end Pairs

end VecCore.Foundation
