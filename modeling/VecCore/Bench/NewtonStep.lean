/-
  Bench/NewtonStep.lean --- the iteration of bench/newton.cc and its tolerance
  discs.

  `newtonUpdate` is the body shared by `newton` and `newton_v`.  Over an exact
  field it is the Newton map of `z^4 - 1`.  The results of this module are that
  the four tolerance discs are disjoint and that each is mapped into itself, so
  that a point that has converged stays converged, to the same root.

  The estimate is made once, at the root 1; the update commutes with
  multiplication by `i`, which carries it to the other roots.
-/
import VecCore.Foundation.Numerals
import Mathlib.Algebra.Order.Field.Basic
import Mathlib.Algebra.Order.Ring.Abs
import Mathlib.Tactic.FieldSimp
import Mathlib.Tactic.Linarith
import Mathlib.Tactic.LinearCombination
import Mathlib.Tactic.NormNum
import Mathlib.Tactic.Positivity
import Mathlib.Tactic.Ring

set_option autoImplicit false

namespace VecCore.Bench

/-- The iteration body of `newton` and `newton_v`, for scalars and vectors.
`quarter` and `three` are the constants `T(0.25)` and `T(3)`. -/
def newtonUpdate {T : Type*} [Add T] [Sub T] [Mul T] [Div T] (quarter three re im : T) :
    T × T :=
  let re2 := re * re
  let re3 := re2 * re
  let re4 := re3 * re
  let re5 := re4 * re
  let re6 := re5 * re
  let re7 := re6 * re
  let im2 := im * im
  let im3 := im2 * im
  let im4 := im3 * im
  let im5 := im4 * im
  let im6 := im5 * im
  let im7 := im6 * im
  let coeff := quarter / ((re2 + im2) * (re2 + im2) * (re2 + im2))
  let x := three * re * im2 + re * im6 + re7 + three * re5 * im2 - re3 + three * re3 * im4
  let y := three * re2 * im + im7 + three * re2 * im5 - im3 + re6 * im + three * re4 * im3
  (re - x * coeff, im - y * coeff)

section Map

variable {F : Type*} [Field F]

/-- The update of a point over the exact field. -/
def newtonMap (z : F × F) : F × F := newtonUpdate (1 / 4) 3 z.1 z.2

/-- `re^2 + im^2`. -/
def normSq (z : F × F) : F := z.1 * z.1 + z.2 * z.2

/-- The squared distance that `is_equal` compares with its tolerance. -/
def distSq (z r : F × F) : F :=
  (z.1 - r.1) * (z.1 - r.1) + (z.2 - r.2) * (z.2 - r.2)

/-- Multiplication by `i`. -/
def mulI (z : F × F) : F × F := (-z.2, z.1)

theorem normSq_mulI (z : F × F) : normSq (mulI z) = normSq z := by
  simp only [normSq, mulI]
  ring

theorem distSq_mulI (z r : F × F) : distSq (mulI z) (mulI r) = distSq z r := by
  simp only [distSq, mulI]
  ring

/-- The update commutes with multiplication by `i`. -/
theorem newtonMap_mulI (z : F × F) : newtonMap (mulI z) = mulI (newtonMap z) := by
  have hden : -z.2 * -z.2 + z.1 * z.1 = z.1 * z.1 + z.2 * z.2 := by ring
  simp only [newtonMap, newtonUpdate, mulI, Prod.mk.injEq, hden]
  constructor <;> ring

/-- The polynomials `x` and `y` of the iteration body: real and imaginary part of
`|z|^6 z - conj(z)^3`. -/
def newtonX (z : F × F) : F := normSq z ^ 3 * z.1 - (z.1 ^ 3 - 3 * z.1 * z.2 ^ 2)

/-- See `newtonX`. -/
def newtonY (z : F × F) : F := normSq z ^ 3 * z.2 - (z.2 ^ 3 - 3 * z.1 ^ 2 * z.2)

theorem newtonMap_eq (z : F × F) :
    newtonMap z = (z.1 - newtonX z * (1 / 4 / normSq z ^ 3),
      z.2 - newtonY z * (1 / 4 / normSq z ^ 3)) := by
  have hden : (z.1 * z.1 + z.2 * z.2) * (z.1 * z.1 + z.2 * z.2) *
      (z.1 * z.1 + z.2 * z.2) = normSq z ^ 3 := by
    simp only [normSq]
    ring
  simp only [newtonMap, newtonUpdate, hden, Prod.mk.injEq]
  constructor
  · congr 2
    simp only [newtonX, normSq]
    ring
  · congr 2
    simp only [newtonY, normSq]
    ring

/-- One Newton step from `z` with `|z - 1|^2 = s` ends at squared distance
`s^2 |3z^2 + 2z + 1|^2 / (16 |z|^6)` from 1. -/
theorem distSq_newtonMap_one [CharZero F] {z : F × F} (hz : normSq z ≠ 0) :
    distSq (newtonMap z) (1, 0) * (16 * normSq z ^ 3) =
      distSq z (1, 0) ^ 2 *
        ((3 * (z.1 * z.1 - z.2 * z.2) + 2 * z.1 + 1) ^ 2 +
          (6 * z.1 * z.2 + 2 * z.2) ^ 2) := by
  -- `T = |z^4 - 1|^2`; then `x^2 + y^2 = |z|^6 T`.
  set T : F := (z.1 ^ 4 - 6 * z.1 ^ 2 * z.2 ^ 2 + z.2 ^ 4 - 1) ^ 2 +
    (4 * z.1 ^ 3 * z.2 - 4 * z.1 * z.2 ^ 3) ^ 2 with hT
  have hxy : newtonX z ^ 2 + newtonY z ^ 2 = normSq z ^ 3 * T := by
    simp only [newtonX, newtonY, normSq, hT]
    ring
  have hexpand : distSq z (1, 0) ^ 2 *
        ((3 * (z.1 * z.1 - z.2 * z.2) + 2 * z.1 + 1) ^ 2 +
          (6 * z.1 * z.2 + 2 * z.2) ^ 2) =
      16 * normSq z ^ 3 * distSq z (1, 0) -
        8 * ((z.1 - 1) * newtonX z + z.2 * newtonY z) + T := by
    simp only [newtonX, newtonY, normSq, distSq, hT]
    ring
  have hc : 4 * normSq z ^ 3 * (1 / 4 / normSq z ^ 3) = 1 := by
    field_simp
  rw [hexpand, newtonMap_eq]
  simp only [distSq]
  generalize 1 / 4 / normSq z ^ 3 = c at hc ⊢
  linear_combination (4 * c * (newtonX z ^ 2 + newtonY z ^ 2) -
    8 * ((z.1 - 1) * newtonX z + z.2 * newtonY z) + T) * hc + 4 * c * hxy

end Map

/-! ## The tolerance discs -/

section Discs

variable {F : Type*} [Field F] [LinearOrder F]

/-- The squared tolerance of `is_equal`. -/
def tol2 : F := 1 / 10000

/-- The disc around `p` avoids 0 and is mapped into itself. -/
def StableDisc (p : F × F) : Prop :=
  ∀ z, distSq z p < tol2 → normSq z ≠ 0 ∧ distSq (newtonMap z) p < tol2

/-- Stability is carried along by multiplication by `i`. -/
theorem StableDisc.mulI {p : F × F} (h : StableDisc p) : StableDisc (mulI p) := by
  intro z hz
  have hw : Bench.mulI (z.2, -z.1) = z := by simp [Bench.mulI]
  rw [← hw, distSq_mulI] at hz
  rw [← hw, normSq_mulI, newtonMap_mulI, distSq_mulI]
  exact h _ hz

variable [IsStrictOrderedRing F]

/-- A point within the tolerance of 1 has both coordinates within `1/100`. -/
theorem coords_of_near_one {z : F × F} (h : distSq z (1, 0) < tol2) :
    (99 / 100 < z.1 ∧ z.1 < 101 / 100) ∧ -(1 / 100) < z.2 ∧ z.2 < 1 / 100 := by
  have htol : (tol2 : F) = (1 / 100) ^ 2 := by norm_num [tol2]
  simp only [distSq, htol, sub_zero] at h
  have h1 : (z.1 - 1) ^ 2 < (1 / 100) ^ 2 := by
    rw [sq (z.1 - 1)]
    exact lt_of_le_of_lt (le_add_of_nonneg_right (mul_self_nonneg z.2)) h
  have h2 : z.2 ^ 2 < (1 / 100) ^ 2 := by
    rw [sq z.2]
    exact lt_of_le_of_lt (le_add_of_nonneg_left (mul_self_nonneg (z.1 - 1))) h
  have hre := abs_lt.mp (abs_lt_of_sq_lt_sq h1 (by norm_num))
  have him := abs_lt.mp (abs_lt_of_sq_lt_sq h2 (by norm_num))
  exact ⟨⟨by linarith [hre.1], by linarith [hre.2]⟩, him⟩

/-- On the tolerance disc of 1, `|z|^6 > 94/100`. -/
theorem normSq_cube_of_near_one {z : F × F} (h : distSq z (1, 0) < tol2) :
    94 / 100 < normSq z ^ 3 := by
  obtain ⟨⟨hre, -⟩, -⟩ := coords_of_near_one h
  have hR : 98 / 100 < normSq z := by
    calc (98 / 100 : F) < 99 / 100 * (99 / 100) := by norm_num
      _ ≤ z.1 * z.1 := mul_self_le_mul_self (by norm_num) hre.le
      _ ≤ normSq z := le_add_of_nonneg_right (mul_self_nonneg z.2)
  have hpow : (98 / 100) ^ 3 < normSq z ^ 3 :=
    pow_lt_pow_left₀ hR (by norm_num) three_ne_zero
  exact lt_trans (by norm_num) hpow

/-- On the tolerance disc of 1, `|3z^2 + 2z + 1|^2 < 39`. -/
theorem factor_of_near_one {z : F × F} (h : distSq z (1, 0) < tol2) :
    (3 * (z.1 * z.1 - z.2 * z.2) + 2 * z.1 + 1) ^ 2 +
      (6 * z.1 * z.2 + 2 * z.2) ^ 2 < 39 := by
  obtain ⟨⟨hre, hre'⟩, him, him'⟩ := coords_of_near_one h
  have hre2 : (99 / 100) * (99 / 100) ≤ z.1 * z.1 :=
    mul_self_le_mul_self (by norm_num) hre.le
  have hre2' : z.1 * z.1 ≤ (101 / 100) * (101 / 100) :=
    mul_self_le_mul_self (by linarith) hre'.le
  have him2 : z.2 * z.2 ≤ 1 / 1000 := by
    calc z.2 * z.2 = z.2 ^ 2 := (sq z.2).symm
      _ ≤ (1 / 100) ^ 2 := (sq_lt_sq' him him').le
      _ ≤ 1 / 1000 := by norm_num
  have him0 := mul_self_nonneg z.2
  have hp : (3 * (z.1 * z.1 - z.2 * z.2) + 2 * z.1 + 1) ^ 2 < (62 / 10) ^ 2 :=
    pow_lt_pow_left₀ (by linarith) (by linarith) two_ne_zero
  have hq : (6 * z.1 * z.2 + 2 * z.2) ^ 2 ≤ 1 / 1000 * 10 ^ 2 := by
    have hfac : (6 * z.1 + 2) ^ 2 ≤ 10 ^ 2 :=
      pow_le_pow_left₀ (by linarith) (by linarith) 2
    calc (6 * z.1 * z.2 + 2 * z.2) ^ 2 = z.2 * z.2 * (6 * z.1 + 2) ^ 2 := by ring
      _ ≤ 1 / 1000 * 10 ^ 2 := mul_le_mul him2 hfac (sq_nonneg _) (by norm_num)
  calc (3 * (z.1 * z.1 - z.2 * z.2) + 2 * z.1 + 1) ^ 2 + (6 * z.1 * z.2 + 2 * z.2) ^ 2
      < (62 / 10) ^ 2 + 1 / 1000 * 10 ^ 2 := add_lt_add_of_lt_of_le hp hq
    _ < 39 := by norm_num

/-- The tolerance disc of the root 1 avoids 0 and is mapped into itself. -/
theorem newtonMap_near_one {z : F × F} (h : distSq z (1, 0) < tol2) :
    normSq z ≠ 0 ∧ distSq (newtonMap z) (1, 0) < tol2 := by
  have hR := normSq_cube_of_near_one h
  have hne : normSq z ≠ 0 := by
    rintro h0
    norm_num [h0] at hR
  have hs : 0 ≤ distSq z (1, 0) :=
    add_nonneg (mul_self_nonneg _) (mul_self_nonneg _)
  refine ⟨hne, lt_of_mul_lt_mul_right (a := 16 * normSq z ^ 3) ?_ (by linarith)⟩
  calc distSq (newtonMap z) (1, 0) * (16 * normSq z ^ 3)
      = distSq z (1, 0) ^ 2 *
          ((3 * (z.1 * z.1 - z.2 * z.2) + 2 * z.1 + 1) ^ 2 +
            (6 * z.1 * z.2 + 2 * z.2) ^ 2) := distSq_newtonMap_one hne
    _ ≤ tol2 ^ 2 * 39 := mul_le_mul (pow_le_pow_left₀ hs h.le 2)
          (factor_of_near_one h).le (by positivity) (sq_nonneg _)
    _ < tol2 * (16 * (94 / 100)) := by norm_num [tol2]
    _ < tol2 * (16 * normSq z ^ 3) := by
          have htol : (0 : F) < tol2 := by norm_num [tol2]
          exact mul_lt_mul_of_pos_left (by linarith) htol

/-- The roots of `z^4 = 1`, in the order in which `converged` tests them. -/
inductive Root where
  | one
  | negOne
  | i
  | negI
  deriving DecidableEq

/-- The arguments `re2, im2` of the test for a root. -/
def Root.point : Root → F × F
  | .one => (1, 0)
  | .negOne => (-1, 0)
  | .i => (0, 1)
  | .negI => (0, -1)

/-- A point within the tolerance of a root stays there. -/
theorem stableDisc_root (r : Root) : StableDisc (r.point : F × F) := by
  have h1 : StableDisc ((1, 0) : F × F) := fun z => newtonMap_near_one
  have hi := h1.mulI
  have hneg := hi.mulI
  have hnegI := hneg.mulI
  simp only [mulI, neg_zero] at hi hneg hnegI
  cases r
  · exact h1
  · exact hneg
  · exact hi
  · exact hnegI

theorem distSq_le (z p q : F × F) : distSq p q ≤ 2 * (distSq z p + distSq z q) := by
  simp only [distSq]
  nlinarith [sq_nonneg (2 * z.1 - p.1 - q.1), sq_nonneg (2 * z.2 - p.2 - q.2)]

/-- No point is within the tolerance of two roots. -/
theorem root_unique {z : F × F} {r s : Root} (hr : distSq z r.point < tol2)
    (hs : distSq z s.point < tol2) : r = s := by
  by_contra hne
  have hsep : (2 : F) ≤ distSq (r.point : F × F) s.point := by
    cases r <;> cases s <;> first
      | exact absurd rfl hne
      | norm_num [distSq, Root.point]
  have hle := distSq_le z (r.point : F × F) s.point
  have htol : (tol2 : F) < 1 / 4 := by norm_num [tol2]
  linarith

end Discs

end VecCore.Bench
