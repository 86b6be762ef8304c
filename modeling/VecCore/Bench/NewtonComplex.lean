/-
  Bench/NewtonComplex.lean --- the iteration of bench/newton.cc in complex
  numbers.

  The body of both loops expands the Newton step of `z^4 - 1` by hand into two
  real polynomials of degree seven.  They are the real and the imaginary part of
  `|z|^6 z - conj(z)^3`, and dividing that by `4 |z|^6` is dividing `z^4 - 1` by
  `4 z^3`.

  Nothing here needs an order: the field has to have a quarter, and no square
  root of -1 of its own.
-/
import VecCore.Bench.Newton
import Mathlib.Algebra.QuadraticAlgebra.Basic

set_option autoImplicit false

namespace VecCore.Bench

open VecCore.Foundation
open VecCore.Foundation.WithNaN

/-! ## Complex numbers over a field -/

/-- The numbers `re + i * im` over a field. -/
abbrev Gauss (F : Type*) [Field F] := QuadraticAlgebra F (-1) 0

/-- The field has no square root of -1, so that complex numbers can be divided. -/
abbrev NoRootOfNegOne (F : Type*) [Field F] : Prop := Fact (∀ r : F, r ^ 2 ≠ -1 + 0 * r)

/-- An ordered field is such a field. -/
instance {F : Type*} [Field F] [LinearOrder F] [IsStrictOrderedRing F] : NoRootOfNegOne F where
  out := by
    intro r h
    have hsq := sq_nonneg r
    rw [h, zero_mul, add_zero] at hsq
    exact absurd hsq (not_le.mpr neg_one_lt_zero)

section Gauss

variable {F : Type*} [Field F]

/-- The complex number of a point. -/
def toGauss (z : F × F) : Gauss F := ⟨z.1, z.2⟩

/-- Complex conjugation of a point. -/
def conj (z : F × F) : F × F := (z.1, -z.2)

theorem toGauss_injective : Function.Injective (toGauss (F := F)) := by
  intro z w h
  exact Prod.ext (congrArg QuadraticAlgebra.re h) (congrArg QuadraticAlgebra.im h)

@[simp] theorem toGauss_re (z : F × F) : (toGauss z).re = z.1 := rfl

@[simp] theorem toGauss_im (z : F × F) : (toGauss z).im = z.2 := rfl

/-- `z * conj(z) = |z|^2`. -/
theorem toGauss_mul_conj (z : F × F) :
    toGauss z * toGauss (conj z) = algebraMap F (Gauss F) (normSq z) := by
  apply QuadraticAlgebra.ext
  · simp only [QuadraticAlgebra.re_mul, toGauss_re, toGauss_im, conj,
      QuadraticAlgebra.algebraMap_re, normSq]
    ring
  · simp only [QuadraticAlgebra.im_mul, toGauss_re, toGauss_im, conj,
      QuadraticAlgebra.algebraMap_im]
    ring

/-- The polynomials of the iteration body are those of `|z|^6 z - conj(z)^3`. -/
theorem toGauss_newtonX_newtonY (z : F × F) :
    toGauss (newtonX z, newtonY z) =
      algebraMap F (Gauss F) (normSq z) ^ 3 * toGauss z - toGauss (conj z) ^ 3 := by
  apply QuadraticAlgebra.ext
  · simp only [pow_succ, pow_zero, one_mul, QuadraticAlgebra.re_sub, QuadraticAlgebra.re_mul,
      QuadraticAlgebra.im_mul, toGauss_re, toGauss_im, conj, QuadraticAlgebra.algebraMap_re,
      QuadraticAlgebra.algebraMap_im, newtonX]
    ring
  · simp only [pow_succ, pow_zero, one_mul, QuadraticAlgebra.im_sub, QuadraticAlgebra.re_mul,
      QuadraticAlgebra.im_mul, toGauss_re, toGauss_im, conj, QuadraticAlgebra.algebraMap_re,
      QuadraticAlgebra.algebraMap_im, newtonY]
    ring

/-- The update subtracts a real multiple of them. -/
theorem toGauss_newtonMap (z : F × F) :
    toGauss (newtonMap z) =
      toGauss z - toGauss (newtonX z, newtonY z) *
        algebraMap F (Gauss F) (1 / 4 / normSq z ^ 3) := by
  rw [newtonMap_eq]
  apply QuadraticAlgebra.ext
  · simp only [QuadraticAlgebra.re_sub, QuadraticAlgebra.re_mul, toGauss_re, toGauss_im,
      QuadraticAlgebra.algebraMap_re, QuadraticAlgebra.algebraMap_im]
    ring
  · simp only [QuadraticAlgebra.im_sub, QuadraticAlgebra.im_mul, toGauss_re, toGauss_im,
      QuadraticAlgebra.algebraMap_re, QuadraticAlgebra.algebraMap_im]
    ring

/-- The update commutes with complex conjugation. -/
theorem newtonMap_conj (z : F × F) : newtonMap (conj z) = conj (newtonMap z) := by
  have hnorm : normSq (z.1, -z.2) = normSq z := by
    simp only [normSq]
    ring
  rw [newtonMap_eq, newtonMap_eq]
  simp only [conj, newtonX, newtonY, hnorm, Prod.mk.injEq]
  constructor <;> ring

/-- `i * z`. -/
theorem toGauss_mulI (z : F × F) : toGauss (mulI z) = toGauss (0, 1) * toGauss z := by
  apply QuadraticAlgebra.ext
  · simp only [QuadraticAlgebra.re_mul, toGauss_re, toGauss_im, mulI]
    ring
  · simp only [QuadraticAlgebra.im_mul, toGauss_re, toGauss_im, mulI]
    ring

end Gauss

/-! ## The Newton step -/

section Step

variable {F : Type*} [Field F]

theorem toGauss_ne_zero {z : F × F} (hz : z ≠ (0, 0)) : toGauss z ≠ 0 := by
  intro h
  exact hz (toGauss_injective h)

theorem conj_ne_zero {z : F × F} (hz : z ≠ (0, 0)) : conj z ≠ (0, 0) := by
  intro h
  have hre : z.1 = 0 := congrArg Prod.fst h
  have him : -z.2 = 0 := congrArg Prod.snd h
  exact hz (Prod.ext hre (neg_eq_zero.mp him))

variable [NoRootOfNegOne F]

theorem normSq_ne_zero {z : F × F} (hz : z ≠ (0, 0)) : normSq z ≠ 0 := by
  intro h
  have hmul := toGauss_mul_conj z
  rw [h, map_zero] at hmul
  exact mul_ne_zero (toGauss_ne_zero hz) (toGauss_ne_zero (conj_ne_zero hz)) hmul

variable (h2 : (2 : F) ≠ 0)

include h2

theorem four_ne_zero_gauss : (4 : Gauss F) ≠ 0 := by
  intro h
  have hre : (4 : F) = 0 := congrArg QuadraticAlgebra.re h
  have hsq : (2 : F) * 2 = 0 := by
    rw [← hre]
    norm_num
  exact mul_ne_zero h2 h2 hsq

/-- The update is the Newton step of `z^4 - 1`. -/
theorem newtonMap_eq_newton_step {z : F × F} (hz : z ≠ (0, 0)) :
    toGauss (newtonMap z) = toGauss z - (toGauss z ^ 4 - 1) / (4 * toGauss z ^ 3) := by
  have hN := normSq_ne_zero hz
  have h4F : (4 : F) ≠ 0 := by
    rw [show (4 : F) = 2 * 2 by norm_num]
    exact mul_ne_zero h2 h2
  have hden : 4 * toGauss z ^ 3 ≠ 0 :=
    mul_ne_zero (four_ne_zero_gauss h2) (pow_ne_zero 3 (toGauss_ne_zero hz))
  have hcoeff : algebraMap F (Gauss F) (1 / 4 / normSq z ^ 3) *
      (4 * algebraMap F (Gauss F) (normSq z) ^ 3) = 1 := by
    have hone : 1 / 4 / normSq z ^ 3 * (4 * normSq z ^ 3) = 1 := by
      field_simp
    have hmap := congrArg (algebraMap F (Gauss F)) hone
    simpa only [map_mul, map_pow, map_ofNat, map_one] using hmap
  rw [toGauss_newtonMap, toGauss_newtonX_newtonY]
  congr 1
  rw [eq_div_iff hden]
  -- `4 z^3 (|z|^6 z - conj(z)^3) = 4 |z|^6 (z^4 - 1)`.
  have hmul := toGauss_mul_conj z
  generalize algebraMap F (Gauss F) (1 / 4 / normSq z ^ 3) = c at hcoeff ⊢
  generalize algebraMap F (Gauss F) (normSq z) = N at hcoeff hmul ⊢
  have hcube : toGauss z ^ 3 * toGauss (conj z) ^ 3 = N ^ 3 := by
    rw [← mul_pow, hmul]
  calc (N ^ 3 * toGauss z - toGauss (conj z) ^ 3) * c * (4 * toGauss z ^ 3)
      = c * (4 * N ^ 3) * toGauss z ^ 4 -
          c * (4 * (toGauss z ^ 3 * toGauss (conj z) ^ 3)) := by ring
    _ = toGauss z ^ 4 - 1 := by rw [hcube, hcoeff, one_mul]

/-- Its fixed points are the fourth roots of one. -/
theorem newtonMap_eq_self_iff {z : F × F} (hz : z ≠ (0, 0)) :
    newtonMap z = z ↔ toGauss z ^ 4 = 1 := by
  have hden : 4 * toGauss z ^ 3 ≠ 0 :=
    mul_ne_zero (four_ne_zero_gauss h2) (pow_ne_zero 3 (toGauss_ne_zero hz))
  rw [← toGauss_injective.eq_iff, newtonMap_eq_newton_step h2 hz, sub_eq_self,
    div_eq_zero_iff, or_iff_left hden, sub_eq_zero]

omit h2 in
/-- The fourth roots of one are the four roots that `converged` tests for. -/
theorem toGauss_pow_four_eq_one_iff (z : F × F) :
    toGauss z ^ 4 = 1 ↔ ∃ r : Root, z = r.point := by
  have hfactor : toGauss z ^ 4 - 1 =
      (toGauss z - toGauss (1, 0)) * (toGauss z - toGauss (-1, 0)) *
        ((toGauss z - toGauss (0, 1)) * (toGauss z - toGauss (0, -1))) := by
    have hone : toGauss ((1 : F), 0) = 1 := rfl
    have hnegOne : toGauss ((-1 : F), 0) = -1 := by
      apply QuadraticAlgebra.ext
      · rfl
      · exact neg_zero.symm
    have hnegI : toGauss ((0 : F), -1) = -toGauss (0, 1) := by
      apply QuadraticAlgebra.ext
      · exact neg_zero.symm
      · rfl
    have hi : toGauss ((0 : F), 1) * toGauss (0, 1) = -1 := by
      rw [← toGauss_mulI, ← hnegOne]
      rfl
    rw [hone, hnegOne, hnegI]
    linear_combination (toGauss z ^ 2 - 1) * hi
  rw [← sub_eq_zero, hfactor, mul_eq_zero, mul_eq_zero, mul_eq_zero]
  simp only [sub_eq_zero, toGauss_injective.eq_iff]
  constructor
  · rintro ((h | h) | (h | h))
    · exact ⟨.one, h⟩
    · exact ⟨.negOne, h⟩
    · exact ⟨.i, h⟩
    · exact ⟨.negI, h⟩
  · rintro ⟨r, h⟩
    cases r with
    | one => exact .inl (.inl h)
    | negOne => exact .inl (.inr h)
    | i => exact .inr (.inl h)
    | negI => exact .inr (.inr h)

end Step

/-! ## The loop bodies -/

section Bodies

variable {F : Type} [Field F] [LinearOrder F] [NoRootOfNegOne F]

/-- Where it does not overflow, the body of `newton` leaves the update of the
point. -/
theorem newtonBody_point {s : NewtonState F} {z : F × F} (hz : z ≠ (0, 0))
    (hs : (s.re, s.im) = (num z.1, num z.2)) :
    (newtonBody s).map (fun t => (t.re, t.im)) =
      (IntTy.int.result (IntTy.int.narrow s.k * 10)).map fun _ =>
        (num (newtonMap z).1, num (newtonMap z).2) := by
  have hnext : newtonUpdate (num (1 / 4)) (num 3) s.re s.im =
      (num (newtonMap z).1, num (newtonMap z).2) := by
    rw [← newtonPoint_num (normSq_ne_zero hz), ← hs]
    rfl
  simp only [newtonBody, hnext, converged]
  cases IntTy.int.result (IntTy.int.narrow s.k * 10) with
  | none => rfl
  | some product =>
    simp only [Option.bind_eq_bind, Option.bind_some, Option.map_some]
    split
    · rfl
    split
    · rfl
    split
    · rfl
    split <;> rfl

/-- The body of `newton_v` leaves the update of the point of every lane. -/
theorem newtonVBody_point {V : Nat} {s : NewtonVState V F} {i : Fin V} {z : F × F}
    (hz : z ≠ (0, 0)) (hs : (s.re i, s.im i) = (num z.1, num z.2)) :
    ((newtonVBody s).re i, (newtonVBody s).im i) =
      (num (newtonMap z).1, num (newtonMap z).2) := by
  rw [← newtonPoint_num (normSq_ne_zero hz), ← hs]
  rfl

/-- Started at the point `z`, the body of `newton` (where `iters * 10` does not
overflow) and every lane of the body of `newton_v` leave the point `w`. -/
def BodiesLeave (z w : F × F) : Prop :=
  (∀ s : NewtonState F, (s.re, s.im) = (num z.1, num z.2) →
    (newtonBody s).map (fun t => (t.re, t.im)) =
      (IntTy.int.result (IntTy.int.narrow s.k * 10)).map fun _ => (num w.1, num w.2)) ∧
    ∀ (V : Nat) (s : NewtonVState V F) (i : Fin V), (s.re i, s.im i) = (num z.1, num z.2) →
      ((newtonVBody s).re i, (newtonVBody s).im i) = (num w.1, num w.2)

theorem bodiesLeave_newtonMap {z : F × F} (hz : z ≠ (0, 0)) : BodiesLeave z (newtonMap z) :=
  ⟨fun _ hs => newtonBody_point hz hs, fun _ _ _ hs => newtonVBody_point hz hs⟩

/-- Both loop bodies make the Newton step of `z^4 - 1`, which stays at the four
roots only and commutes with conjugation and with multiplication by `i`. -/
theorem newton_bodies_make_newton_step (h2 : (2 : F) ≠ 0) {z : F × F} (hz : z ≠ (0, 0)) :
    ∃ w : F × F,
      toGauss w = toGauss z - (toGauss z ^ 4 - 1) / (4 * toGauss z ^ 3) ∧
      ((w = z ↔ toGauss z ^ 4 = 1) ∧ (w = z ↔ ∃ r : Root, z = r.point)) ∧
      BodiesLeave z w ∧ BodiesLeave (conj z) (conj w) ∧ BodiesLeave (mulI z) (mulI w) := by
  have hmulI : mulI z ≠ (0, 0) := by
    intro h
    have him : -z.2 = 0 := congrArg Prod.fst h
    have hre : z.1 = 0 := congrArg Prod.snd h
    exact hz (Prod.ext hre (neg_eq_zero.mp him))
  have hfixed := newtonMap_eq_self_iff h2 hz
  refine ⟨newtonMap z, newtonMap_eq_newton_step h2 hz,
    ⟨hfixed, hfixed.trans (toGauss_pow_four_eq_one_iff z)⟩, bodiesLeave_newtonMap hz, ?_, ?_⟩
  · rw [← newtonMap_conj]
    exact bodiesLeave_newtonMap (conj_ne_zero hz)
  · rw [← newtonMap_mulI]
    exact bodiesLeave_newtonMap hmulI

/-- The point `1 + i` over the rationals. -/
theorem newton_bodies_make_newton_step_rat :
    ∃ w : Rat × Rat,
      toGauss w = toGauss (1, 1) - (toGauss (1, 1) ^ 4 - 1) / (4 * toGauss (1, 1) ^ 3) ∧
      ((w = (1, 1) ↔ toGauss ((1 : Rat), 1) ^ 4 = 1) ∧
        (w = (1, 1) ↔ ∃ r : Root, ((1, 1) : Rat × Rat) = r.point)) ∧
      BodiesLeave (1, 1) w ∧ BodiesLeave (conj (1, 1)) (conj w) ∧
        BodiesLeave (mulI (1, 1)) (mulI w) :=
  newton_bodies_make_newton_step two_ne_zero (by decide)

end Bodies

end VecCore.Bench
