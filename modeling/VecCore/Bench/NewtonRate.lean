/-
  Bench/NewtonRate.lean --- what newton_v gains by not stopping.

  A lane that has converged goes on stepping until its whole tile has.  From the
  tolerance disc on, three times the squared distance to the root is at least
  squared by every iteration.
-/
import VecCore.Bench.NewtonConverged

set_option autoImplicit false

namespace VecCore.Bench

open VecCore.Foundation
open VecCore.Foundation.WithNaN

/-- An error that every step of an orbit squares. -/
theorem iterate_le_pow {α K : Type*} [Semiring K] [PartialOrder K] [IsOrderedRing K] {f : α → α}
    {P : α → Prop} {e : α → K} (hnonneg : ∀ z, 0 ≤ e z)
    (hstep : ∀ z, P z → P (f z) ∧ e (f z) ≤ e z ^ 2) {z : α} (hz : P z) (n : Nat) :
    P (f^[n] z) ∧ e (f^[n] z) ≤ e z ^ 2 ^ n := by
  induction n with
  | zero => exact ⟨hz, (pow_one (e z)).ge⟩
  | succ n ih =>
    rw [Function.iterate_succ_apply']
    obtain ⟨hP, hle⟩ := hstep _ ih.1
    refine ⟨hP, hle.trans ?_⟩
    calc e (f^[n] z) ^ 2 ≤ (e z ^ 2 ^ n) ^ 2 := pow_le_pow_left₀ (hnonneg _) ih.2 2
      _ = e z ^ 2 ^ (n + 1) := by rw [← pow_mul, ← pow_succ]

section Step

variable {F : Type*} [Field F] [LinearOrder F] [IsStrictOrderedRing F]

theorem distSq_nonneg (z r : F × F) : 0 ≤ distSq z r :=
  add_nonneg (mul_self_nonneg _) (mul_self_nonneg _)

/-- The disc around `p`, with the step it gains. -/
def SquaresError (p : F × F) : Prop :=
  ∀ z, distSq z p < tol2 → 3 * distSq (newtonMap z) p ≤ (3 * distSq z p) ^ 2

/-- The disc around the root 1. -/
theorem squaresError_one : SquaresError ((1, 0) : F × F) := by
  intro z h
  have hR := normSq_cube_of_near_one h
  have hne := (newtonMap_near_one h).1
  have hcube : distSq (newtonMap z) (1, 0) * 15 ≤ distSq z (1, 0) ^ 2 * 39 := by
    calc distSq (newtonMap z) (1, 0) * 15
        ≤ distSq (newtonMap z) (1, 0) * (16 * normSq z ^ 3) :=
          mul_le_mul_of_nonneg_left (by linarith) (distSq_nonneg _ _)
      _ = distSq z (1, 0) ^ 2 * ((3 * (z.1 * z.1 - z.2 * z.2) + 2 * z.1 + 1) ^ 2 +
            (6 * z.1 * z.2 + 2 * z.2) ^ 2) := distSq_newtonMap_one hne
      _ ≤ distSq z (1, 0) ^ 2 * 39 :=
          mul_le_mul_of_nonneg_left (factor_of_near_one h).le (sq_nonneg _)
  have hsq := sq_nonneg (distSq z (1, 0))
  rw [mul_pow]
  linarith

omit [IsStrictOrderedRing F] in
/-- It is carried along by multiplication by `i`. -/
theorem SquaresError.mulI {p : F × F} (h : SquaresError p) : SquaresError (mulI p) := by
  intro z hz
  have hw : Bench.mulI (z.2, -z.1) = z := by simp [Bench.mulI]
  rw [← hw, distSq_mulI] at hz
  rw [← hw, newtonMap_mulI, distSq_mulI, distSq_mulI]
  exact h _ hz

theorem squaresError_root (r : Root) : SquaresError (r.point : F × F) := by
  have h1 : SquaresError ((1, 0) : F × F) := squaresError_one
  have hi := h1.mulI
  have hneg := hi.mulI
  have hnegI := hneg.mulI
  simp only [mulI, neg_zero] at hi hneg hnegI
  cases r with
  | one => exact h1
  | negOne => exact hneg
  | i => exact hi
  | negI => exact hnegI

/-- The error of all later iterates of a point in a tolerance disc. -/
theorem newtonMap_iterate_le {z : F × F} {r : Root} (h : distSq z r.point < tol2) (n : Nat) :
    distSq (newtonMap^[n] z) r.point < tol2 ∧
      3 * distSq (newtonMap^[n] z) r.point ≤ (3 * tol2) ^ 2 ^ n := by
  have hnonneg : ∀ w : F × F, 0 ≤ 3 * distSq w r.point := fun w =>
    mul_nonneg zero_le_three (distSq_nonneg w _)
  obtain ⟨hdisc, hle⟩ := iterate_le_pow hnonneg
    (fun w hw => ⟨(stableDisc_root r w hw).2, squaresError_root r w hw⟩) h n
  exact ⟨hdisc, hle.trans (pow_le_pow_left₀ (hnonneg z)
    (mul_le_mul_of_nonneg_left h.le zero_le_three) _)⟩

end Step

section Lanes

variable {F : Type} {V : Nat} [Field F] [LinearOrder F]

/-- The bodies of `newton_v` iterate the update in every lane. -/
theorem newtonVBody_iterate_point (s : NewtonVState V F) (i : Fin V) (n : Nat) :
    ((newtonVBody^[n] s).re i, (newtonVBody^[n] s).im i) = newtonPoint^[n] (s.re i, s.im i) := by
  induction n with
  | zero => rfl
  | succ n ih =>
    rw [Function.iterate_succ_apply', Function.iterate_succ_apply', ← ih]
    rfl

variable [IsStrictOrderedRing F]

/-- The iterates of a point in a tolerance disc are numbers. -/
theorem newtonPoint_iterate_num {p : F × F} {r : Root} (h : distSq p r.point < tol2) (n : Nat) :
    newtonPoint^[n] (num p.1, num p.2) =
      (num (newtonMap^[n] p).1, num (newtonMap^[n] p).2) := by
  induction n with
  | zero => rfl
  | succ n ih =>
    rw [Function.iterate_succ_apply', Function.iterate_succ_apply', ih,
      newtonPoint_num (stableDisc_root r _ (newtonMap_iterate_le h n).1).1]

/-- Once the mask of a lane is set, every further body of `newton_v` keeps its colour and at
least squares three times its squared distance to the root of that colour. -/
theorem newtonVBody_rate {s : NewtonVState V F} {i : Fin V} (h : (newtonVBody s).m i = true) :
    ∃ (r : Root) (p : Nat → F × F), ∀ n,
      (newtonVBody^[n] (newtonVBody s)).colorIndex i = r.colorIndex ∧
      ((newtonVBody^[n] (newtonVBody s)).re i, (newtonVBody^[n] (newtonVBody s)).im i) =
        (num (p n).1, num (p n).2) ∧
      3 * distSq (p (n + 1)) r.point ≤ (3 * distSq (p n) r.point) ^ 2 ∧
      3 * distSq (p n) r.point ≤ (3 / 10000) ^ 2 ^ n := by
  obtain ⟨r, hlane⟩ := laneAt_of_mask h
  obtain ⟨p, hp, hdisc⟩ := atRoot_eq_true_iff.mp (rootAt_eq_some_iff.mp hlane.root)
  refine ⟨r, fun n => newtonMap^[n] p, fun n => ⟨?_, ?_, ?_, ?_⟩⟩
  · rw [(newtonVBody_iterate h n).2.1, hlane.colorIndex]
  · rw [newtonVBody_iterate_point, hp, newtonPoint_iterate_num hdisc]
  · beta_reduce
    rw [Function.iterate_succ_apply']
    exact squaresError_root r _ (newtonMap_iterate_le hdisc n).1
  · have hle := (newtonMap_iterate_le hdisc n).2
    rwa [tol2, mul_one_div] at hle

end Lanes

/-- A lane near the root 1, and one away from all roots. -/
def nearAndAway : NewtonVState 2 ℚ :=
  ⟨fun k => if k = 0 then num (21 / 20) else num 3, fun _ => num 0, splat 0, splat 0, splat 0,
    splat false, 0⟩

/-- The first lane converges with the first body. -/
theorem newtonVBody_rate_lane :
    ∃ (r : Root) (p : Nat → ℚ × ℚ), ∀ n,
      (newtonVBody^[n] (newtonVBody nearAndAway)).colorIndex 0 = r.colorIndex ∧
      ((newtonVBody^[n] (newtonVBody nearAndAway)).re 0,
          (newtonVBody^[n] (newtonVBody nearAndAway)).im 0) = (num (p n).1, num (p n).2) ∧
      3 * distSq (p (n + 1)) r.point ≤ (3 * distSq (p n) r.point) ^ 2 ∧
      3 * distSq (p n) r.point ≤ (3 / 10000) ^ 2 ^ n :=
  newtonVBody_rate (by decide +kernel)

end VecCore.Bench
