/-
  Bench/QuadraticRoots.lean --- what QuadSolve of bench/quadratic.cc computes,
  with exact arithmetic.

  `QuadSolve` computes the root that does not cancel and obtains the other one
  from it through `c / (a * x)`.  Here every division is checked, so that a
  result is also a proof that no divisor was zero, and `Sqrt` is any function
  with the property of a square root.
-/
import VecCore.Bench.Quadratic
import Mathlib.Algebra.QuadraticDiscriminant
import Mathlib.Tactic.LinearCombination

set_option autoImplicit false

namespace VecCore.Bench

open VecCore.Foundation

variable {F : Type*} [Field F] [LinearOrder F]

/-! ## QuadSolve with checked divisions -/

/-- A division that fails on a zero divisor. -/
def checkedDiv (x y : F) : Option F := if y = 0 then none else some (x / y)

theorem checkedDiv_of_ne (x : F) {y : F} (hy : y ≠ 0) : checkedDiv x y = some (x / y) :=
  if_neg hy

theorem eq_div_of_checkedDiv {x y z : F} (h : checkedDiv x y = some z) : z = x / y := by
  unfold checkedDiv at h
  split at h
  · exact absurd h (by simp)
  · exact (Option.some.inj h).symm

/-- `QuadSolve`, with its divisions checked. -/
def checkedQuadSolve (T : FloatType) (sqrt : F → F) (a b c x1 x2 : F) : Option (Roots F) :=
  let delta := discriminant a b c
  if delta < 0 then some { roots := 0, x1, x2 }
  else if delta < T.epsilon then do
    let x ← checkedDiv (-(1 / 2) * b) a
    some { roots := 1, x1 := x, x2 := x }
  else if b ≥ 0 then do
    let x1 ← checkedDiv (-(1 / 2) * (b + sqrt delta)) a
    let x2 ← checkedDiv c (a * x1)
    some { roots := 2, x1, x2 }
  else do
    let x2 ← checkedDiv (-(1 / 2) * (b - sqrt delta)) a
    let x1 ← checkedDiv c (a * x2)
    some { roots := 2, x1, x2 }

/-- Where no division fails, this is `QuadSolve`. -/
theorem eq_quadSolve_of_checked {T : FloatType} {sqrt : F → F} {a b c x1 x2 : F} {r : Roots F}
    (h : checkedQuadSolve T sqrt a b c x1 x2 = some r) : quadSolve T sqrt a b c x1 x2 = r := by
  unfold checkedQuadSolve at h
  unfold quadSolve
  dsimp only at h ⊢
  split at h
  · rename_i h0
    rw [if_pos h0]
    exact Option.some.inj h
  rename_i h0
  rw [if_neg h0]
  split at h
  · rename_i h2
    obtain ⟨x, hx, hr⟩ := Option.bind_eq_some_iff.mp h
    rw [if_pos h2, ← eq_div_of_checkedDiv hx]
    exact Option.some.inj hr
  rename_i h2
  rw [if_neg h2]
  split at h
  · rename_i hb
    obtain ⟨y1, hy1, h⟩ := Option.bind_eq_some_iff.mp h
    obtain ⟨y2, hy2, hr⟩ := Option.bind_eq_some_iff.mp h
    rw [if_pos hb, ← eq_div_of_checkedDiv hy1, ← eq_div_of_checkedDiv hy2]
    exact Option.some.inj hr
  · rename_i hb
    obtain ⟨y2, hy2, h⟩ := Option.bind_eq_some_iff.mp h
    obtain ⟨y1, hy1, hr⟩ := Option.bind_eq_some_iff.mp h
    rw [if_neg hb, ← eq_div_of_checkedDiv hy2, ← eq_div_of_checkedDiv hy1]
    exact Option.some.inj hr

/-! ## The equation -/

/-- `a*x*x + b*x + c`. -/
def quadratic (a b c x : F) : F := a * x * x + b * x + c

/-- The root that subtracts the square root `s` of the discriminant. -/
def lowerRoot (a b s : F) : F := (-b - s) / (2 * a)

/-- The root that adds it. -/
def upperRoot (a b s : F) : F := (-b + s) / (2 * a)

/-- What a call of `QuadSolve` is for. -/
structure SolvesQuadratic (T : FloatType) (sqrt : F → F) (a b c x1 x2 : F) (r : Roots F) :
    Prop where
  /-- No roots are returned exactly for a negative discriminant. -/
  none_iff : r.roots = 0 ↔ discriminant a b c < 0
  /-- Two roots are returned exactly from `Epsilon` on. -/
  two_iff : r.roots = 2 ↔ T.epsilon ≤ discriminant a b c
  /-- No roots: there are none, and the outputs are untouched. -/
  none : discriminant a b c < 0 → (∀ x, quadratic a b c x ≠ 0) ∧ r.x1 = x1 ∧ r.x2 = x2
  /-- Two roots: they are returned in one order, whatever the sign of `b`. -/
  two : T.epsilon ≤ discriminant a b c →
    (r.x1 = lowerRoot a b (sqrt (discriminant a b c)) ∧
      r.x2 = upperRoot a b (sqrt (discriminant a b c))) ∧
      quadratic a b c r.x1 = 0 ∧ quadratic a b c r.x2 = 0
  /-- Otherwise one number is returned, with a small residual. -/
  one : ¬ discriminant a b c < 0 → ¬ T.epsilon ≤ discriminant a b c →
    r.roots = 1 ∧ r.x1 = r.x2 ∧ |4 * a * quadratic a b c r.x1| < T.epsilon

section Equation

omit [LinearOrder F]

theorem discriminant_eq_discrim (a b c : F) : discriminant a b c = discrim a b c := by
  unfold discriminant discrim
  ring

theorem quadratic_eq (a b c x : F) : quadratic a b c x = a * (x * x) + b * x + c := by
  unfold quadratic
  ring

variable [CharZero F] {a b c s : F} (ha : a ≠ 0)

include ha

theorem mul_lowerRoot : a * lowerRoot a b s = -(1 / 2) * (b + s) := by
  unfold lowerRoot
  field_simp
  ring

theorem mul_upperRoot : a * upperRoot a b s = -(1 / 2) * (b - s) := by
  unfold upperRoot
  field_simp
  ring

/-- Vieta's relation. -/
theorem mul_lowerRoot_mul_upperRoot (hs : s * s = discriminant a b c) :
    a * lowerRoot a b s * upperRoot a b s = c := by
  apply mul_left_cancel₀ ha
  calc a * (a * lowerRoot a b s * upperRoot a b s)
      = a * lowerRoot a b s * (a * upperRoot a b s) := by ring
    _ = (b * b - s * s) / 4 := by
          rw [mul_lowerRoot ha, mul_upperRoot ha]
          ring
    _ = a * c := by
          rw [hs, discriminant]
          ring

theorem quadratic_lowerRoot (hs : s * s = discriminant a b c) :
    quadratic a b c (lowerRoot a b s) = 0 := by
  rw [quadratic_eq]
  rw [discriminant_eq_discrim] at hs
  exact (quadratic_eq_zero_iff ha hs.symm _).mpr (.inr rfl)

theorem quadratic_upperRoot (hs : s * s = discriminant a b c) :
    quadratic a b c (upperRoot a b s) = 0 := by
  rw [quadratic_eq]
  rw [discriminant_eq_discrim] at hs
  exact (quadratic_eq_zero_iff ha hs.symm _).mpr (.inl rfl)

/-- The residual of the vertex. -/
theorem mul_quadratic_vertex :
    4 * a * quadratic a b c (-(1 / 2) * b / a) = -discriminant a b c := by
  unfold quadratic discriminant
  field_simp
  ring

end Equation

/-- A negative discriminant is not a square. -/
theorem quadratic_ne_zero_of_discriminant_neg [IsStrictOrderedRing F] {a b c : F}
    (h : discriminant a b c < 0) (x : F) : quadratic a b c x ≠ 0 := by
  rw [quadratic_eq]
  apply quadratic_ne_zero_of_discrim_ne_sq
  intro s hs
  rw [discriminant_eq_discrim, hs] at h
  exact absurd h (not_lt.mpr (sq_nonneg s))

/-! ## The three results -/

section Results

variable (T : FloatType) {sqrt : F → F} {a b c : F} (x1 x2 : F)

/-- A negative discriminant. -/
theorem checkedQuadSolve_of_neg (h0 : discriminant a b c < 0) :
    checkedQuadSolve T sqrt a b c x1 x2 = some { roots := 0, x1, x2 } := if_pos h0

variable (ha : a ≠ 0)

include ha

/-- A discriminant below `Epsilon`. -/
theorem checkedQuadSolve_of_lt (h0 : ¬ discriminant a b c < 0)
    (h2 : discriminant a b c < T.epsilon) :
    checkedQuadSolve T sqrt a b c x1 x2 =
      some { roots := 1, x1 := -(1 / 2) * b / a, x2 := -(1 / 2) * b / a } := by
  unfold checkedQuadSolve
  simp only [if_neg h0, if_pos h2, checkedDiv_of_ne _ ha]
  rfl

variable [IsStrictOrderedRing F]

/-- A discriminant from `Epsilon` on: the divisor `a * x` of the second division is
not zero, because `b` and the square root do not cancel in it. -/
theorem checkedQuadSolve_of_le
    (hsqrt : ∀ d, 0 ≤ d → 0 ≤ sqrt d ∧ sqrt d * sqrt d = d)
    (h2 : T.epsilon ≤ discriminant a b c) :
    checkedQuadSolve T sqrt a b c x1 x2 =
      some { roots := 2
             x1 := lowerRoot a b (sqrt (discriminant a b c))
             x2 := upperRoot a b (sqrt (discriminant a b c)) } := by
  have hD : 0 < discriminant a b c := lt_of_lt_of_le T.epsilon_pos h2
  obtain ⟨hnonneg, hs⟩ := hsqrt _ hD.le
  unfold checkedQuadSolve
  simp only [if_neg (not_lt.mpr hD.le), if_neg (not_lt.mpr h2)]
  generalize sqrt (discriminant a b c) = s at hnonneg hs ⊢
  have hpos : 0 < s := by
    apply lt_of_le_of_ne hnonneg
    rintro rfl
    rw [zero_mul] at hs
    exact hD.ne hs
  have hvieta := mul_lowerRoot_mul_upperRoot ha hs
  split
  · rename_i hb
    have hne : a * lowerRoot a b s ≠ 0 := by
      rw [mul_lowerRoot ha]
      have hsum : 0 < b + s := add_pos_of_nonneg_of_pos hb hpos
      exact mul_ne_zero (by norm_num) hsum.ne'
    have hlower : -(1 / 2) * (b + s) / a = lowerRoot a b s := by
      rw [← mul_lowerRoot ha, mul_div_cancel_left₀ _ ha]
    have hupper : c / (a * lowerRoot a b s) = upperRoot a b s := by
      rw [div_eq_iff hne, mul_comm, hvieta]
    simp only [checkedDiv_of_ne _ ha, hlower, checkedDiv_of_ne _ hne, hupper,
      Option.bind_eq_bind, Option.bind_some]
  · rename_i hb
    have hne : a * upperRoot a b s ≠ 0 := by
      rw [mul_upperRoot ha]
      have hsum : b - s < 0 := by linarith
      exact mul_ne_zero (by norm_num) hsum.ne
    have hupper : -(1 / 2) * (b - s) / a = upperRoot a b s := by
      rw [← mul_upperRoot ha, mul_div_cancel_left₀ _ ha]
    have hlower : c / (a * upperRoot a b s) = lowerRoot a b s := by
      rw [div_eq_iff hne, ← hvieta]
      ring
    simp only [checkedDiv_of_ne _ ha, hupper, checkedDiv_of_ne _ hne, hlower,
      Option.bind_eq_bind, Option.bind_some]

/-- No division fails, and the result solves the equation. -/
theorem checkedQuadSolve_solves (hsqrt : ∀ d, 0 ≤ d → 0 ≤ sqrt d ∧ sqrt d * sqrt d = d) :
    ∃ r, checkedQuadSolve T sqrt a b c x1 x2 = some r ∧
      SolvesQuadratic T sqrt a b c x1 x2 r := by
  have heps := T.epsilon_pos (F := F)
  rcases lt_or_ge (discriminant a b c) 0 with h0 | h0
  · have h2 : ¬ T.epsilon ≤ discriminant a b c := not_le.mpr (h0.trans heps)
    refine ⟨_, checkedQuadSolve_of_neg T x1 x2 h0, iff_of_true rfl h0,
      iff_of_false (by simp) h2, ?_, fun h => absurd h h2, fun h => absurd h0 h⟩
    intro _
    exact ⟨quadratic_ne_zero_of_discriminant_neg h0, rfl, rfl⟩
  rcases lt_or_ge (discriminant a b c) T.epsilon with h2 | h2
  · refine ⟨_, checkedQuadSolve_of_lt T x1 x2 ha (not_lt.mpr h0) h2,
      iff_of_false (by simp) (not_lt.mpr h0), iff_of_false (by simp) (not_le.mpr h2),
      fun h => absurd h (not_lt.mpr h0), fun h => absurd h (not_le.mpr h2), ?_⟩
    intro _ _
    refine ⟨rfl, rfl, ?_⟩
    rw [mul_quadratic_vertex ha, abs_neg, abs_of_nonneg h0]
    exact h2
  · have hs := (hsqrt _ h0).2
    refine ⟨_, checkedQuadSolve_of_le T x1 x2 ha hsqrt h2,
      iff_of_false (by simp) (not_lt.mpr h0), iff_of_true rfl h2,
      fun h => absurd h (not_lt.mpr h0), ?_, fun _ h => absurd h2 h⟩
    intro _
    exact ⟨⟨rfl, rfl⟩, quadratic_lowerRoot ha hs, quadratic_upperRoot ha hs⟩

/-- `QuadSolve` never divides by zero and solves the equation. -/
theorem quadSolve_solves (hsqrt : ∀ d, 0 ≤ d → 0 ≤ sqrt d ∧ sqrt d * sqrt d = d) :
    checkedQuadSolve T sqrt a b c x1 x2 = some (quadSolve T sqrt a b c x1 x2) ∧
      SolvesQuadratic T sqrt a b c x1 x2 (quadSolve T sqrt a b c x1 x2) := by
  obtain ⟨r, hrun, hsolves⟩ := checkedQuadSolve_solves T (b := b) (c := c) x1 x2 ha hsqrt
  rw [eq_quadSolve_of_checked hrun]
  exact ⟨hrun, hsolves⟩

end Results

/-- `x * x - 3 * x + 2 = 0` over the reals. -/
theorem quadSolve_solves_real :
    checkedQuadSolve .float Real.sqrt 1 (-3) 2 0 0 =
        some (quadSolve .float Real.sqrt 1 (-3) 2 0 0) ∧
      SolvesQuadratic .float Real.sqrt 1 (-3) 2 0 0
        (quadSolve .float Real.sqrt 1 (-3) 2 0 0) :=
  quadSolve_solves .float 0 0 one_ne_zero real_sqrt_spec

end VecCore.Bench
