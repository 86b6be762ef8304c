/-
  Bench/QuadraticAVX.lean --- QuadSolveAVX of bench/quadratic.cc, with exact
  arithmetic.

  The branch without `__FMA__` subtracts the product `-4 * a * c` and so adds
  `4 * a * c` to `b * b`: its discriminant has the wrong sign.  The other branch
  computes what `QuadSolveSIMD` computes.
-/
import VecCore.Bench.Quadratic
import VecCore.Foundation.CInt
import VecCore.Foundation.Intrinsics
import Mathlib.Algebra.Order.Round

set_option autoImplicit false

namespace VecCore.Bench

open VecCore.Foundation

variable {F : Type*}

/-! ## The program -/

section Code

variable [Field F] [LinearOrder F]

/-- `QuadSolveAVX`, compiled with `__FMA__` or without; what it stores to `roots`,
`x1` and `x2`. -/
def quadSolveAVX (fma : Bool) (sqrt : F → F) (cvt : F → Int) (a b c : M256 F) :
    RootsV 8 F :=
  let one := mm256Set1 1
  let va := a
  let vb := b
  let zero := mm256Set1 0
  let a_inv := mm256Div one va
  let b2 := mm256Mul vb vb
  let eps := mm256Set1 FloatType.float.epsilon
  let vc := c
  let negone := mm256Set1 (-1)
  let ac := mm256Mul va vc
  let sign := mm256Blendv negone one (mm256Cmp vb zero .GE_OS)
  let delta :=
    if fma then mm256Fmadd (mm256Set1 (-4)) ac b2
    else mm256Sub b2 (mm256Mul (mm256Set1 (-4)) ac)
  let r1 :=
    if fma then mm256Fmadd sign (mm256Sqrt sqrt delta) vb
    else mm256Add vb (mm256Mul sign (mm256Sqrt sqrt delta))
  let mask0 := mm256Cmp delta zero .LT_OS
  let mask2 := mm256Cmp delta eps .GE_OS
  let r1 := mm256Mul (mm256Set1 (-(1 / 2))) r1
  let r2 := mm256Div vc r1
  let r1 := mm256Mul a_inv r1
  let r3 := mm256Mul (mm256Set1 (-(1 / 2))) (mm256Mul vb a_inv)
  let nr := mm256Blendv one (mm256Set1 2) mask2
  let nr := mm256Blendv nr (mm256Set1 0) mask0
  let r3 := mm256Blendv r3 zero mask0
  let r1 := mm256Blendv r3 r1 mask2
  let r2 := mm256Blendv r3 r2 mask2
  { roots := mm256Cvtps cvt nr, x1 := r1, x2 := r2 }

/-- The discriminant `QuadSolveAVX` computes. -/
def discriminantAVX (fma : Bool) (a b c : F) : F :=
  if fma then discriminant a b c else b * b + 4 * a * c

end Code

/-! ## The class of a lane -/

section Lane

variable [Field F] [LinearOrder F] [IsStrictOrderedRing F]

/-- A lane of `QuadSolveAVX` is that of the class of its discriminant, with 0 in
the place of roots that do not exist. -/
theorem quadSolveAVX_lane (fma : Bool) (sqrt : F → F) {cvt : F → Int}
    (hcvt : ∀ n : Int, IntTy.int.Fits n → cvt n = n) (a b c : M256 F) (i : Fin 8) :
    (quadSolveAVX fma sqrt cvt a b c).lane i =
      classify sqrt FloatType.float.epsilon (a i) (b i) (c i)
        (discriminantAVX fma (a i) (b i) (c i)) 0 0 := by
  have hdelta : ∀ ac b2 : M256 F,
      (if fma then mm256Fmadd (mm256Set1 (-4)) ac b2
        else mm256Sub b2 (mm256Mul (mm256Set1 (-4)) ac)) i =
        if fma then -4 * ac i + b2 i else b2 i - -4 * ac i := by
    intro ac b2
    cases fma <;> rfl
  have hdisc : (if fma then -4 * (a i * c i) + b i * b i else b i * b i - -4 * (a i * c i)) =
      discriminantAVX fma (a i) (b i) (c i) := by
    cases fma <;> simp only [discriminantAVX, discriminant, if_true, Bool.false_eq_true,
      if_false] <;> ring
  have hroot : ∀ sign delta : M256 F,
      (if fma then mm256Fmadd sign (mm256Sqrt sqrt delta) b
        else mm256Add b (mm256Mul sign (mm256Sqrt sqrt delta))) i =
        b i + sign i * sqrt (delta i) := by
    intro sign delta
    cases fma
    · rfl
    · exact add_comm _ _
  have hcvt0 : cvt 0 = 0 := by simpa using hcvt 0 (by decide)
  have hcvt1 : cvt 1 = 1 := by simpa using hcvt 1 (by decide)
  have hcvt2 : cvt 2 = 2 := by simpa using hcvt 2 (by decide)
  have heps := FloatType.float.epsilon_pos (F := F)
  have hx1 : ∀ r : F, 1 / a i * (-(1 / 2) * r) = -(1 / 2) * r * (1 / a i) := fun r =>
    mul_comm _ _
  have hx3 : -(1 / 2) * (b i * (1 / a i)) = -(1 / 2) * b i * (1 / a i) := (mul_assoc _ _ _).symm
  simp only [quadSolveAVX, RootsV.lane, classify, twoRoots, oneRoot, stableRoot,
    mm256Cvtps_apply, mm256Blendv_lt, mm256Blendv_ge, mm256Mul_apply, mm256Div_apply,
    mm256Set1_apply, hdelta, hdisc, hroot, hx1, hx3, ge_iff_le]
  by_cases h2 : FloatType.float.epsilon ≤ discriminantAVX fma (a i) (b i) (c i)
  · have h0 : ¬ discriminantAVX fma (a i) (b i) (c i) < 0 := not_lt.mpr (le_trans heps.le h2)
    simp only [h2, h0, if_true, if_false, hcvt2]
    rfl
  · by_cases h0 : discriminantAVX fma (a i) (b i) (c i) < 0
    · simp only [h2, h0, if_true, if_false, hcvt0]
    · simp only [h2, h0, if_false, hcvt1]

/-! ## Two discriminants for one equation -/

/-- Equal stable roots come from equal discriminants. -/
theorem stableRoot_inj {sqrt : F → F}
    (hsqrt : ∀ d, 0 ≤ d → 0 ≤ sqrt d ∧ sqrt d * sqrt d = d) {b d d' : F} (hd : 0 ≤ d)
    (hd' : 0 ≤ d') (h : stableRoot sqrt b d' = stableRoot sqrt b d) : d = d' := by
  have hhalf : (-(1 / 2) : F) ≠ 0 := by norm_num
  have hsign : (if b ≥ 0 then 1 else -1 : F) ≠ 0 := by
    split
    · exact one_ne_zero
    · exact neg_ne_zero.mpr one_ne_zero
  have hroot : sqrt d' = sqrt d :=
    mul_left_cancel₀ hsign (add_left_cancel (mul_left_cancel₀ hhalf h))
  rw [← (hsqrt d hd).2, ← (hsqrt d' hd').2, hroot]

/-- The results for two discriminants of one equation are the same: as many
roots, and the same roots where there are any. -/
def SameRoots (r s : Roots F) : Prop :=
  r.roots = s.roots ∧ (s.roots ≠ 0 → r.x1 = s.x1 ∧ r.x2 = s.x2)

/-- Two discriminants give the same result exactly when they are equal or both in
the same class of fewer than two roots. -/
theorem classify_same_iff {sqrt : F → F}
    (hsqrt : ∀ d, 0 ≤ d → 0 ≤ sqrt d ∧ sqrt d * sqrt d = d) {eps a : F} (heps : 0 < eps)
    (ha : a ≠ 0) (b c d d' x1 x2 y1 y2 : F) :
    SameRoots (classify sqrt eps a b c d' y1 y2) (classify sqrt eps a b c d x1 x2) ↔
      d = d' ∨ (d < 0 ∧ d' < 0) ∨ ((0 ≤ d ∧ d < eps) ∧ (0 ≤ d' ∧ d' < eps)) := by
  have htwo : ∀ {d : F}, eps ≤ d → ∀ x1 x2,
      classify sqrt eps a b c d x1 x2 = twoRoots sqrt a b c d := fun h _ _ => if_pos h
  have hnone : ∀ {d : F}, d < 0 → ∀ x1 x2,
      classify sqrt eps a b c d x1 x2 = { roots := 0, x1, x2 } := fun h _ _ =>
    (if_neg (not_le.mpr (h.trans heps))).trans (if_pos h)
  have hone : ∀ {d : F}, 0 ≤ d → d < eps → ∀ x1 x2,
      classify sqrt eps a b c d x1 x2 = oneRoot a b := fun h h' _ _ =>
    (if_neg (not_le.mpr h')).trans (if_neg (not_lt.mpr h))
  have hclass : ∀ d : F, eps ≤ d ∨ d < 0 ∨ (0 ≤ d ∧ d < eps) := by
    intro d
    rcases le_or_gt eps d with h | h
    · exact .inl h
    · rcases lt_or_ge d 0 with h0 | h0
      · exact .inr (.inl h0)
      · exact .inr (.inr ⟨h0, h⟩)
  constructor
  · rintro ⟨hroots, hvals⟩
    rcases hclass d with h | h | h <;> rcases hclass d' with h' | h' | h'
    · rw [htwo h, htwo h'] at hvals
      have hx := (hvals (by simp [twoRoots])).1
      have hinv : (1 / a : F) ≠ 0 := one_div_ne_zero ha
      exact .inl (stableRoot_inj hsqrt (heps.le.trans h) (heps.le.trans h')
        (mul_right_cancel₀ hinv hx))
    · simp [htwo h, hnone h', twoRoots] at hroots
    · simp [htwo h, hone h'.1 h'.2, twoRoots, oneRoot] at hroots
    · simp [hnone h, htwo h', twoRoots] at hroots
    · exact .inr (.inl ⟨h, h'⟩)
    · simp [hnone h, hone h'.1 h'.2, oneRoot] at hroots
    · simp [hone h.1 h.2, htwo h', twoRoots, oneRoot] at hroots
    · simp [hone h.1 h.2, hnone h', oneRoot] at hroots
    · exact .inr (.inr ⟨h, h'⟩)
  · rintro (rfl | ⟨h, h'⟩ | ⟨h, h'⟩)
    · rcases hclass d with h | h | h
      · rw [htwo h, htwo h]
        exact ⟨rfl, fun _ => ⟨rfl, rfl⟩⟩
      · rw [hnone h, hnone h]
        exact ⟨rfl, fun hne => absurd rfl hne⟩
      · rw [hone h.1 h.2, hone h.1 h.2]
        exact ⟨rfl, fun _ => ⟨rfl, rfl⟩⟩
    · rw [hnone h, hnone h']
      exact ⟨rfl, fun hne => absurd rfl hne⟩
    · rw [hone h.1 h.2, hone h'.1 h'.2]
      exact ⟨rfl, fun _ => ⟨rfl, rfl⟩⟩

/-- The discriminants of `QuadSolveSIMD` and of the branch without `__FMA__`. -/
theorem discriminants_iff {eps a : F} (ha : a ≠ 0) (b c : F) :
    (discriminant a b c = b * b + 4 * a * c ∨
      (discriminant a b c < 0 ∧ b * b + 4 * a * c < 0) ∨
      ((0 ≤ discriminant a b c ∧ discriminant a b c < eps) ∧
        (0 ≤ b * b + 4 * a * c ∧ b * b + 4 * a * c < eps))) ↔
      c = 0 ∨ (|4 * a * c| ≤ b * b ∧ b * b + |4 * a * c| < eps) := by
  have hsq : 0 ≤ b * b := mul_self_nonneg b
  have hzero : 4 * a * c = 0 ↔ c = 0 := by
    have h4a : (4 * a : F) ≠ 0 := mul_ne_zero (by norm_num) ha
    rw [mul_eq_zero, or_iff_right h4a]
  rw [discriminant, abs_le, ← hzero]
  constructor
  · rintro (h | ⟨h, h'⟩ | ⟨⟨h1, h2⟩, h3, h4⟩)
    · exact .inl (by linarith)
    · linarith
    · refine .inr ⟨⟨by linarith, by linarith⟩, ?_⟩
      rcases abs_cases (4 * a * c) with ⟨habs, -⟩ | ⟨habs, -⟩ <;> rw [habs] <;> linarith
  · rintro (h | ⟨⟨h1, h2⟩, h3⟩)
    · exact .inl (by rw [h]; ring)
    · have hle := le_abs_self (4 * a * c)
      have hge := neg_abs_le (4 * a * c)
      exact .inr (.inr ⟨⟨by linarith, by linarith⟩, by linarith, by linarith⟩)

/-- `QuadSolveAVX` computes what `QuadSolveSIMD` computes if it is compiled with
`__FMA__`; without, only for the lanes where the sign of `4 * a * c` does not
matter. -/
theorem quadSolveAVX_same_iff (fma : Bool) {sqrt : F → F}
    (hsqrt : ∀ d, 0 ≤ d → 0 ≤ sqrt d ∧ sqrt d * sqrt d = d) {cvt : F → Int}
    (hcvt : ∀ n : Int, IntTy.int.Fits n → cvt n = n) {a : M256 F} (ha : ∀ i, a i ≠ 0)
    (b c x1 x2 : M256 F) :
    (∀ i, SameRoots ((quadSolveAVX fma sqrt cvt a b c).lane i)
        ((quadSolveSIMD sqrt a b c x1 x2).lane i)) ↔
      fma = true ∨ ∀ i, c i = 0 ∨ (|4 * a i * c i| ≤ b i * b i ∧
        b i * b i + |4 * a i * c i| < FloatType.float.epsilon) := by
  have heps := FloatType.float.epsilon_pos (F := F)
  simp only [quadSolveAVX_lane fma sqrt hcvt, quadSolveSIMD_lane,
    classify_same_iff hsqrt heps (ha _)]
  cases fma with
  | true => simp [discriminantAVX]
  | false =>
    simp only [discriminantAVX, Bool.false_eq_true, if_false, false_or,
      discriminants_iff (ha _)]

end Lane

/-! ## Concrete equations -/

/-- `x * x + 1 = 0` in all lanes, with `__FMA__`. -/
theorem quadSolveAVX_same_iff_fma :
    SameRoots
      ((quadSolveAVX true Real.sqrt round (splat 1) (splat 0) (splat 1) : RootsV 8 ℝ).lane 0)
      ((quadSolveSIMD Real.sqrt (splat 1) (splat 0) (splat 1) (splat 0) (splat 0) :
        RootsV 8 ℝ).lane 0) :=
  (quadSolveAVX_same_iff true real_sqrt_spec (fun n _ => round_intCast n)
    (fun _ => one_ne_zero) _ _ _ _).mpr (.inl rfl) 0

/-- Without, `QuadSolveAVX` finds two roots of `x * x + 1 = 0`. -/
theorem quadSolveAVX_not_same :
    ¬ ∀ i, SameRoots
      ((quadSolveAVX false Real.sqrt round (splat 1) (splat 0) (splat 1) : RootsV 8 ℝ).lane i)
      ((quadSolveSIMD Real.sqrt (splat 1) (splat 0) (splat 1) (splat 0) (splat 0)).lane i) := by
  intro h
  have hroots := (h 0).1
  rw [quadSolveAVX_lane false Real.sqrt (fun n _ => round_intCast n), quadSolveSIMD_lane] at hroots
  norm_num [classify, discriminantAVX, discriminant, FloatType.epsilon, twoRoots] at hroots

end VecCore.Bench
