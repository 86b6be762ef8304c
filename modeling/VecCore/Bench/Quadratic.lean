/-
  Bench/Quadratic.lean --- the scalar and SIMD solvers of bench/quadratic.cc,
  with exact arithmetic.

  All solvers classify the discriminant by its comparisons with 0 and with
  `NumericLimits<T>::Epsilon()`, and compute the two roots from the one that
  does not cancel.  Nothing below depends on what `Sqrt` computes.
-/
import VecCore.Foundation.Numerals
import VecCore.Backend.VecMath
import Mathlib.Algebra.Order.Field.Basic
import Mathlib.Analysis.Real.Sqrt
import Mathlib.Algebra.Ring.Pi
import Mathlib.Tactic.FieldSimp
import Mathlib.Tactic.Positivity
import Mathlib.Tactic.Ring

set_option autoImplicit false

namespace VecCore.Bench

open VecCore.Foundation

variable {F : Type*} {V : Nat}

/-- The floating-point types the solvers are instantiated with. -/
inductive FloatType where
  | float
  | double
  deriving DecidableEq, Repr

/-- `NumericLimits<T>::Epsilon()`: `FLT_EPSILON` and `DBL_EPSILON`. -/
def FloatType.epsilon [Field F] : FloatType → F
  | .float => 1 / 2 ^ 23
  | .double => 1 / 2 ^ 52

/-- What a call leaves in `roots`, `x1` and `x2`. -/
structure Roots (F : Type*) where
  roots : Int
  x1 : F
  x2 : F

/-- The same roots, in either order. -/
def Roots.SamePair (r s : Roots F) : Prop :=
  (r.x1 = s.x1 ∧ r.x2 = s.x2) ∨ (r.x1 = s.x2 ∧ r.x2 = s.x1)

/-- `r`, computed from the previous contents `x1` and `x2`, is a result for an
equation that `QuadSolve` solves with the result `s`. -/
structure Roots.Agrees (r s : Roots F) (x1 x2 : F) : Prop where
  roots : r.roots = s.roots
  two : s.roots = 2 → r.SamePair s
  one : s.roots = 1 → r.x1 = s.x1 ∧ r.x2 = s.x2
  none : s.roots = 0 → r.x1 = x1 ∧ r.x2 = x2

section Agrees

variable {r s : Roots F} {x1 x2 : F}

theorem Roots.Agrees.of_two (hr : r.roots = 2) (hs : s.roots = 2) (h : r.SamePair s) :
    r.Agrees s x1 x2 :=
  ⟨hr.trans hs.symm, fun _ => h, fun h1 => by omega, fun h0 => by omega⟩

theorem Roots.Agrees.of_one (hr : r.roots = 1) (hs : s.roots = 1)
    (h : r.x1 = s.x1 ∧ r.x2 = s.x2) : r.Agrees s x1 x2 :=
  ⟨hr.trans hs.symm, fun h2 => by omega, fun _ => h, fun h0 => by omega⟩

theorem Roots.Agrees.of_none (hr : r.roots = 0) (hs : s.roots = 0)
    (h : r.x1 = x1 ∧ r.x2 = x2) : r.Agrees s x1 x2 :=
  ⟨hr.trans hs.symm, fun h2 => by omega, fun h1 => by omega, fun _ => h⟩

end Agrees

/-! ## The scalar solvers -/

section Scalar

variable [Field F] [LinearOrder F]

/-- `b * b - 4.0 * a * c`. -/
def discriminant (a b c : F) : F := b * b - 4 * a * c

/-- `QuadSolve`. -/
def quadSolve (T : FloatType) (sqrt : F → F) (a b c x1 x2 : F) : Roots F :=
  let delta := discriminant a b c
  if delta < 0 then { roots := 0, x1, x2 }
  else if delta < T.epsilon then
    let x := -(1 / 2) * b / a
    { roots := 1, x1 := x, x2 := x }
  else if b ≥ 0 then
    let x1 := -(1 / 2) * (b + sqrt delta) / a
    let x2 := c / (a * x1)
    { roots := 2, x1, x2 }
  else
    let x2 := -(1 / 2) * (b - sqrt delta) / a
    let x1 := c / (a * x2)
    { roots := 2, x1, x2 }

/-- `QuadSolveOptimized`. -/
def quadSolveOptimized (T : FloatType) (sqrt : F → F) (a b c x1 x2 : F) : Roots F :=
  let a_inv := 1 / a
  let delta := discriminant a b c
  let s := if b ≥ 0 then 1 else -1
  let roots : Int := if delta > T.epsilon then 2 else if delta < 0 then 0 else 1
  match roots with
  | 2 =>
    let x1 := -(1 / 2) * (b + s * sqrt delta)
    let x2 := c / x1
    { roots, x1 := x1 * a_inv, x2 }
  | 0 => { roots, x1, x2 }
  | 1 =>
    let x := -(1 / 2) * b * a_inv
    { roots, x1 := x, x2 := x }
  | _ => { roots, x1, x2 }

end Scalar

/-! ## The SIMD solver -/

section Vector

variable [Field F] [LinearOrder F]

/-- What a call leaves in `roots`, `x1` and `x2`, for vectors. -/
structure RootsV (V : Nat) (F : Type*) where
  roots : Lanes V Int
  x1 : Lanes V F
  x2 : Lanes V F

/-- Lane `i` of the results. -/
def RootsV.lane (r : RootsV V F) (i : Fin V) : Roots F :=
  { roots := r.roots i, x1 := r.x1 i, x2 := r.x2 i }

/-- `QuadSolveSIMD`, with the previous contents of `x1` and `x2`.  The casts
between the mask types keep the lanes. -/
def quadSolveSIMD (sqrt : F → F) (a b c x1 x2 : Lanes V F) : RootsV V F :=
  let a_inv := splat 1 / a
  let delta := b * b - splat 4 * a * c
  let sign := blend (geLanes b (splat 0)) (splat 1) (splat (-1))
  let mask0 := ltLanes delta (splat 0)
  let mask2 := geLanes delta (splat FloatType.float.epsilon)
  let root1 := splat (-(1 / 2)) * (b + sign * mathUnary sqrt delta)
  let root2 := c / root1
  let root1 := root1 * a_inv
  let mask1 : Mask V := fun i => !(mask2 i || mask0 i)
  let x1 := maskedAssign x1 mask2 root1
  let x2 := maskedAssign x2 mask2 root2
  let roots := blend mask2 (splat 2) (splat 0)
  if maskEmpty mask1 then { roots, x1, x2 }
  else
    let root1 := splat (-(1 / 2)) * b * a_inv
    let roots := maskedAssign roots mask1 (splat 1)
    let x1 := maskedAssign x1 mask1 root1
    let x2 := maskedAssign x2 mask1 root1
    { roots, x1, x2 }

end Vector

/-! ## The three classes of discriminants -/

section Agreement

variable [Field F] [LinearOrder F]

/-- The root that does not cancel, times `a`. -/
def stableRoot (sqrt : F → F) (b delta : F) : F :=
  -(1 / 2) * (b + (if b ≥ 0 then 1 else -1) * sqrt delta)

/-- The roots as the SIMD and optimized solvers compute them, when there are two. -/
def twoRoots (sqrt : F → F) (a b c delta : F) : Roots F :=
  { roots := 2
    x1 := stableRoot sqrt b delta * (1 / a)
    x2 := c / stableRoot sqrt b delta }

/-- The double root. -/
def oneRoot (a b : F) : Roots F :=
  { roots := 1, x1 := -(1 / 2) * b * (1 / a), x2 := -(1 / 2) * b * (1 / a) }

/-- The class of a discriminant decides what a lane of `QuadSolveSIMD` computes. -/
def classify (sqrt : F → F) (eps a b c delta x1 x2 : F) : Roots F :=
  if eps ≤ delta then twoRoots sqrt a b c delta
  else if delta < 0 then { roots := 0, x1, x2 }
  else oneRoot a b

/-- Taking the early return or not, a lane of `QuadSolveSIMD` is that of its class. -/
theorem quadSolveSIMD_lane (sqrt : F → F) (a b c x1 x2 : Lanes V F) (i : Fin V) :
    (quadSolveSIMD sqrt a b c x1 x2).lane i =
      classify sqrt FloatType.float.epsilon (a i) (b i) (c i)
        (discriminant (a i) (b i) (c i)) (x1 i) (x2 i) := by
  unfold quadSolveSIMD
  dsimp only
  split
  · rename_i hempty
    have hmask := (maskEmpty_iff _).mp hempty i
    simp only [Bool.not_eq_false', Bool.or_eq_true, geLanes_iff, ltLanes_iff, Pi.sub_apply,
      Pi.mul_apply, splat_apply] at hmask
    simp only [RootsV.lane, classify, twoRoots, oneRoot, stableRoot, discriminant,
      maskedAssign_apply, blend_apply, mathUnary_apply, Pi.add_apply, Pi.sub_apply,
      Pi.mul_apply, Pi.div_apply, splat_apply, geLanes_iff]
    by_cases h2 : FloatType.float.epsilon ≤ b i * b i - 4 * a i * c i
    · simp only [h2, if_true, ge_iff_le]
    · have h0 := hmask.resolve_left h2
      simp only [h2, h0, if_true, if_false]
  · simp only [RootsV.lane, classify, twoRoots, oneRoot, stableRoot, discriminant,
      maskedAssign_apply, blend_apply, mathUnary_apply, Pi.add_apply, Pi.sub_apply,
      Pi.mul_apply, Pi.div_apply, splat_apply, geLanes_iff, Bool.not_eq_true',
      Bool.or_eq_false_iff, geLanes_eq_false_iff, ltLanes_eq_false_iff]
    by_cases h2 : FloatType.float.epsilon ≤ b i * b i - 4 * a i * c i
    · simp only [h2, not_true_eq_false, false_and, if_true, if_false, ge_iff_le]
    · by_cases h0 : b i * b i - 4 * a i * c i < 0
      · simp only [h2, h0, not_true_eq_false, and_false, if_true, if_false]
      · simp only [h2, h0, not_false_eq_true, and_self, if_true, if_false]

/-- So is `QuadSolveOptimized`, except that it compares with `>` where the other
solvers compare with `>=`. -/
theorem quadSolveOptimized_of_ne {T : FloatType} {a b c : F}
    (h : discriminant a b c ≠ T.epsilon) (sqrt : F → F) (x1 x2 : F) :
    quadSolveOptimized T sqrt a b c x1 x2 =
      classify sqrt T.epsilon a b c (discriminant a b c) x1 x2 := by
  unfold quadSolveOptimized classify
  by_cases h2 : T.epsilon ≤ discriminant a b c
  · have hgt : discriminant a b c > T.epsilon := lt_of_le_of_ne h2 h.symm
    simp only [if_pos h2, if_pos hgt]
    rfl
  · have hngt : ¬ discriminant a b c > T.epsilon := fun hgt => h2 (le_of_lt hgt)
    by_cases h0 : discriminant a b c < 0
    · simp only [if_neg h2, if_neg hngt, if_pos h0]
    · simp only [if_neg h2, if_neg hngt, if_neg h0]
      rfl

variable [IsStrictOrderedRing F]

theorem FloatType.epsilon_pos (T : FloatType) : (0 : F) < T.epsilon := by
  cases T <;> simp only [FloatType.epsilon] <;> positivity

/-- The result of a class is a result of `QuadSolve`. -/
theorem classify_agrees (T : FloatType) (sqrt : F → F) {a : F} (ha : a ≠ 0)
    (b c x1 x2 y1 y2 : F) :
    (classify sqrt T.epsilon a b c (discriminant a b c) x1 x2).Agrees
      (quadSolve T sqrt a b c y1 y2) x1 x2 := by
  have heps := T.epsilon_pos (F := F)
  unfold classify quadSolve
  by_cases h2 : T.epsilon ≤ discriminant a b c
  · have h0 : ¬ discriminant a b c < 0 := not_lt.mpr (le_trans heps.le h2)
    simp only [if_pos h2, if_neg h0, if_neg (not_lt.mpr h2)]
    have hpos : a * (-(1 / 2) * (b + sqrt (discriminant a b c)) / a) =
        -(1 / 2) * (b + sqrt (discriminant a b c)) := mul_div_cancel₀ _ ha
    have hneg : a * (-(1 / 2) * (b - sqrt (discriminant a b c)) / a) =
        -(1 / 2) * (b - sqrt (discriminant a b c)) := mul_div_cancel₀ _ ha
    by_cases hb : b ≥ 0
    · simp only [if_pos hb]
      refine .of_two rfl rfl (.inl ⟨?_, ?_⟩)
      · simp only [twoRoots, stableRoot, if_pos hb, one_mul]
        exact mul_one_div _ _
      · simp only [twoRoots, stableRoot, if_pos hb, one_mul, hpos]
    · simp only [if_neg hb]
      refine .of_two rfl rfl (.inr ⟨?_, ?_⟩)
      · simp only [twoRoots, stableRoot, if_neg hb, neg_one_mul, ← sub_eq_add_neg]
        exact mul_one_div _ _
      · simp only [twoRoots, stableRoot, if_neg hb, neg_one_mul, ← sub_eq_add_neg, hneg]
  · by_cases h0 : discriminant a b c < 0
    · simp only [if_neg h2, if_pos h0]
      exact .of_none rfl rfl ⟨rfl, rfl⟩
    · simp only [if_neg h2, if_neg h0, if_pos (not_le.mp h2)]
      exact .of_one rfl rfl ⟨mul_one_div _ _, mul_one_div _ _⟩

/-- Every lane of `QuadSolveSIMD` is a result of `QuadSolve`, whatever the other
lanes hold. -/
theorem quadSolveSIMD_agrees (sqrt : F → F) {a : Lanes V F} (ha : ∀ i, a i ≠ 0)
    (b c x1 x2 : Lanes V F) (i : Fin V) (y1 y2 : F) :
    ((quadSolveSIMD sqrt a b c x1 x2).lane i).Agrees
      (quadSolve .float sqrt (a i) (b i) (c i) y1 y2) (x1 i) (x2 i) := by
  rw [quadSolveSIMD_lane]
  exact classify_agrees .float sqrt (ha i) (b i) (c i) (x1 i) (x2 i) y1 y2

/-- Where the discriminant is `Epsilon`, the two scalar solvers disagree. -/
theorem roots_of_eq_epsilon {T : FloatType} {a b c : F} (h : discriminant a b c = T.epsilon)
    (sqrt : F → F) (x1 x2 y1 y2 : F) :
    (quadSolveOptimized T sqrt a b c x1 x2).roots = 1 ∧
      (quadSolve T sqrt a b c y1 y2).roots = 2 := by
  have heps := T.epsilon_pos (F := F)
  constructor
  · simp only [quadSolveOptimized, h, gt_iff_lt, lt_self_iff_false, if_false,
      if_neg (not_lt.mpr heps.le)]
  · simp only [quadSolve, h, lt_self_iff_false, if_false, if_neg (not_lt.mpr heps.le)]
    split <;> rfl

/-- `QuadSolveOptimized` replaces `QuadSolve` except where the discriminant is
`Epsilon`: there it finds one root, and `QuadSolve` two. -/
theorem quadSolveOptimized_agrees_iff (T : FloatType) (sqrt : F → F) {a : F} (ha : a ≠ 0)
    (b c x1 x2 y1 y2 : F) :
    (quadSolveOptimized T sqrt a b c x1 x2).Agrees (quadSolve T sqrt a b c y1 y2) x1 x2 ↔
      b * b - 4 * a * c ≠ T.epsilon := by
  constructor
  · intro h heq
    obtain ⟨hone, htwo⟩ := roots_of_eq_epsilon heq sqrt x1 x2 y1 y2
    have := h.roots
    rw [hone, htwo] at this
    exact absurd this (by decide)
  · intro hne
    rw [quadSolveOptimized_of_ne hne]
    exact classify_agrees T sqrt ha b c x1 x2 y1 y2

end Agreement

/-! ## Concrete equations -/

theorem real_sqrt_spec (d : ℝ) (hd : 0 ≤ d) :
    0 ≤ Real.sqrt d ∧ Real.sqrt d * Real.sqrt d = d :=
  ⟨Real.sqrt_nonneg d, Real.mul_self_sqrt hd⟩

/-- `x * x - 3 * x + 2 = 0` next to `x * x + 1 = 0`. -/
theorem quadSolveSIMD_agrees_two_lanes :
    ((quadSolveSIMD Real.sqrt (splat 1) (fun i : Fin 2 => if i = 0 then -3 else 0)
        (fun i => if i = 0 then 2 else 1) (splat 7) (splat 8)).lane 0).Agrees
      (quadSolve .float Real.sqrt 1 (-3) 2 0 0) 7 8 ∧
    ((quadSolveSIMD Real.sqrt (splat 1) (fun i : Fin 2 => if i = 0 then -3 else 0)
        (fun i => if i = 0 then 2 else 1) (splat 7) (splat 8)).lane 1).Agrees
      (quadSolve .float Real.sqrt 1 0 1 0 0) 7 8 :=
  ⟨quadSolveSIMD_agrees Real.sqrt (a := splat 1) (fun _ => one_ne_zero) _ _ _ _ 0 0 0,
    quadSolveSIMD_agrees Real.sqrt (a := splat 1) (fun _ => one_ne_zero) _ _ _ _ 1 0 0⟩

/-- `x * x - 3 * x + 2 = 0` has discriminant 1. -/
theorem quadSolveOptimized_agrees_iff_one :
    (quadSolveOptimized .float Real.sqrt 1 (-3) 2 0 0).Agrees
      (quadSolve .float Real.sqrt 1 (-3) 2 0 0) 0 0 :=
  (quadSolveOptimized_agrees_iff .float Real.sqrt one_ne_zero (-3) 2 0 0 0 0).mpr (by
    norm_num [FloatType.epsilon])

/-- The discriminant of `x * x - 1 / 2 ^ 25 = 0` is `FLT_EPSILON`. -/
theorem quadSolveOptimized_not_agrees :
    ¬ (quadSolveOptimized .float Real.sqrt 1 0 (-(1 / 2 ^ 25)) 0 0).Agrees
      (quadSolve .float Real.sqrt 1 0 (-(1 / 2 ^ 25)) 0 0) 0 0 := by
  intro h
  have heps : discriminant (1 : ℝ) 0 (-(1 / 2 ^ 25)) = FloatType.float.epsilon := by
    norm_num [discriminant, FloatType.epsilon]
  obtain ⟨hone, htwo⟩ := roots_of_eq_epsilon heps Real.sqrt 0 0 0 0
  have := h.roots
  rw [hone, htwo] at this
  exact absurd this (by decide)

end VecCore.Bench
