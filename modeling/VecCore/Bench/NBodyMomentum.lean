/-
  Bench/NBodyMomentum.lean --- the momentum of the bodies of bench/nbody.cc.

  The interaction adds the square of the distance in each coordinate, scaled, to
  the velocity.  A square keeps its sign when two bodies change places, so what
  they do to each other is the same and not opposite, and a run adds it twice.
-/
import VecCore.Bench.NBody
import VecCore.Foundation.PairSum
import VecCore.Foundation.Numerals
import Mathlib.Algebra.Order.Field.Basic
import Mathlib.Analysis.Real.Sqrt
import Mathlib.Tactic.FieldSimp
import Mathlib.Tactic.Positivity

set_option autoImplicit false

namespace VecCore.Bench

open VecCore.Foundation

variable {F : Type*}

/-! ## Axes -/

/-- The three coordinate axes. -/
inductive Axis where
  | x
  | y
  | z

/-- The coordinate along an axis. -/
def Vec3.along (v : Vec3 F) : Axis → F
  | .x => v.x
  | .y => v.y
  | .z => v.z

/-- Three coordinates are all there is to a vector. -/
theorem Vec3.eq_iff_along {v w : Vec3 F} : v = w ↔ ∀ a, v.along a = w.along a := by
  constructor
  · rintro rfl a
    rfl
  · intro h
    have hx : v.x = w.x := h .x
    have hy : v.y = w.y := h .y
    have hz : v.z = w.z := h .z
    rw [Vec3.mk.injEq]
    exact ⟨hx, hy, hz⟩

/-! ## What a run adds -/

section Run

variable [Field F]

/-- `eps2`, `timeStep` and `1.0f`. -/
def nbodyConstants : NBodyConstants F := { eps2 := 1 / 100, timeStep := 1 / 10000, one := 1 }

/-- The sum over the bodies of their mass times their velocity, along an axis. -/
def momentum (kN : Nat) (s : Bodies F) (a : Axis) : F :=
  ∑ i ∈ Finset.range kN, s.mass i * (s.vel i).along a

/-- The distance of two bodies along an axis. -/
def distance (s : Bodies F) (a : Axis) (i j : Nat) : F :=
  (s.pos i).along a - (s.pos j).along a

/-- The squared distance of two bodies, softened by `eps2`. -/
def distSqr (s : Bodies F) (i j : Nat) : F :=
  1 / 100 + distance s .x i j * distance s .x i j + distance s .y i j * distance s .y i j +
    distance s .z i j * distance s .z i j

/-- The weight of two bodies along an axis: the product of their masses times the
square of their distance along it, over the cube of their distance.  A square root
that is zero there leaves no weight, as a quotient by zero is zero. -/
def pairWeight (sqrt : F → F) (s : Bodies F) (a : Axis) (i j : Nat) : F :=
  s.mass i * s.mass j * distance s a i j ^ 2 /
    sqrt (distSqr s i j * distSqr s i j * distSqr s i j)

/-- Along every axis the weights of the pairs of bodies add up to zero. -/
def Balanced (sqrt : F → F) (kN : Nat) (s : Bodies F) : Prop :=
  ∀ a, ∑ i ∈ Finset.range kN, ∑ j ∈ Finset.range i, pairWeight sqrt s a i j = 0

theorem distance_comm (s : Bodies F) (a : Axis) (i j : Nat) :
    distance s a i j = -distance s a j i := (neg_sub _ _).symm

theorem distSqr_comm (s : Bodies F) (i j : Nat) : distSqr s i j = distSqr s j i := by
  simp only [distSqr, distance_comm s _ i j, neg_mul_neg]

/-- The weight does not tell which of the two bodies is pushed. -/
theorem pairWeight_comm (sqrt : F → F) (s : Bodies F) (a : Axis) (i j : Nat) :
    pairWeight sqrt s a i j = pairWeight sqrt s a j i := by
  rw [pairWeight, pairWeight, distSqr_comm s i j, distance_comm s a i j, neg_sq,
    mul_comm (s.mass i)]

/-- A body does not push itself. -/
theorem pairWeight_self (sqrt : F → F) (s : Bodies F) (a : Axis) (i : Nat) :
    pairWeight sqrt s a i i = 0 := by
  rw [pairWeight, distance, sub_self, zero_pow two_ne_zero, mul_zero, zero_div]

/-- `pPInteraction` of body `i` with body `j`, along an axis. -/
theorem pPInteraction_along (sqrt : F → F) (s : Bodies F) (v : Vec3 F) (a : Axis) (i j : Nat) :
    (pPInteraction sqrt nbodyConstants (s.pos i) v (s.pos j) (s.mass j)).along a =
      v.along a + distance s a i j * distance s a i j *
        (s.mass j * (1 / sqrt (distSqr s i j * distSqr s i j * distSqr s i j)) *
          (1 / 10000)) := by
  cases a <;> rfl

/-- Weighted by mass, two bodies change each other's velocity by the same amount. -/
theorem mass_mul_pushed (sqrt : F → F) (kN : Nat) (s : Bodies F) (a : Axis) (i : Nat) :
    s.mass i * (pushed sqrt nbodyConstants kN s i).along a =
      s.mass i * (s.vel i).along a +
        ∑ j ∈ Finset.range kN, pairWeight sqrt s a i j * (1 / 10000) := by
  rw [pushed, foldl_range_eq_add_sum (fun v : Vec3 F => v.along a) _ _
    (fun v j => pPInteraction_along sqrt s v a i j), mul_add, Finset.mul_sum]
  refine congrArg _ (Finset.sum_congr rfl fun j _ => ?_)
  rw [pairWeight]
  ring

/-- The velocities after a run. -/
theorem nextRun_vel (sqrt : F → F) (c : NBodyConstants F) {kN i : Nat} (hi : i < kN)
    (s : Bodies F) : (nextRun sqrt c kN s).vel i = pushed sqrt c kN s i := by
  simp only [Bodies.vel, nextRun, Bodies.movedTo, Bodies.pushedTo, upTo_of_lt hi]

/-- A run adds the weight of every pair twice. -/
theorem momentum_nextRun (sqrt : F → F) (kN : Nat) (s : Bodies F) (a : Axis) :
    momentum kN (nextRun sqrt nbodyConstants kN s) a = momentum kN s a +
      2 • (∑ i ∈ Finset.range kN, ∑ j ∈ Finset.range i, pairWeight sqrt s a i j) *
        (1 / 10000) := by
  have hbody : ∀ i ∈ Finset.range kN,
      s.mass i * ((nextRun sqrt nbodyConstants kN s).vel i).along a =
        s.mass i * (s.vel i).along a +
          ∑ j ∈ Finset.range kN, pairWeight sqrt s a i j * (1 / 10000) := by
    intro i hi
    rw [nextRun_vel sqrt _ (Finset.mem_range.mp hi), mass_mul_pushed]
  calc momentum kN (nextRun sqrt nbodyConstants kN s) a
      = ∑ i ∈ Finset.range kN, (s.mass i * (s.vel i).along a +
          ∑ j ∈ Finset.range kN, pairWeight sqrt s a i j * (1 / 10000)) :=
        Finset.sum_congr rfl hbody
    _ = momentum kN s a +
          (∑ i ∈ Finset.range kN, ∑ j ∈ Finset.range kN, pairWeight sqrt s a i j) *
            (1 / 10000) := by
        rw [Finset.sum_add_distrib, momentum, Finset.sum_mul]
        simp only [Finset.sum_mul]
    _ = _ := by
        rw [sum_pairs_symm (pairWeight_comm sqrt s a) (pairWeight_self sqrt s a)]

/-- `TestNBody` makes one run. -/
theorem testNBody_one (sqrt : F → F) (c : NBodyConstants F) (kN : Nat) (s : Bodies F) :
    testNBody sqrt c 1 kN s = some (nextRun sqrt c kN s) := by
  rw [testNBody, forLoop_of_lt Nat.one_pos Nat.one_pos,
    (run_eq_nextRun sqrt c Nat.one_pos (Nat.one_dvd kN) s).1, Option.bind_some,
    forLoop_of_le (Nat.le_refl 1)]

end Run

/-! ## When a run conserves momentum -/

section Conserved

variable [Field F] [LinearOrder F] [IsStrictOrderedRing F]

/-- One run keeps the momentum along every axis. -/
def ConservesMomentum (sqrt : F → F) (kN : Nat) (s : Bodies F) : Prop :=
  ∃ s', testNBody sqrt nbodyConstants 1 kN s = some s' ∧
    ∀ a, momentum kN s' a = momentum kN s a

/-- All bodies that have a mass are in one place. -/
def Coincident (kN : Nat) (s : Bodies F) : Prop :=
  ∀ i j, i < kN → j < kN → s.mass i ≠ 0 → s.mass j ≠ 0 → s.pos i = s.pos j

/-- What a run adds is nothing exactly where the weights cancel. -/
theorem conservesMomentum_iff (sqrt : F → F) (kN : Nat) (s : Bodies F) :
    ConservesMomentum sqrt kN s ↔ Balanced sqrt kN s := by
  have haxis : ∀ a, momentum kN (nextRun sqrt nbodyConstants kN s) a = momentum kN s a ↔
      ∑ i ∈ Finset.range kN, ∑ j ∈ Finset.range i, pairWeight sqrt s a i j = 0 := by
    intro a
    rw [momentum_nextRun, add_eq_left, mul_eq_zero, smul_eq_zero]
    norm_num
  constructor
  · rintro ⟨s', hrun, hsame⟩ a
    obtain rfl := Option.some.inj ((testNBody_one sqrt nbodyConstants kN s).symm.trans hrun)
    exact (haxis a).mp (hsame a)
  · intro hbalanced
    exact ⟨_, testNBody_one sqrt nbodyConstants kN s, fun a => (haxis a).mpr (hbalanced a)⟩

/-- The softened distance of two bodies is never zero. -/
theorem distSqr_pos (s : Bodies F) (i j : Nat) : 0 < distSqr s i j := by
  have hx := mul_self_nonneg (distance s .x i j)
  have hy := mul_self_nonneg (distance s .y i j)
  have hz := mul_self_nonneg (distance s .z i j)
  have heps : (0 : F) < 1 / 100 := by norm_num
  rw [distSqr]
  linarith

section Weights

variable {sqrt : F → F} (hsqrt : ∀ x, 0 < x → 0 < sqrt x) (s : Bodies F)

include hsqrt

theorem sqrt_distSixth_pos (i j : Nat) :
    0 < sqrt (distSqr s i j * distSqr s i j * distSqr s i j) := by
  have hpos := distSqr_pos s i j
  exact hsqrt _ (mul_pos (mul_pos hpos hpos) hpos)

theorem pairWeight_nonneg (a : Axis) {i j : Nat} (hi : 0 ≤ s.mass i) (hj : 0 ≤ s.mass j) :
    0 ≤ pairWeight sqrt s a i j :=
  div_nonneg (mul_nonneg (mul_nonneg hi hj) (sq_nonneg _)) (sqrt_distSixth_pos hsqrt s i j).le

/-- A pair has no weight along an axis if one of its bodies has no mass or they do not
differ along it. -/
theorem pairWeight_eq_zero_iff (a : Axis) (i j : Nat) :
    pairWeight sqrt s a i j = 0 ↔
      s.mass i = 0 ∨ s.mass j = 0 ∨ (s.pos i).along a = (s.pos j).along a := by
  have hne := (sqrt_distSixth_pos hsqrt s i j).ne'
  rw [pairWeight, div_eq_zero_iff, or_iff_left hne, mul_eq_zero, mul_eq_zero,
    pow_eq_zero_iff two_ne_zero, distance, sub_eq_zero, or_assoc]

/-- Where no mass is negative, momentum is only conserved by a single lump of bodies. -/
theorem balanced_iff_coincident {kN : Nat} (hmass : ∀ i, i < kN → 0 ≤ s.mass i) :
    Balanced sqrt kN s ↔ Coincident kN s := by
  have hpairs : ∀ a, (∑ i ∈ Finset.range kN, ∑ j ∈ Finset.range i, pairWeight sqrt s a i j = 0 ↔
      ∀ i j, j < i → i < kN → pairWeight sqrt s a i j = 0) := by
    intro a
    exact sum_pairs_eq_zero_iff fun i j hj hi =>
      pairWeight_nonneg hsqrt s a (hmass i hi) (hmass j (hj.trans hi))
  simp only [Balanced, hpairs, pairWeight_eq_zero_iff hsqrt]
  constructor
  · intro h i j hi hj hmi hmj
    rw [Vec3.eq_iff_along]
    intro a
    rcases Nat.lt_trichotomy j i with hlt | rfl | hlt
    · exact ((h a i j hlt hi).resolve_left hmi).resolve_left hmj
    · rfl
    · exact (((h a j i hlt hj).resolve_left hmj).resolve_left hmi).symm
  · intro h a i j hlt hi
    by_cases hmi : s.mass i = 0
    · exact .inl hmi
    by_cases hmj : s.mass j = 0
    · exact .inr (.inl hmj)
    · exact .inr (.inr (congrArg (Vec3.along · a) (h i j hi (hlt.trans hi) hmi hmj)))

end Weights

/-- A run conserves momentum exactly where the weights of the pairs cancel along every
axis.  With a square root and no negative mass none of them cancels, so only bodies
without mass may be apart. -/
theorem testNBody_momentum (sqrt : F → F) (kN : Nat) (s : Bodies F) :
    (ConservesMomentum sqrt kN s ↔ Balanced sqrt kN s) ∧
      ((∀ x, 0 < x → 0 < sqrt x) → (∀ i, i < kN → 0 ≤ s.mass i) →
        (ConservesMomentum sqrt kN s ↔ Coincident kN s)) := by
  have hiff := conservesMomentum_iff sqrt kN s
  refine ⟨hiff, ?_⟩
  intro hsqrt hmass
  exact hiff.trans (balanced_iff_coincident hsqrt s hmass)

end Conserved

/-- Two resting bodies of mass 1, the second one to the right of the first. -/
def bodiesApart : Bodies ℝ where
  posx i := i
  posy _ := 0
  posz _ := 0
  velx _ := 0
  vely _ := 0
  velz _ := 0
  mass _ := 1

/-- They both move to the right. -/
theorem testNBody_bodiesApart : ¬ ConservesMomentum Real.sqrt 2 bodiesApart := by
  rw [conservesMomentum_iff,
    balanced_iff_coincident (fun _ => Real.sqrt_pos.mpr) bodiesApart fun _ _ => zero_le_one]
  intro h
  have hpos := h 0 1 Nat.two_pos Nat.one_lt_two one_ne_zero one_ne_zero
  have hx : ((0 : Nat) : ℝ) = (1 : Nat) := congrArg Vec3.x hpos
  exact absurd (Nat.cast_injective hx) Nat.zero_ne_one

/-- Two bodies of mass 1 in one place keep their momentum. -/
theorem testNBody_momentum_together :
    ConservesMomentum Real.sqrt 2 { bodiesApart with posx := fun _ => 0 } :=
  ((testNBody_momentum Real.sqrt 2 { bodiesApart with posx := fun _ => 0 }).2
    (fun _ => Real.sqrt_pos.mpr) fun _ _ => zero_le_one).mpr fun _ _ _ _ _ _ => rfl

end VecCore.Bench
