/-
  Bench/NBodySymmetry.lean --- what the runs of bench/nbody.cc preserve.

  An interaction depends on the differences of the positions only, and the bodies
  are treated alike.  So the bodies may be renumbered, displaced and given a common
  velocity before any number of runs or after them.  It adds a multiple of a square
  to the velocity: without negative masses no velocity ever decreases.
-/
import VecCore.Bench.NBodyAVX
import VecCore.Bench.NBodyMomentum
import Mathlib.Algebra.Order.BigOperators.Ring.Finset

set_option autoImplicit false

namespace VecCore.Bench

open VecCore.Foundation

variable {F : Type*}

/-! ## One run, body by body -/

section Run

variable [Field F]

/-- The positions after a run. -/
theorem nextRun_pos (sqrt : F → F) (c : NBodyConstants F) {kN i : Nat} (hi : i < kN)
    (s : Bodies F) (a : Axis) :
    ((nextRun sqrt c kN s).pos i).along a =
      (s.pos i).along a + ((nextRun sqrt c kN s).vel i).along a * c.timeStep := by
  cases a <;> simp only [Bodies.pos, Bodies.vel, nextRun, Bodies.movedTo, Bodies.pushedTo,
    upTo_of_lt hi, Vec3.along]

/-- What body `j` adds to the velocity of body `i` along an axis in a run. -/
def push (sqrt : F → F) (s : Bodies F) (a : Axis) (i j : Nat) : F :=
  distance s a i j * distance s a i j *
    (s.mass j * (1 / sqrt (distSqr s i j * distSqr s i j * distSqr s i j)) * (1 / 10000))

/-- The velocities after a run. -/
theorem nextRun_vel_along (sqrt : F → F) {kN i : Nat} (hi : i < kN) (s : Bodies F)
    (a : Axis) :
    ((nextRun sqrt nbodyConstants kN s).vel i).along a =
      (s.vel i).along a + ∑ j ∈ Finset.range kN, push sqrt s a i j := by
  rw [nextRun_vel sqrt _ hi, pushed, foldl_range_eq_add_sum (fun v : Vec3 F => v.along a) _ _
    (fun v j => pPInteraction_along sqrt s v a i j)]
  rfl

end Run

/-! ## Renumbering, displacement and a common velocity -/

section Symmetry

variable [Field F]

/-- Body `i` of the second system is body `π i` of the first one, displaced by `d` and
with the velocity `w` in addition. -/
structure Transformed (kN : Nat) (π : Nat → Nat) (d w : Axis → F) (s t : Bodies F) : Prop where
  pos : ∀ i, i < kN → ∀ a, (t.pos i).along a = (s.pos (π i)).along a + d a
  vel : ∀ i, i < kN → ∀ a, (t.vel i).along a = (s.vel (π i)).along a + w a
  mass : ∀ i, i < kN → t.mass i = s.mass (π i)

variable {kN : Nat} {π : Nat → Nat} {d w : Axis → F} {s t : Bodies F}

theorem Transformed.distance (h : Transformed kN π d w s t) {i j : Nat} (hi : i < kN)
    (hj : j < kN) (a : Axis) : distance t a i j = Bench.distance s a (π i) (π j) := by
  rw [Bench.distance, h.pos i hi, h.pos j hj, add_sub_add_right_eq_sub]
  rfl

/-- The bodies push each other as before. -/
theorem Transformed.push (h : Transformed kN π d w s t) (sqrt : F → F) {i j : Nat}
    (hi : i < kN) (hj : j < kN) (a : Axis) :
    push sqrt t a i j = Bench.push sqrt s a (π i) (π j) := by
  have hsqr : distSqr t i j = distSqr s (π i) (π j) := by
    simp only [distSqr, h.distance hi hj]
  rw [Bench.push, hsqr, h.distance hi hj, h.mass j hj]
  rfl

/-- One run; the displacement grows by the common velocity. -/
theorem Transformed.nextRun (h : Transformed kN π d w s t)
    (hπ : Set.BijOn π (Finset.range kN) (Finset.range kN)) (sqrt : F → F) :
    Transformed kN π (fun a => d a + w a * (1 / 10000)) w (nextRun sqrt nbodyConstants kN s)
      (nextRun sqrt nbodyConstants kN t) := by
  have hlt : ∀ i, i < kN → π i < kN := by
    intro i hi
    have hmem : π i ∈ Finset.range kN := hπ.mapsTo (Finset.mem_coe.mpr (Finset.mem_range.mpr hi))
    exact Finset.mem_range.mp hmem
  have hsum : ∀ i, i < kN → ∀ a, ∑ j ∈ Finset.range kN, Bench.push sqrt t a i j =
      ∑ j ∈ Finset.range kN, Bench.push sqrt s a (π i) j := by
    intro i hi a
    refine Finset.sum_nbij π (fun j hj => ?_) hπ.injOn hπ.surjOn (fun j hj => ?_)
    · exact Finset.mem_range.mpr (hlt j (Finset.mem_range.mp hj))
    · exact h.push sqrt hi (Finset.mem_range.mp hj) a
  have hvel : ∀ i, i < kN → ∀ a,
      ((Bench.nextRun sqrt nbodyConstants kN t).vel i).along a =
        ((Bench.nextRun sqrt nbodyConstants kN s).vel (π i)).along a + w a := by
    intro i hi a
    rw [nextRun_vel_along sqrt hi, nextRun_vel_along sqrt (hlt i hi), h.vel i hi, hsum i hi,
      add_right_comm]
  refine ⟨fun i hi a => ?_, hvel, h.mass⟩
  rw [nextRun_pos sqrt _ hi, nextRun_pos sqrt _ (hlt i hi), h.pos i hi, hvel i hi]
  simp only [nbodyConstants]
  ring

/-- Systems of bodies that differ by a renumbering, a displacement and a common velocity
differ by the same renumbering and velocity after any number of runs, and by the
displacement that the velocity has added to. -/
theorem testNBody_transformed (sqrt : F → F) (kNruns : Nat)
    (hπ : Set.BijOn π (Finset.range kN) (Finset.range kN)) (h : Transformed kN π d w s t) :
    ∃ s' t', testNBody sqrt nbodyConstants kNruns kN s = some s' ∧
      testNBody sqrt nbodyConstants kNruns kN t = some t' ∧
      Transformed kN π (fun a => d a + kNruns * (w a * (1 / 10000))) w s' t' := by
  have hruns := fun s => NBodyTest.run_eq_iterate sqrt nbodyConstants kNruns .TestNBody
    Nat.one_pos (Nat.one_dvd kN) s
  refine ⟨_, _, hruns s, hruns t, ?_⟩
  clear hruns
  induction kNruns with
  | zero => simpa using h
  | succ n ih =>
    have hd : (fun a => d a + ((n + 1 : Nat) : F) * (w a * (1 / 10000))) =
        fun a => d a + n * (w a * (1 / 10000)) + w a * (1 / 10000) := by
      funext a
      push_cast
      ring
    rw [Function.iterate_succ_apply', Function.iterate_succ_apply', hd]
    exact ih.nextRun hπ sqrt

end Symmetry

/-- Two bodies at rest. -/
def restingPair : Bodies ℚ where
  posx i := i
  posy i := 2 * i
  posz _ := 0
  velx _ := 0
  vely _ := 0
  velz _ := 0
  mass i := i + 1

/-- The two bodies in the other order, displaced along the first axis and moving along
the second. -/
def movingPair : Bodies ℚ where
  posx i := ((1 - i : Nat) : ℚ) + 5
  posy i := 2 * ((1 - i : Nat) : ℚ)
  posz _ := 0
  velx _ := 0
  vely _ := 3
  velz _ := 0
  mass i := ((1 - i : Nat) : ℚ) + 1

theorem testNBody_transformed_pair :
    ∃ s' t', testNBody id nbodyConstants 4 2 restingPair = some s' ∧
      testNBody id nbodyConstants 4 2 movingPair = some t' ∧
      Transformed 2 (fun i => 1 - i)
        (fun a => (⟨5, 0, 0⟩ : Vec3 ℚ).along a +
          ((4 : Nat) : ℚ) * ((⟨0, 3, 0⟩ : Vec3 ℚ).along a * (1 / 10000)))
        (⟨0, 3, 0⟩ : Vec3 ℚ).along s' t' := by
  refine testNBody_transformed id 4 ⟨?_, ?_, ?_⟩ ⟨?_, ?_, fun _ _ => rfl⟩
  · intro i hi
    simp only [Finset.coe_range, Set.mem_Iio] at hi ⊢
    omega
  · intro i hi j hj hij
    simp only [Finset.coe_range, Set.mem_Iio] at hi hj hij
    omega
  · intro i hi
    simp only [Finset.coe_range, Set.mem_Iio, Set.mem_image] at hi ⊢
    exact ⟨1 - i, by omega, by omega⟩
  · rintro i - (_ | _ | _)
    · rfl
    · exact (add_zero _).symm
    · exact (add_zero _).symm
  · rintro i - (_ | _ | _)
    · exact (add_zero _).symm
    · exact (zero_add _).symm
    · exact (add_zero _).symm

/-! ## Velocities never decrease -/

section Monotone

variable [Field F] [LinearOrder F] [IsStrictOrderedRing F]

/-- A body without negative mass pushes towards larger coordinates. -/
theorem push_nonneg {sqrt : F → F} (hsqrt : ∀ x, 0 < x → 0 < sqrt x) (s : Bodies F) (a : Axis)
    {i j : Nat} (hj : 0 ≤ s.mass j) : 0 ≤ push sqrt s a i j := by
  have hroot := (sqrt_distSixth_pos hsqrt s i j).le
  exact mul_nonneg (mul_self_nonneg _)
    (mul_nonneg (mul_nonneg hj (one_div_nonneg.mpr hroot)) (by norm_num))

theorem push_eq_zero_iff {sqrt : F → F} (hsqrt : ∀ x, 0 < x → 0 < sqrt x) (s : Bodies F)
    (a : Axis) (i j : Nat) :
    push sqrt s a i j = 0 ↔ s.mass j = 0 ∨ (s.pos i).along a = (s.pos j).along a := by
  have hroot := (one_div_pos.mpr (sqrt_distSixth_pos hsqrt s i j)).ne'
  have hstep : (1 : F) / 10000 ≠ 0 := by norm_num
  rw [push, mul_eq_zero, mul_self_eq_zero, distance, sub_eq_zero, mul_eq_zero,
    or_iff_left hstep, mul_eq_zero, or_iff_left hroot, or_comm]

/-- With no negative mass no velocity decreases in any run, along any axis, and one stays
as it is only where all bodies that have a mass agree with the body in that coordinate. -/
theorem testNBody_velocity {sqrt : F → F} (hsqrt : ∀ x, 0 < x → 0 < sqrt x) {kN : Nat}
    (s : Bodies F) (hmass : ∀ j, j < kN → 0 ≤ s.mass j) (kNruns : Nat) :
    ∃ s' s'', testNBody sqrt nbodyConstants kNruns kN s = some s' ∧
      testNBody sqrt nbodyConstants (kNruns + 1) kN s = some s'' ∧
      ∀ i, i < kN → ∀ a, (s'.vel i).along a ≤ (s''.vel i).along a ∧
        ((s'.vel i).along a = (s''.vel i).along a ↔
          ∀ j, j < kN → s.mass j ≠ 0 → (s'.pos i).along a = (s'.pos j).along a) := by
  have hruns := fun n => NBodyTest.run_eq_iterate sqrt nbodyConstants n .TestNBody
    Nat.one_pos (Nat.one_dvd kN) s
  refine ⟨_, _, hruns kNruns, hruns (kNruns + 1), ?_⟩
  rw [Function.iterate_succ_apply']
  have hkeep := nextRun_mass sqrt nbodyConstants kN kNruns s
  set s' := (nextRun sqrt nbodyConstants kN)^[kNruns] s
  have hpush : ∀ i a, ∀ j ∈ Finset.range kN, 0 ≤ push sqrt s' a i j := by
    intro i a j hj
    apply push_nonneg hsqrt
    rw [hkeep]
    exact hmass j (Finset.mem_range.mp hj)
  intro i hi a
  rw [nextRun_vel_along sqrt hi]
  refine ⟨le_add_of_nonneg_right (Finset.sum_nonneg (hpush i a)), ?_⟩
  rw [left_eq_add, Finset.sum_eq_zero_iff_of_nonneg (hpush i a)]
  simp only [Finset.mem_range, push_eq_zero_iff hsqrt, hkeep, or_iff_not_imp_left]

end Monotone

/-- Two bodies of mass 1 that are apart, in their fourth run. -/
theorem testNBody_velocity_apart :
    ∃ s' s'', testNBody Real.sqrt nbodyConstants 3 2 bodiesApart = some s' ∧
      testNBody Real.sqrt nbodyConstants 4 2 bodiesApart = some s'' ∧
      ∀ i, i < 2 → ∀ a, (s'.vel i).along a ≤ (s''.vel i).along a ∧
        ((s'.vel i).along a = (s''.vel i).along a ↔
          ∀ j, j < 2 → bodiesApart.mass j ≠ 0 → (s'.pos i).along a = (s'.pos j).along a) :=
  testNBody_velocity (fun _ => Real.sqrt_pos.mpr) bodiesApart (fun _ _ => zero_le_one) 3

end VecCore.Bench
