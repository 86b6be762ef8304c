/-
  Backend/MinMax.lean --- the laws of Min, Max, ReduceMin and ReduceMax.

  `Min` and `Max` blend under a comparison, so that every lane is the minimum or
  the maximum of its arguments; `ReduceMin` and `ReduceMax` combine the lanes of
  one vector.  The lower bounds of both are those of all values combined, in
  whatever order, which is what makes the two directions of combining commute.
-/
import VecCore.Backend.Reduction
import VecCore.Backend.VecMath

set_option autoImplicit false

namespace VecCore

open VecCore.Foundation

variable {V : Nat}

/-! ## Lanes -/

section Lanes

variable {α : Type*} [Zero α] [LinearOrder α]

@[simp] theorem mathMin_apply (a b : Lanes V α) (i : Fin V) :
    mathMin a b i = min (a i) (b i) := by
  unfold mathMin
  simp only [blend_apply, ltLanes_iff]
  rcases lt_or_ge (a i) (b i) with h | h
  · rw [if_pos h, min_eq_left h.le]
  · rw [if_neg (not_lt.mpr h), min_eq_right h]

@[simp] theorem mathMax_apply (a b : Lanes V α) (i : Fin V) :
    mathMax a b i = max (a i) (b i) := by
  unfold mathMax
  simp only [blend_apply, ltLanes_iff]
  rcases lt_or_ge (b i) (a i) with h | h
  · rw [if_pos h, max_eq_left h.le]
  · rw [if_neg (not_lt.mpr h), max_eq_right h]

@[simp] theorem mathMin3_apply (a b c : Lanes V α) (i : Fin V) :
    mathMin3 a b c i = min (a i) (min (b i) (c i)) := by
  rw [mathMin3, mathMin_apply, mathMin_apply]

@[simp] theorem mathMax3_apply (a b c : Lanes V α) (i : Fin V) :
    mathMax3 a b c i = max (a i) (max (b i) (c i)) := by
  rw [mathMax3, mathMax_apply, mathMax_apply]

/-- The lower bounds of a lane of `Min` are those of the three arguments there. -/
theorem le_mathMin3_iff (v : Fin 3 → Lanes V α) (i : Fin V) (x : α) :
    x ≤ mathMin3 (v 0) (v 1) (v 2) i ↔ ∀ k, x ≤ v k i := by
  simp only [mathMin3_apply, le_min_iff, Fin.forall_fin_succ, Fin.forall_fin_zero, and_true]
  rfl

theorem mathMax3_le_iff (v : Fin 3 → Lanes V α) (i : Fin V) (x : α) :
    mathMax3 (v 0) (v 1) (v 2) i ≤ x ↔ ∀ k, v k i ≤ x := by
  simp only [mathMax3_apply, max_le_iff, Fin.forall_fin_succ, Fin.forall_fin_zero, and_true]
  rfl

/-- `Min` does not depend on the order of its arguments. -/
theorem mathMin3_perm (v : Fin 3 → Lanes V α) (σ : Equiv.Perm (Fin 3)) :
    mathMin3 (v (σ 0)) (v (σ 1)) (v (σ 2)) = mathMin3 (v 0) (v 1) (v 2) := by
  funext i
  apply eq_of_forall_le_iff
  intro x
  rw [le_mathMin3_iff (fun k => v (σ k)), le_mathMin3_iff]
  exact σ.forall_congr_right (q := fun k => x ≤ v k i)

theorem mathMax3_perm (v : Fin 3 → Lanes V α) (σ : Equiv.Perm (Fin 3)) :
    mathMax3 (v (σ 0)) (v (σ 1)) (v (σ 2)) = mathMax3 (v 0) (v 1) (v 2) := by
  funext i
  apply eq_of_forall_ge_iff
  intro x
  rw [mathMax3_le_iff (fun k => v (σ k)), mathMax3_le_iff]
  exact σ.forall_congr_right (q := fun k => v k i ≤ x)

/-- Clamping from either side first. -/
theorem mathMax_mathMin_comm {lo hi : Lanes V α} (h : ∀ i, lo i ≤ hi i) (a : Lanes V α) :
    mathMax lo (mathMin hi a) = mathMin hi (mathMax lo a) := by
  funext i
  rw [mathMax_apply, mathMin_apply, mathMin_apply, mathMax_apply, max_min_distrib_left,
    max_eq_right (h i)]

end Lanes

/-! ## Reductions -/

section Reductions

variable {α : Type*} [LinearOrder α]

/-- The lower bounds of a search are those of the sentinel and the lanes. -/
theorem le_minFrom_iff (init : α) (v : Lanes V α) (x : α) :
    x ≤ minFrom init v ↔ x ≤ init ∧ ∀ i, x ≤ v i := by
  obtain ⟨hlanes, hinit, hmem⟩ := minFrom_spec init v
  constructor
  · intro h
    exact ⟨h.trans hinit, fun i => h.trans (hlanes i)⟩
  · rintro ⟨hx, hv⟩
    rcases hmem with hsentinel | ⟨i, hi⟩
    · exact hx.trans hsentinel.ge
    · exact (hv i).trans hi.ge

/-- Searching the lanewise minimum is searching both vectors. -/
theorem minFrom_min (init : α) (a b : Lanes V α) :
    minFrom init (fun i => min (a i) (b i)) = min (minFrom init a) (minFrom init b) := by
  apply eq_of_forall_le_iff
  intro x
  simp only [le_min_iff, le_minFrom_iff, forall_and]
  constructor
  · rintro ⟨hx, ha, hb⟩
    exact ⟨⟨hx, ha⟩, hx, hb⟩
  · rintro ⟨⟨hx, ha⟩, -, hb⟩
    exact ⟨hx, ha, hb⟩

theorem maxFrom_max (init : α) (a b : Lanes V α) :
    maxFrom init (fun i => max (a i) (b i)) = max (maxFrom init a) (maxFrom init b) :=
  minFrom_min (α := αᵒᵈ) init a b

/-- Larger lanes have a larger minimum. -/
theorem minFrom_mono (init : α) {a b : Lanes V α} (h : ∀ i, a i ≤ b i) :
    minFrom init a ≤ minFrom init b := by
  obtain ⟨hlanes, hinit, -⟩ := minFrom_spec init a
  exact (le_minFrom_iff init b _).mpr ⟨hinit, fun i => (hlanes i).trans (h i)⟩

theorem maxFrom_mono (init : α) {a b : Lanes V α} (h : ∀ i, a i ≤ b i) :
    maxFrom init a ≤ maxFrom init b :=
  minFrom_mono (α := αᵒᵈ) init h

variable {T : ScalarType}

/-- `ReduceMin` of `Min` is the minimum of the reductions. -/
theorem reduceMin_mathMin3 (a b c : Lanes V T.Value) :
    reduceMin (mathMin3 a b c) = min (reduceMin a) (min (reduceMin b) (reduceMin c)) := by
  unfold reduceMin
  rw [← minFrom_min, ← minFrom_min]
  exact congrArg _ (funext fun i => mathMin3_apply a b c i)

theorem reduceMax_mathMax3 (a b c : Lanes V T.Value) :
    reduceMax (mathMax3 a b c) = max (reduceMax a) (max (reduceMax b) (reduceMax c)) := by
  unfold reduceMax
  rw [← maxFrom_max, ← maxFrom_max]
  exact congrArg _ (funext fun i => mathMax3_apply a b c i)

end Reductions

/-- Between `lo` and `hi`, clamping commutes and stays between their extremes. -/
theorem reduce_clamp {T : ScalarType} {lo hi : Lanes V T.Value} (h : ∀ i, lo i ≤ hi i)
    (a : Lanes V T.Value) :
    mathMax lo (mathMin hi a) = mathMin hi (mathMax lo a) ∧
      reduceMin lo ≤ reduceMin (mathMax lo (mathMin hi a)) ∧
      reduceMax (mathMax lo (mathMin hi a)) ≤ reduceMax hi := by
  refine ⟨mathMax_mathMin_comm h a, minFrom_mono T.max ?_, maxFrom_mono T.lowest ?_⟩
  · intro i
    rw [mathMax_apply]
    exact le_max_left _ _
  · intro i
    rw [mathMax_apply, mathMin_apply]
    exact max_le (h i) (min_le_left _ _)

/-! ## Integer lanes -/

/-- The laws of `Min`, `Max` and the reductions on vectors of an integer type. -/
theorem minMax_laws (t : IntTy) (v : Fin 3 → Lanes V (ScalarType.integer t).Value)
    {lo hi : Lanes V (ScalarType.integer t).Value} (hlohi : ∀ i, lo i ≤ hi i)
    (a : Lanes V (ScalarType.integer t).Value) :
    ((∀ σ : Equiv.Perm (Fin 3),
        mathMin3 (v (σ 0)) (v (σ 1)) (v (σ 2)) = mathMin3 (v 0) (v 1) (v 2) ∧
          mathMax3 (v (σ 0)) (v (σ 1)) (v (σ 2)) = mathMax3 (v 0) (v 1) (v 2)) ∧
      ∀ i, mathMin3 (v 0) (v 1) (v 2) i = min (v 0 i) (min (v 1 i) (v 2 i)) ∧
        mathMax3 (v 0) (v 1) (v 2) i = max (v 0 i) (max (v 1 i) (v 2 i))) ∧
    (reduceMin (mathMin3 (v 0) (v 1) (v 2)) =
        min (reduceMin (v 0)) (min (reduceMin (v 1)) (reduceMin (v 2))) ∧
      reduceMax (mathMax3 (v 0) (v 1) (v 2)) =
        max (reduceMax (v 0)) (max (reduceMax (v 1)) (reduceMax (v 2)))) ∧
    mathMax lo (mathMin hi a) = mathMin hi (mathMax lo a) ∧
      reduceMin lo ≤ reduceMin (mathMax lo (mathMin hi a)) ∧
      reduceMax (mathMax lo (mathMin hi a)) ≤ reduceMax hi := by
  refine ⟨⟨?_, ?_⟩, ⟨reduceMin_mathMin3 _ _ _, reduceMax_mathMax3 _ _ _⟩,
    reduce_clamp hlohi a⟩
  · intro σ
    exact ⟨mathMin3_perm v σ, mathMax3_perm v σ⟩
  · intro i
    exact ⟨mathMin3_apply _ _ _ i, mathMax3_apply _ _ _ i⟩

/-- Two lanes of `int16_t`, clamped to what they are. -/
theorem minMax_laws_int16 :
    mathMax (V := 2) (α := (ScalarType.integer .int16).Value) (splat ⟨-5, by decide⟩)
        (mathMin (splat ⟨7, by decide⟩) (splat ⟨9, by decide⟩)) =
      mathMin (splat ⟨7, by decide⟩) (mathMax (splat ⟨-5, by decide⟩) (splat ⟨9, by decide⟩)) :=
  (minMax_laws .int16 (fun _ => splat ⟨0, by decide⟩)
    (fun _ => show (-5 : Int) ≤ 7 by decide) _).2.2.1

/-! ## The scalar branch -/

namespace Scalar

variable {α : Type*} [Zero α] [LinearOrder α]

/-- `Min(a, b)` on a scalar type. -/
def mathMin (a b : α) : α := blend (decide (a < b)) a b

/-- `Max(a, b)` on a scalar type. -/
def mathMax (a b : α) : α := blend (decide (a > b)) a b

/-- The scalar branch of `Blend` makes them the case of one lane. -/
theorem splat_mathMin (a b : α) :
    (splat (mathMin a b) : Lanes 1 α) = VecCore.mathMin (splat a) (splat b) := by
  funext i
  rw [mathMin_apply, splat_apply, splat_apply, splat_apply, min_def_lt]
  exact if_congr decide_eq_true_iff rfl rfl

theorem splat_mathMax (a b : α) :
    (splat (mathMax a b) : Lanes 1 α) = VecCore.mathMax (splat a) (splat b) := by
  funext i
  rw [mathMax_apply, splat_apply, splat_apply, splat_apply, max_comm, max_def_lt]
  exact if_congr decide_eq_true_iff rfl rfl

end Scalar

end VecCore
