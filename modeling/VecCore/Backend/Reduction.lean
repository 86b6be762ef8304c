/-
  Backend/Reduction.lean --- ReduceMin and ReduceMax of Backend/Implementation.h.

  The minimum is searched from `NumericLimits::Max()` and the maximum from
  `NumericLimits::Lowest()`.  An infinity lies beyond these: a vector whose lanes
  are all `+infinity` has the minimum `Max()`, which no lane holds.
-/
import VecCore.Backend.Implementation
import VecCore.Backend.Limits

set_option autoImplicit false

namespace VecCore

open VecCore.Foundation

variable {V : Nat} {α : Type*}

/-! ## Searching from a sentinel -/

section Search

section Code

variable [LT α] [DecidableLT α]

/-- The loop of `ReduceMin`, started with `init`. -/
def minFrom (init : α) (v : Lanes V α) : α :=
  forLanes V (fun i result => if get v i < result then get v i else result) init

/-- The loop of `ReduceMax`, started with `init`. -/
def maxFrom (init : α) (v : Lanes V α) : α :=
  forLanes V (fun i result => if get v i > result then get v i else result) init

end Code

variable [LinearOrder α]

/-- The search ends with the sentinel or a lane, and below all of them. -/
theorem minFrom_spec (init : α) (v : Lanes V α) :
    (∀ i, minFrom init v ≤ v i) ∧ minFrom init v ≤ init ∧
      (minFrom init v = init ∨ ∃ i, minFrom init v = v i) := by
  let Inv : Nat → α → Prop := fun k r =>
    (∀ i : Fin V, (i : Nat) < k → r ≤ v i) ∧ r ≤ init ∧ (r = init ∨ ∃ i, r = v i)
  have hstep : ∀ (i : Fin V) r, Inv i r →
      Inv (i + 1) (if get v i < r then get v i else r) := by
    rintro i r ⟨hlanes, hinit, hmem⟩
    -- The lane just read is the last one below `i + 1`.
    have hsplit : ∀ j : Fin V, (j : Nat) < i + 1 → (j : Nat) < i ∨ j = i := by
      intro j hj
      rcases Nat.lt_succ_iff_lt_or_eq.mp hj with hlt | heq
      · exact .inl hlt
      · exact .inr (Fin.ext heq)
    by_cases hlt : get v i < r
    · rw [if_pos hlt]
      refine ⟨?_, hlt.le.trans hinit, .inr ⟨i, rfl⟩⟩
      intro j hj
      rcases hsplit j hj with hold | rfl
      · exact hlt.le.trans (hlanes j hold)
      · exact le_refl _
    · rw [if_neg hlt]
      refine ⟨?_, hinit, hmem⟩
      intro j hj
      rcases hsplit j hj with hold | rfl
      · exact hlanes j hold
      · exact not_lt.mp hlt
  have hinv : Inv V (minFrom init v) := forLanes_invariant Inv V hstep
    ⟨fun i hi => absurd hi (Nat.not_lt_zero _), le_refl _, .inl rfl⟩
  exact ⟨fun i => hinv.1 i i.isLt, hinv.2⟩

theorem maxFrom_spec (init : α) (v : Lanes V α) :
    (∀ i, v i ≤ maxFrom init v) ∧ init ≤ maxFrom init v ∧
      (maxFrom init v = init ∨ ∃ i, maxFrom init v = v i) :=
  minFrom_spec (α := αᵒᵈ) init v

/-- The search ends with a lane exactly when the sentinel bounds a lane. -/
theorem minFrom_mem_iff (init : α) (v : Lanes V α) :
    (∃ i, minFrom init v = v i) ↔ ∃ i, v i ≤ init := by
  obtain ⟨hlanes, hinit, hmem⟩ := minFrom_spec init v
  constructor
  · rintro ⟨i, hi⟩
    exact ⟨i, hi ▸ hinit⟩
  · rintro ⟨i, hi⟩
    rcases hmem with hsentinel | hlane
    · exact ⟨i, le_antisymm (hlanes i) (hi.trans hsentinel.ge)⟩
    · exact hlane

theorem maxFrom_mem_iff (init : α) (v : Lanes V α) :
    (∃ i, maxFrom init v = v i) ↔ ∃ i, init ≤ v i :=
  minFrom_mem_iff (α := αᵒᵈ) init v

end Search

/-! ## ReduceMin and ReduceMax -/

variable {T : ScalarType}

/-- `ReduceMin`. -/
def reduceMin (v : Lanes V T.Value) : T.Value := minFrom T.max v

/-- `ReduceMax`. -/
def reduceMax (v : Lanes V T.Value) : T.Value := maxFrom T.lowest v

/-- What the reductions are for: extreme values among the lanes. -/
def ReducesToExtremes (v : Lanes V T.Value) : Prop :=
  ((∃ i, reduceMin v = v i) ∧ ∀ i, reduceMin v ≤ v i) ∧
    ((∃ i, reduceMax v = v i) ∧ ∀ i, v i ≤ reduceMax v)

/-- The reductions find extreme lanes unless all lanes are the infinity beyond
the sentinel. -/
theorem reducesToExtremes_iff (v : Lanes V T.Value) :
    ReducesToExtremes v ↔
      (¬ ∀ i, ScalarType.IsPosInf (v i)) ∧ ¬ ∀ i, ScalarType.IsNegInf (v i) := by
  have hmin : (∃ i, reduceMin v = v i) ↔ ¬ ∀ i, ScalarType.IsPosInf (v i) := by
    rw [not_forall]
    exact (minFrom_mem_iff T.max v).trans (exists_congr fun i => ScalarType.le_max_iff _)
  have hmax : (∃ i, reduceMax v = v i) ↔ ¬ ∀ i, ScalarType.IsNegInf (v i) := by
    rw [not_forall]
    exact (maxFrom_mem_iff T.lowest v).trans (exists_congr fun i => ScalarType.lowest_le_iff _)
  have hle : ∀ i, reduceMin v ≤ v i := (minFrom_spec T.max v).1
  have hge : ∀ i, v i ≤ reduceMax v := (maxFrom_spec T.lowest v).1
  rw [ReducesToExtremes, hmin, hmax, and_iff_left hle, and_iff_left hge]

/-- The minimum of a single `+infinity` is `FLT_MAX`. -/
theorem not_reducesToExtremes_posInf :
    ¬ ReducesToExtremes (T := .float) (splat FloatFormat.Extended.posInf : Lanes 1 _) := by
  rintro ⟨⟨⟨i, hi⟩, -⟩, -⟩
  have hle : reduceMin (T := .float) (splat FloatFormat.Extended.posInf : Lanes 1 _) ≤
      ScalarType.max .float := (minFrom_spec _ _).2.1
  rw [hi] at hle
  exact (ScalarType.le_max_iff (T := .float) FloatFormat.Extended.posInf).mp hle rfl

end VecCore
