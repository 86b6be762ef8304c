/-
  Backend/ScatterGather.lean --- a Scatter with repeated indices, and the Gather
  that follows it.

  The lanes are written in order, so that of several lanes with one index the
  last is left in memory.  The specialisations of Backend/SIMD.h do the same as
  long as their index lanes are in the range of the integer type they are
  converted to.
-/
import VecCore.Backend.Conformance
import Mathlib.Data.Finset.Max
import Mathlib.Data.Fintype.Basic

set_option autoImplicit false

namespace VecCore

open VecCore.Foundation

variable {V : Nat} {α β : Type}

/-- What a `Scatter` of `v` to the cells `q` of `ptr`, leaving `ptr'`, and a `Gather`
from there, returning `g`, do. -/
structure ScattersAndGathers (v : Lanes V α) (q : Lanes V Nat) (ptr ptr' : Region α)
    (g : Lanes V α) : Prop where
  /-- The array keeps its extent. -/
  size : ptr'.size = ptr.size
  /-- A cell holds the value of the greatest lane with its index. -/
  last : ∀ j, (∀ k, q k = q j → k ≤ j) → ptr'.cell (q j) = v j
  /-- A cell that is no lane's keeps its content. -/
  frame : ∀ a, (∀ j, q j ≠ a) → ptr'.cell a = ptr.cell a
  /-- The values are read back exactly if lanes with equal indices hold equal ones. -/
  readBack : g = v ↔ ∀ j k, q j = q k → v j = v k

/-- Every lane has a greatest lane with the same index. -/
theorem exists_greatest_lane (q : Lanes V Nat) (j : Fin V) :
    ∃ m, q m = q j ∧ ∀ k, q k = q m → k ≤ m := by
  obtain ⟨m, hm, hmax⟩ :=
    (Finset.univ.filter fun k => q k = q j).exists_max_image id ⟨j, by simp⟩
  simp only [Finset.mem_filter, Finset.mem_univ, true_and, id] at hm hmax
  exact ⟨m, hm, fun k hk => hmax k (hk.trans hm)⟩

/-- The loop of a `Scatter`, and the cells that a `Gather` reads afterwards. -/
theorem forLanes_scattersAndGathers (v : Lanes V α) (q : Lanes V Nat) (ptr : Region α) :
    let cell := forLanes V (fun i w => Function.update w (q i) (v i)) ptr.cell
    ScattersAndGathers v q ptr { ptr with cell } fun i => cell (q i) := by
  intro cell
  have hlast : ∀ j, (∀ k, q k = q j → k ≤ j) → cell (q j) = v j := fun j hj =>
    forLanes_update_of_last V v ptr.cell hj
  refine ⟨rfl, hlast, ?_, ?_⟩
  · intro a ha
    exact forLanes_update_of_ne V (fun i _ => v i) ptr.cell ha
  constructor
  · intro hg j k hjk
    rw [← congrFun hg j, ← congrFun hg k]
    exact congrArg cell hjk
  · intro hv
    funext j
    obtain ⟨m, hm, hmax⟩ := exists_greatest_lane q j
    show cell (q j) = v j
    rw [← hm, hlast m hmax]
    exact hv m j hm

/-- With the generic functions. -/
theorem scatter_gather [Zero α] (v : Lanes V α) {ptr : Region α} {base : Nat}
    {index : β → Option Int} {idx : Lanes V β} {q : Lanes V Nat}
    (hidx : ∀ i, ∃ a, index (idx i) = some a ∧ base + a = q i) (hq : ∀ i, q i < ptr.size) :
    ∃ ptr' g, scatter v ptr base index idx = some ptr' ∧
      gather ptr' base index idx = some g ∧ ScattersAndGathers v q ptr ptr' g :=
  ⟨_, _, scatter_eq v hidx hq, gatherInto_eq _ hidx hq, forLanes_scattersAndGathers v q ptr⟩

/-- A `Gather` leaves the memory as it was. -/
theorem step_gather_mem {E : ElementType} (A : Api V E) {dst base idx : Nat} {s s' : State V E}
    {r : Reply V E} (h : step A (.gather dst base idx) s = some (r, s')) : s'.mem = s.mem := by
  rw [step] at h
  obtain ⟨x, -, hx⟩ := Option.map_eq_some_iff.mp h
  rw [← (Prod.mk.inj hx).2]
  rfl

/-- A `Scatter` with repeated indices leaves the last lane of each index, a `Gather`
with the same indices reads the vector back exactly if repeated indices have
repeated values, and no `Gather` changes memory.  The specialisations need index
lanes in the range of the integer type that they convert them to. -/
theorem scatter_gather_laws [Zero α] (T : ScalarType) (v : Lanes V α) {ptr : Region α}
    {base : Nat} {index : β → Option Int} {idx : Lanes V β} {q : Lanes V Nat}
    (hidx : ∀ i, ∃ a, index (idx i) = some a ∧ base + a = q i) (hq : ∀ i, q i < ptr.size) :
    (∃ ptr' g, scatter v ptr base index idx = some ptr' ∧
      gather ptr' base index idx = some g ∧ ScattersAndGathers v q ptr ptr' g) ∧
    ((∀ i, Simd.IndexFits T index (idx i)) →
      ∃ ptr' g, Simd.scatter T v ptr base index idx = some ptr' ∧
        Simd.gather T ptr' base index idx = some g ∧ ScattersAndGathers v q ptr ptr' g) ∧
    ∀ (E : ElementType) (A : Api V E) (dst base' idx' : Nat) (s s' : State V E)
      (r : Reply V E), step A (.gather dst base' idx') s = some (r, s') → s'.mem = s.mem := by
  refine ⟨scatter_gather v hidx hq, ?_, fun _ A _ _ _ _ _ _ h => step_gather_mem A h⟩
  intro hfits
  obtain ⟨ptr', g, hscatter, hgather, hlaws⟩ := scatter_gather v hidx hq
  refine ⟨ptr', g, ?_, ?_, hlaws⟩
  · rw [Simd.scatter_eq_generic _ _ _ hfits, hscatter]
  · rw [Simd.gather, Simd.gatherInto_eq_generic _ _ _ hfits]
    exact hgather

/-- Two lanes with index 3, of which the second is left. -/
theorem scatter_gather_laws_repeated :
    ∃ ptr' g, scatter (fun i : Fin 2 => (i : Nat)) ⟨4, fun _ => 7⟩ 0 some
          (splat 3 : Lanes 2 Int) = some ptr' ∧
        gather ptr' 0 some (splat 3 : Lanes 2 Int) = some g ∧
        ScattersAndGathers (fun i : Fin 2 => (i : Nat)) (splat 3) ⟨4, fun _ => 7⟩ ptr' g :=
  (scatter_gather_laws (.integer .int16) (fun i : Fin 2 => (i : Nat)) (q := splat 3)
    (fun _ => ⟨3, rfl, rfl⟩) (by decide)).1

/-- A position that the specialisation's integer type does not have. -/
theorem scatter_splat_eq_none {E : ElementType} {T : ScalarType} {t : IntTy}
    (ht : Simd.castType T = some t) (v : Lanes (V + 1) E.Val) {ptr : Region E.Val} {p : Nat}
    {x : E.Val} (hx : E.index x = some (p : Int)) (hp : ¬ t.Fits p) :
    Simd.scatter T v ptr 0 E.index (splat x) = none := by
  have hcast : Simd.castIndex t E.index (splat x : Lanes (V + 1) E.Val) = none :=
    sequenceLanes_eq_none (i := 0) (by
      rw [splat_apply, hx, Option.bind_some, Simd.castTo, if_neg hp])
  rw [Simd.scatter, ht]
  exact congrArg (Option.bind · _) hcast

/-- With an index lane for such a position, a scatter is undefined in every array,
however large. -/
theorem exists_scatter_eq_none {E : ElementType} {T : ScalarType} {t : IntTy}
    (ht : Simd.castType T = some t) {p : Nat} {x : E.Val} (hx : E.index x = some (p : Int))
    (hp : ¬ t.Fits p) (y : E.Val) :
    ∃ (idx : Lanes 1 E.Val) (q : Lanes 1 Nat) (ptr : Region E.Val),
      (∀ i, ∃ a, E.index (idx i) = some a ∧ ((0 : Nat) : Int) + a = q i) ∧
        (∀ i, q i < ptr.size) ∧
        ∀ v : Lanes 1 E.Val, Simd.scatter T v ptr 0 E.index idx = none := by
  refine ⟨splat x, splat p, ⟨p + 1, fun _ => y⟩, ?_, fun _ => Nat.lt_succ_self p,
    fun v => scatter_splat_eq_none ht v hx hp⟩
  intro i
  exact ⟨p, hx, by rw [splat_apply, Nat.cast_zero, zero_add]⟩

/-- For `float`, a scatter to position 2^31 of an array that has it is undefined. -/
theorem not_scatter_gather_float :
    ¬ ∀ (v idx : Lanes 1 ScalarType.float.element.Val) (q : Lanes 1 Nat)
        (ptr : Region ScalarType.float.element.Val),
      (∀ i, ∃ a, ScalarType.float.element.index (idx i) = some a ∧ ((0 : Nat) : Int) + a = q i) →
      (∀ i, q i < ptr.size) →
      ∃ ptr' g, Simd.scatter .float v ptr 0 ScalarType.float.element.index idx = some ptr' ∧
        Simd.gather .float ptr' 0 ScalarType.float.element.index idx = some g ∧
        ScattersAndGathers v q ptr ptr' g := by
  intro h
  have hindex : ScalarType.float.element.index (.finite (.powTwo (31 : Nat) (by decide))) =
      some ((2 ^ 31 : Nat) : Int) := FloatValue.index_powTwo 31 (by decide)
  obtain ⟨idx, q, ptr, hidx, hq, hnone⟩ :=
    exists_scatter_eq_none (T := .float) rfl hindex (by decide) .nan
  obtain ⟨ptr', -, hscatter, -⟩ := h (splat .nan) idx q ptr hidx hq
  rw [hnone] at hscatter
  exact Option.some_ne_none _ hscatter.symm

end VecCore
