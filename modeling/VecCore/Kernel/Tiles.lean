/-
  Kernel/Tiles.lean --- running a kernel over arrays, tile by tile.

  A tile reads and writes its own positions only, so that a run computes at
  every position what its tile computes from the initial arrays.  With the
  lanes of a tile being scalar runs, all vector lengths give the same arrays.
-/
import VecCore.Kernel.Simulation

set_option autoImplicit false

namespace VecCore.Kernel

open VecCore.Foundation

variable {α : Type}

/-- A position of the tile at `j` is the position of a lane. -/
theorem exists_lane {V j p : Nat} (hle : j ≤ p) (hlt : p < j + V) :
    ∃ i : Fin V, p = j + i :=
  ⟨⟨p - j, Nat.sub_lt_left_of_lt_add hle hlt⟩, (Nat.add_sub_cancel' hle).symm⟩

/-! ## Backends whose loads and stores stay within the tile -/

/-- `Load` reads and `Store` writes the positions of the tile, and nothing else. -/
structure Backend.Local (B : Backend α) : Prop where
  load_congr : ∀ v ptr ptr' j, (∀ p, j ≤ p → p < j + B.size → ptr p = ptr' p) →
    B.load v ptr j = B.load v ptr' j
  store_congr : ∀ v ptr ptr' j p, j ≤ p → p < j + B.size →
    B.store v ptr j p = B.store v ptr' j p
  store_frame : ∀ v ptr j p, p < j ∨ j + B.size ≤ p → B.store v ptr j p = ptr p

theorem vectorBackend_local (V : Nat) [Zero α] : (vectorBackend V α).Local where
  load_congr v ptr ptr' j h := funext fun i => by
    refine (load_apply (α := α) v ptr j i).trans ((h _ ?_ ?_).trans (load_apply v ptr' j i).symm)
    · omega
    · exact Nat.add_lt_add_left i.isLt j
  store_congr v ptr ptr' j p hle hlt := by
    obtain ⟨i, rfl⟩ := exists_lane (V := V) hle hlt
    exact (store_apply (α := α) v ptr j _).trans (store_apply (α := α) v ptr' j _).symm
  store_frame v ptr j p h := store_of_not_mem (α := α) v ptr j h

theorem scalarBackend_local : (scalarBackend α).Local where
  load_congr _ _ _ j h := h j (Nat.le_refl j) (Nat.lt_succ_self j)
  store_congr v ptr ptr' j p hle hlt := by
    obtain rfl : p = j := Nat.le_antisymm (Nat.le_of_lt_succ hlt) hle
    exact (Function.update_self (β := fun _ => α) p v ptr).trans
      (Function.update_self (β := fun _ => α) p v ptr').symm
  store_frame v ptr j p h := Function.update_of_ne (β := fun _ => α)
    (by have : (scalarBackend α).size = 1 := rfl; omega) v ptr

/-- The arrays when the positions below `j` have their result. -/
def doneBelow (result mem : Arrays α) (j : Nat) : Arrays α :=
  fun a p => if p < j then result a p else mem a p

section Local

variable {B : Backend α} (hB : B.Local) (ops : ScalarOps α)

include hB

theorem loadInputs_congr (inputs : List (Nat × Nat)) {mem mem' : Arrays α} {j : Nat}
    (h : ∀ a p, j ≤ p → p < j + B.size → mem a p = mem' a p) (σ : Locals B) :
    loadInputs B mem j inputs σ = loadInputs B mem' j inputs σ := by
  induction inputs generalizing σ with
  | nil => rfl
  | cons io inputs ih =>
    rw [loadInputs, hB.load_congr _ _ _ _ (h io.2)]
    exact ih _

theorem storeOutputs_frame (outputs : List (Nat × Nat)) (σ : Locals B) {j p : Nat}
    (hp : p < j ∨ j + B.size ≤ p) (mem : Arrays α) (a : Nat) :
    storeOutputs B σ j outputs mem a p = mem a p := by
  induction outputs generalizing mem with
  | nil => rfl
  | cons io outputs ih =>
    refine (ih _).trans ?_
    by_cases ha : a = io.2
    · rw [ha, Function.update_self, hB.store_frame _ _ _ _ hp]
    · rw [Function.update_of_ne ha]

theorem storeOutputs_congr (outputs : List (Nat × Nat)) (σ : Locals B) {j p : Nat}
    (hle : j ≤ p) (hlt : p < j + B.size) {mem mem' : Arrays α}
    (h : ∀ a, mem a p = mem' a p) (a : Nat) :
    storeOutputs B σ j outputs mem a p = storeOutputs B σ j outputs mem' a p := by
  induction outputs generalizing mem mem' with
  | nil => exact h a
  | cons io outputs ih =>
    apply ih
    intro a
    by_cases ha : a = io.2
    · rw [ha, Function.update_self, Function.update_self]
      exact hB.store_congr _ _ _ _ _ hle hlt
    · rw [Function.update_of_ne ha, Function.update_of_ne ha]
      exact h a

/-- A tile depends on the arrays at its own positions. -/
theorem runTile_congr (K : Kernel α) (garbage : Locals B) {j : Nat} {mem mem' : Arrays α}
    (h : ∀ a p, j ≤ p → p < j + B.size → mem a p = mem' a p) {p : Nat} (hle : j ≤ p)
    (hlt : p < j + B.size) (a : Nat) :
    runTile B ops K garbage j mem a p = runTile B ops K garbage j mem' a p := by
  rw [runTile, runTile, loadInputs_congr hB K.inputs h]
  exact storeOutputs_congr hB K.outputs _ hle hlt (fun a => h a p hle hlt) a

/-- A run computes at every position what the tile of the position computes from
the initial arrays, and leaves the other positions alone. -/
theorem run_eq (hsize : 0 < B.size) (K : Kernel α) (garbage : Nat → Locals B) {N : Nat}
    (hdvd : B.size ∣ N) (mem result : Arrays α)
    (htile : ∀ j, B.size ∣ j → j + B.size ≤ N → ∀ a p, j ≤ p → p < j + B.size →
      runTile B ops K (garbage j) j mem a p = result a p) :
    run B ops K garbage N mem = some (doneBelow result mem N) := by
  have htileStep : ∀ j m, B.size ∣ j → j + B.size ≤ N → m = doneBelow result mem j → ∃ m',
      some (runTile B ops K (garbage j) j m) = some m' ∧
        m' = doneBelow result mem (j + B.size) := by
    intro j m hj hle hm
    refine ⟨_, rfl, ?_⟩
    funext a p
    by_cases hin : j ≤ p ∧ p < j + B.size
    · rw [doneBelow, if_pos hin.2, ← htile j hj hle a p hin.1 hin.2]
      refine runTile_congr hB ops K (garbage j) ?_ hin.1 hin.2 a
      intro a p hp _
      rw [hm]
      exact if_neg (Nat.not_lt.mpr hp)
    · rw [runTile, storeOutputs_frame hB _ _ (by omega), hm]
      simp only [doneBelow]
      by_cases hlt : p < j
      · rw [if_pos hlt, if_pos (by omega)]
      · rw [if_neg hlt, if_neg (by omega)]
  obtain ⟨m, hrun, hm⟩ :=
    forLoop_of_dvd (fun j m => m = doneBelow result mem j) hsize hdvd htileStep
      (funext fun a => funext fun p => (if_neg (Nat.not_lt_zero p)).symm)
  rw [run, hrun, hm]

end Local

/-! ## The lanes of a tile -/

section Vector

variable {V : Nat} [Zero α] (ops : ScalarOps α)

theorem loadInputs_lane {i : Fin V} {mem : Arrays α} {j : Nat} (used : Set Name)
    (inputs : List (Nat × Nat)) {σ : Locals (vectorBackend V α)} {τ : Locals (scalarBackend α)}
    (h : AgreeOn used i σ τ) :
    AgreeOn (used ∪ names inputs) i (loadInputs (vectorBackend V α) mem j inputs σ)
      (loadInputs (scalarBackend α) mem (j + i) inputs τ) := by
  induction inputs generalizing used σ τ with
  | nil => exact h.mono fun n hn => hn.elim id fun ⟨_, hio, _⟩ => absurd hio (List.not_mem_nil)
  | cons io inputs ih =>
    have hload : AgreeOn (used ∪ {⟨.vec, io.1⟩}) i
        (Function.update σ ⟨.vec, io.1⟩
          ((vectorBackend V α).load (σ ⟨.vec, io.1⟩) (mem io.2) j))
        (Function.update τ ⟨.vec, io.1⟩
          ((scalarBackend α).load (τ ⟨.vec, io.1⟩) (mem io.2) (j + i))) :=
      (h.mono fun n hn => hn.1.resolve_right hn.2).update fun _ =>
        load_apply (α := α) _ (mem io.2) j i
    refine (ih _ hload).mono ?_
    rintro n (hn | ⟨io', hio', rfl⟩)
    · exact .inl (.inl hn)
    · rcases List.mem_cons.mp hio' with rfl | htail
      · exact .inl (.inr rfl)
      · exact .inr ⟨io', htail, rfl⟩

theorem storeOutputs_lane {i : Fin V} {j : Nat} {σ : Locals (vectorBackend V α)}
    {τ : Locals (scalarBackend α)} (outputs : List (Nat × Nat))
    (h : AgreeOn (names outputs) i σ τ) {mem mem' : Arrays α}
    (hmem : ∀ a, mem a (j + i) = mem' a (j + i)) (a : Nat) :
    storeOutputs (vectorBackend V α) σ j outputs mem a (j + i) =
      storeOutputs (scalarBackend α) τ (j + i) outputs mem' a (j + i) := by
  induction outputs generalizing mem mem' with
  | nil => exact hmem a
  | cons io outputs ih =>
    apply ih (h.mono fun n ⟨io', hio', hn⟩ => ⟨io', List.mem_cons_of_mem _ hio', hn⟩)
    intro a
    by_cases ha : a = io.2
    · rw [ha, Function.update_self, Function.update_self]
      refine (store_apply (α := α) _ _ j i).trans ?_
      refine (h _ ⟨io, List.mem_cons_self, rfl⟩).trans ?_
      exact (Function.update_self (β := fun _ => α) _ _ _).symm
    · rw [Function.update_of_ne ha, Function.update_of_ne ha]
      exact hmem a

/-- The tile at `j` computes in lane `i` what the scalar kernel computes at
position `j + i`. -/
theorem runTile_lane (K : Kernel α) {i : Fin V} {j : Nat} (mem : Arrays α)
    (garbage : Locals (vectorBackend V α)) (garbage' : Locals (scalarBackend α))
    (hguard : GuardsRespected ops (names K.outputs) K.body
      (loadInputs (vectorBackend V α) mem j K.inputs garbage)) (a : Nat) :
    runTile (vectorBackend V α) ops K garbage j mem a (j + i) =
      runTile (scalarBackend α) ops K garbage' (j + i) mem a (j + i) := by
  have hload : AgreeOn (names K.inputs) i
      (loadInputs (vectorBackend V α) mem j K.inputs garbage)
      (loadInputs (scalarBackend α) mem (j + i) K.inputs garbage') :=
    (loadInputs_lane ∅ K.inputs fun _ hn => hn.elim).mono Set.subset_union_right
  exact storeOutputs_lane K.outputs
    (exec_lane ops K.body _ _ (hload.mono K.initialised) hguard) (fun _ => rfl) a

/-- The tiled run of a kernel leaves in the arrays what the element-by-element
run with the Scalar backend leaves, for every vector length that divides the
array length, and changes nothing beyond that length. -/
theorem run_vector_eq_scalar (K : Kernel α) (N : Nat) (mem : Arrays α)
    (garbage' : Nat → Locals (scalarBackend α)) :
    ∃ result, run (scalarBackend α) ops K garbage' N mem = some result ∧
      (∀ a p, N ≤ p → result a p = mem a p) ∧
      ∀ (V : Nat) (garbage : Nat → Locals (vectorBackend V α)), 0 < V → V ∣ N →
        (∀ j, V ∣ j → j < N → GuardsRespected ops (names K.outputs) K.body
          (loadInputs (vectorBackend V α) mem j K.inputs (garbage j))) →
        run (vectorBackend V α) ops K garbage N mem = some result := by
  refine ⟨_, run_eq scalarBackend_local ops Nat.one_pos K garbage' (Nat.one_dvd N) mem
    (fun a p => runTile (scalarBackend α) ops K (garbage' p) p mem a p)
    ?_, fun a p hp => if_neg (Nat.not_lt.mpr hp), ?_⟩
  · intro j _ _ a p hle hlt
    obtain rfl : p = j := Nat.le_antisymm (Nat.le_of_lt_succ hlt) hle
    rfl
  · intro V garbage hV hdvd hguard
    apply run_eq (vectorBackend_local V) ops hV K garbage hdvd mem
    intro j hj hle a p hjp hpj
    obtain ⟨i, rfl⟩ := exists_lane (V := V) hjp hpj
    exact runTile_lane ops K mem (garbage j) _
      (hguard j hj (Nat.lt_of_lt_of_le (Nat.lt_add_of_pos_right hV) hle)) a

end Vector

/-! ## The kernel of the API documentation -/

/-- `Clamp`: set the negative elements of an array to 0, in place. -/
def Clamp : Kernel Int where
  inputs := [(0, 0)]
  body :=
    .assign .mask 0 (.cmp .lt (.var .vec 0) (.const 0)) <|
    .ifNotEmpty (.var .mask 0) (.maskedAssign 0 (.var .mask 0) (.const 0) .done) .done
  outputs := [(0, 0)]
  initialised := by
    intro n hn
    simpa [Block.live, Expr.reads, names] using hn

/-- Integer arithmetic; `Clamp` calls no standard function. -/
def intOps : ScalarOps Int where
  neg x := -x
  arith
    | .add => (· + ·)
    | .sub => (· - ·)
    | .mul => (· * ·)
    | .div => Int.tdiv
  cmp := CmpOp.holds
  unary _ x := x
  binary _ x _ := x

theorem Clamp_guardsRespected {V : Nat} (σ : Locals (vectorBackend V Int)) :
    GuardsRespected intOps (names Clamp.outputs) Clamp.body σ :=
  ⟨fun _ => ⟨⟨fun _ _ h => h, trivial⟩, trivial⟩, trivial⟩

/-- Variables that hold 0 and false. -/
def zeroLocals (B : Backend Int) (falseMask : B.Val .mask) : Locals B
  | ⟨.vec, _⟩ => B.const 0
  | ⟨.mask, _⟩ => falseMask

theorem run_vector_eq_scalar_Clamp :
    ∃ result,
      run (scalarBackend Int) intOps Clamp (fun _ => zeroLocals _ false) 4
        (fun _ p => (p : Int) - 2) = some result ∧
      run (vectorBackend 2 Int) intOps Clamp (fun _ => zeroLocals _ (splat false)) 4
        (fun _ p => (p : Int) - 2) = some result := by
  obtain ⟨result, hscalar, -, hvector⟩ :=
    run_vector_eq_scalar intOps Clamp 4 (fun _ p => (p : Int) - 2)
      (fun _ => zeroLocals _ false)
  exact ⟨result, hscalar, hvector 2 _ (by decide) (by decide) fun _ _ _ =>
    Clamp_guardsRespected _⟩

end VecCore.Kernel
