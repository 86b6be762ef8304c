/-
  Kernel/LoopTiles.lean --- running kernels with loops over arrays, and one after
  the other.

  A tile of a kernel is local to its positions, loops or not.  So the vector
  length does not show in the arrays, and a series of kernels, each run over the
  arrays with its own vector length, is one loop over the elements.
-/
import VecCore.Kernel.Loops
import VecCore.Kernel.Tiles
import VecCore.Foundation.TileMap

set_option autoImplicit false

namespace VecCore.Kernel

open VecCore.Foundation

variable {α : Type}

/-! ## Kernels with loops -/

/-- A kernel whose body may have loops. -/
structure LoopKernel (α : Type) where
  inputs : List (Nat × Nat)
  body : Program α
  outputs : List (Nat × Nat)
  initialised : body.live (names outputs) ⊆ names inputs

namespace LoopKernel

section Run

variable (B : Backend α) (ops : ScalarOps α)

/-- Load, kernel, Store at offset `j`. -/
def runTile (K : LoopKernel α) (garbage : Nat → Locals B) (j : Nat) (mem : Arrays α) :
    Arrays α :=
  storeOutputs B (K.body.exec B ops (loadInputs B mem j K.inputs (garbage j))) j K.outputs mem

/-- `for (size_t j = 0; j < N; j += VectorSize<T>())` over the tiles. -/
def run (K : LoopKernel α) (garbage : Nat → Locals B) (N : Nat) (mem : Arrays α) :
    Option (Arrays α) :=
  forLoop B.size N (fun j mem => some (K.runTile B ops garbage j mem)) 0 mem

variable {B}

theorem runTile_local (hB : B.Local) (K : LoopKernel α) (garbage : Nat → Locals B) :
    TileLocal B.size (K.runTile B ops garbage) where
  congr j mem mem' hmem a p hle hlt := by
    rw [runTile, runTile, loadInputs_congr hB K.inputs hmem]
    exact storeOutputs_congr hB K.outputs _ hle hlt (fun b => hmem b p hle hlt) a
  frame j mem a p hp := storeOutputs_frame hB K.outputs _ hp mem a

theorem run_eq_tiled (hB : B.Local) (hsize : 0 < B.size) (K : LoopKernel α)
    (garbage : Nat → Locals B) {N : Nat} (hdvd : B.size ∣ N) (mem : Arrays α) :
    K.run B ops garbage N mem = some (tiled B.size (K.runTile B ops garbage) N mem) :=
  forLoop_tiled (K.runTile_local ops hB garbage) hsize hdvd mem

end Run

/-! ## The lanes of a tile -/

section Vector

variable {V : Nat} [Zero α] (ops : ScalarOps α)

/-- The tile at `j` respects the masks of the kernel's guards and loops. -/
def RespectedAt (K : LoopKernel α) (garbage : Nat → Locals (vectorBackend V α)) (j : Nat)
    (mem : Arrays α) : Prop :=
  K.body.Respected ops (names K.outputs)
    (loadInputs (vectorBackend V α) mem j K.inputs (garbage j))

/-- The tile at `j` computes in lane `i` what the scalar kernel computes at position
`j + i`. -/
theorem runTile_lane (K : LoopKernel α) {i : Fin V} {j : Nat} (mem : Arrays α)
    (garbage : Nat → Locals (vectorBackend V α)) (garbage' : Nat → Locals (scalarBackend α))
    (hmask : K.RespectedAt ops garbage j mem) (a : Nat) :
    K.runTile (vectorBackend V α) ops garbage j mem a (j + i) =
      K.runTile (scalarBackend α) ops garbage' (j + i) mem a (j + i) := by
  have hload : AgreeOn (names K.inputs) i
      (loadInputs (vectorBackend V α) mem j K.inputs (garbage j))
      (loadInputs (scalarBackend α) mem (j + i) K.inputs (garbage' (j + i))) :=
    (loadInputs_lane ∅ K.inputs fun _ hn => hn.elim).mono Set.subset_union_right
  exact storeOutputs_lane K.outputs
    (K.body.exec_lane ops _ _ (hload.mono K.initialised) hmask) (fun _ => rfl) a

/-- The tiles of the vector run and the elements of the scalar run. -/
theorem tiled_vector_eq_scalar (K : LoopKernel α) (hV : 0 < V) {N : Nat} (hdvd : V ∣ N)
    (mem : Arrays α) (garbage : Nat → Locals (vectorBackend V α))
    (garbage' : Nat → Locals (scalarBackend α))
    (hmask : ∀ j, V ∣ j → j < N → K.RespectedAt ops garbage j mem) :
    tiled V (K.runTile (vectorBackend V α) ops garbage) N mem =
      tiled 1 (K.runTile (scalarBackend α) ops garbage') N mem := by
  apply tiled_eq
  intro p hp a
  obtain ⟨hle, hlt, hN⟩ := tile_bounds hV hdvd hp
  obtain ⟨i, hi⟩ := exists_lane hle hlt
  have hlane := K.runTile_lane ops mem garbage garbage'
    (hmask _ (Nat.dvd_mul_left V _) (Nat.lt_of_le_of_lt hle hp)) (i := i) a
  rw [← hi] at hlane
  rw [hlane, Nat.div_one, Nat.mul_one]

end Vector

end LoopKernel

/-- The tiled run of a kernel with do/while loops leaves in the arrays what the
element-by-element run with the Scalar backend leaves, for every vector length that
divides the array length, and changes nothing beyond that length. -/
theorem loopRun_vector_eq_scalar [Zero α] (ops : ScalarOps α) (K : LoopKernel α) (N : Nat)
    (mem : Arrays α) (garbage' : Nat → Locals (scalarBackend α)) :
    ∃ result, K.run (scalarBackend α) ops garbage' N mem = some result ∧
      (∀ a p, N ≤ p → result a p = mem a p) ∧
      ∀ (V : Nat) (garbage : Nat → Locals (vectorBackend V α)), 0 < V → V ∣ N →
        (∀ j, V ∣ j → j < N → K.RespectedAt ops garbage j mem) →
        K.run (vectorBackend V α) ops garbage N mem = some result := by
  refine ⟨_, K.run_eq_tiled ops scalarBackend_local Nat.one_pos garbage' (Nat.one_dvd N) mem,
    fun a p hp => tiled_of_le hp mem a, ?_⟩
  intro V garbage hV hdvd hmask
  rw [K.run_eq_tiled ops (vectorBackend_local V) hV garbage hdvd mem]
  exact congrArg some (K.tiled_vector_eq_scalar ops hV hdvd mem garbage garbage' hmask)

/-! ## Kernels one after the other -/

section Stages

variable [Zero α] (ops : ScalarOps α)

/-- A kernel with the vector length it is run with; whatever its variables hold, it
respects its masks. -/
structure Stage where
  V : Nat
  hV : 0 < V
  kernel : LoopKernel α
  garbage : Nat → Locals (vectorBackend V α)
  respected : ∀ σ : Locals (vectorBackend V α),
    kernel.body.Respected ops (names kernel.outputs) σ

variable {ops}

/-- The kernels are run over the arrays one after the other. -/
def runStages (N : Nat) : List (Stage ops) → Arrays α → Option (Arrays α)
  | [], mem => some mem
  | s :: stages, mem =>
      (s.kernel.run (vectorBackend s.V α) ops s.garbage N mem).bind (runStages N stages)

/-- All kernels at one element, with the Scalar backend. -/
def elementStages (garbage : Nat → Locals (scalarBackend α)) (p : Nat) :
    List (Stage ops) → Arrays α → Arrays α
  | [], mem => mem
  | s :: stages, mem =>
      elementStages garbage p stages (s.kernel.runTile (scalarBackend α) ops garbage p mem)

theorem elementStages_local (garbage : Nat → Locals (scalarBackend α))
    (stages : List (Stage ops)) :
    TileLocal 1 fun p mem => elementStages garbage p stages mem := by
  induction stages with
  | nil => exact TileLocal.id
  | cons s stages ih =>
    exact (s.kernel.runTile_local ops scalarBackend_local garbage).comp ih

/-- A series of kernels, run one after the other with a vector length each, leaves what
a single loop leaves that takes every element through all the kernels. -/
theorem runStages_eq_elements (garbage : Nat → Locals (scalarBackend α)) {N : Nat}
    (stages : List (Stage ops)) (hdvd : ∀ s ∈ stages, s.V ∣ N) (mem : Arrays α) :
    runStages N stages mem =
      forLoop 1 N (fun p mem => some (elementStages garbage p stages mem)) 0 mem := by
  rw [forLoop_tiled (elementStages_local garbage stages) Nat.one_pos (Nat.one_dvd N)]
  induction stages generalizing mem with
  | nil => exact congrArg some (funext fun a => funext fun p => (ite_self (mem a p)).symm)
  | cons s stages ih =>
    have hV := hdvd s List.mem_cons_self
    rw [runStages, s.kernel.run_eq_tiled ops (vectorBackend_local s.V) s.hV s.garbage hV,
      Option.bind_some, ih fun s' hs' => hdvd s' (List.mem_cons_of_mem s hs')]
    refine congrArg some ?_
    rw [show (vectorBackend s.V α).size = s.V from rfl,
      s.kernel.tiled_vector_eq_scalar ops s.hV hV mem s.garbage garbage
        fun j _ _ => s.respected _]
    exact tiled_tiled (elementStages_local garbage stages) Nat.one_pos (Nat.one_dvd N) mem

end Stages

end VecCore.Kernel
