/-
  Kernel/Threads.lean --- a kernel with the Scalar backend, one thread per element.

  On a GPU the loop over the elements of an array becomes a grid of threads, whose
  reads and writes of the arrays come in any order.  The kernel is the one that runs
  with vectors on the CPU, and it leaves the same arrays.
-/
import VecCore.Kernel.LoopTiles
import VecCore.Foundation.Interleaving

set_option autoImplicit false

namespace VecCore.Kernel

open VecCore.Foundation

variable {α : Type}

/-! ## Threads -/

/-- An operation of a thread: it reads the thread's element of an array, computes with
the thread's variables, or writes the thread's element of an array. -/
inductive ThreadOp (α : Type) where
  | load (x a : Nat)
  | compute (P : Program α)
  | store (x a : Nat)

/-- What a thread has still to do, and its variables. -/
structure Thread (α : Type) where
  todo : List (ThreadOp α)
  locals : Locals (scalarBackend α)

/-- A grid of threads and the arrays they share. -/
structure ThreadGrid (α : Type) where
  threads : Nat → Thread α
  mem : Arrays α

/-- `Load`, kernel, `Store`, at the element of a thread. -/
def LoopKernel.threadCode (K : LoopKernel α) : List (ThreadOp α) :=
  K.inputs.map (fun io => .load io.1 io.2) ++
    .compute K.body :: K.outputs.map fun io => .store io.1 io.2

/-- The kernel is launched with `N` threads. -/
def LoopKernel.launch (K : LoopKernel α) (N : Nat) (garbage : Nat → Locals (scalarBackend α))
    (mem : Arrays α) : ThreadGrid α where
  threads p := ⟨if p < N then K.threadCode else [], garbage p⟩
  mem := mem

variable (ops : ScalarOps α)

/-- Thread `p` does its next operation, if it has one. -/
def ThreadGrid.fire (p : Nat) (g : ThreadGrid α) : Option (ThreadGrid α) :=
  match g.threads p with
  | ⟨[], _⟩ => none
  | ⟨.load x a :: todo, σ⟩ => some { g with
      threads := Function.update g.threads p ⟨todo, Function.update σ ⟨.vec, x⟩
        ((scalarBackend α).load (σ ⟨.vec, x⟩) (g.mem a) p)⟩ }
  | ⟨.compute P :: todo, σ⟩ => some { g with
      threads := Function.update g.threads p ⟨todo, P.exec (scalarBackend α) ops σ⟩ }
  | ⟨.store x a :: todo, σ⟩ => some {
      threads := Function.update g.threads p ⟨todo, σ⟩
      mem := Function.update g.mem a ((scalarBackend α).store (σ ⟨.vec, x⟩) (g.mem a) p) }

/-- All threads have returned. -/
def ThreadGrid.Finished (g : ThreadGrid α) : Prop := ∀ p, (g.threads p).todo = []

/-! ## A thread by itself -/

/-- A thread and its elements of the arrays. -/
abbrev ThreadView (α : Type) := Thread α × (Nat → α)

/-- The part of a grid that thread `p` works on. -/
def ThreadGrid.view (g : ThreadGrid α) (p : Nat) : ThreadView α :=
  (g.threads p, fun a => g.mem a p)

/-- The next operation of a thread, on its elements. -/
def Thread.next : ThreadView α → Option (ThreadView α)
  | (⟨[], _⟩, _) => none
  | (⟨.load x a :: todo, σ⟩, cells) =>
      some (⟨todo, Function.update σ ⟨.vec, x⟩ (cells a)⟩, cells)
  | (⟨.compute P :: todo, σ⟩, cells) => some (⟨todo, P.exec (scalarBackend α) ops σ⟩, cells)
  | (⟨.store x a :: todo, σ⟩, cells) =>
      some (⟨todo, σ⟩, Function.update cells a (σ ⟨.vec, x⟩))

/-- Changing thread `p` and its elements changes its part, and no other. -/
theorem ThreadGrid.view_eq_update {g g' : ThreadGrid α} {p : Nat} {t : Thread α}
    {cells : Nat → α} (hthreads : g'.threads = Function.update g.threads p t)
    (hmem : ∀ a, g'.mem a = Function.update (g.mem a) p (cells a)) :
    g'.view = Function.update g.view p (t, cells) := by
  funext q
  by_cases hq : q = p
  · subst hq
    rw [Function.update_self, view, hthreads, Function.update_self]
    exact congrArg (Prod.mk t) (funext fun a => by rw [hmem, Function.update_self])
  · rw [Function.update_of_ne hq, view, hthreads, Function.update_of_ne hq]
    exact congrArg (Prod.mk _) (funext fun a => by rw [hmem, Function.update_of_ne hq])

/-- The elements of the arrays after a store at `p`. -/
theorem store_cells (mem : Arrays α) (a p : Nat) (v : α) (b : Nat) :
    Function.update mem a ((scalarBackend α).store v (mem a) p) b =
      Function.update (mem b) p (Function.update (fun c => mem c p) a v b) := by
  by_cases hb : b = a
  · subst hb
    rw [Function.update_self, Function.update_self]
    rfl
  · rw [Function.update_of_ne hb, Function.update_of_ne hb, Function.update_eq_self]

theorem ThreadGrid.separate :
    Separate (ThreadGrid.fire ops) ThreadGrid.view (Thread.next ops) := by
  intro p g
  have hkeep : ∀ a, g.mem a = Function.update (g.mem a) p (g.mem a p) := fun a =>
    (Function.update_eq_self p (g.mem a)).symm
  rw [ThreadGrid.view, ThreadGrid.fire]
  rcases g.threads p with ⟨_ | ⟨op, todo⟩, σ⟩
  · rfl
  · cases op with
    | load x a => exact congrArg some (view_eq_update rfl hkeep)
    | compute P => exact congrArg some (view_eq_update rfl hkeep)
    | store x a => exact congrArg some (view_eq_update rfl (store_cells g.mem a p _))

theorem ThreadGrid.fire_eq_none_iff (p : Nat) (g : ThreadGrid α) :
    g.fire ops p = none ↔ (g.threads p).todo = [] := by
  rw [ThreadGrid.fire]
  rcases g.threads p with ⟨_ | ⟨op, todo⟩, σ⟩
  · exact iff_of_true rfl rfl
  · cases op <;> exact iff_of_false (Option.some_ne_none _) (List.cons_ne_nil _ _)

/-! ## What a thread leaves -/

section Thread

variable (mem : Arrays α) (p : Nat)

theorem next_loads (inputs : List (Nat × Nat)) (todo : List (ThreadOp α))
    (σ : Locals (scalarBackend α)) :
    repeatStep (Thread.next ops) inputs.length
        (⟨inputs.map (fun io => .load io.1 io.2) ++ todo, σ⟩, fun a => mem a p) =
      some (⟨todo, loadInputs (scalarBackend α) mem p inputs σ⟩, fun a => mem a p) := by
  induction inputs generalizing σ with
  | nil => rfl
  | cons io inputs ih => exact ih _

theorem next_stores (outputs : List (Nat × Nat)) (σ : Locals (scalarBackend α))
    (mem : Arrays α) :
    repeatStep (Thread.next ops) outputs.length
        (⟨outputs.map (fun io => .store io.1 io.2), σ⟩, fun a => mem a p) =
      some (⟨[], σ⟩, fun a => storeOutputs (scalarBackend α) σ p outputs mem a p) := by
  induction outputs generalizing mem with
  | nil => rfl
  | cons io outputs ih =>
    have hcells : (fun a => Function.update mem io.2
        ((scalarBackend α).store (σ ⟨.vec, io.1⟩) (mem io.2) p) a p) =
        Function.update (fun a => mem a p) io.2 (σ ⟨.vec, io.1⟩) :=
      funext fun a => (congrFun (store_cells mem io.2 p (σ ⟨.vec, io.1⟩) a) p).trans
        (Function.update_self p _ (mem a))
    have hrest := ih (Function.update mem io.2
      ((scalarBackend α).store (σ ⟨.vec, io.1⟩) (mem io.2) p))
    rw [hcells] at hrest
    exact hrest

/-- A thread leaves what the scalar loop leaves at its element. -/
theorem next_ends (K : LoopKernel α) (garbage : Nat → Locals (scalarBackend α)) :
    ∃ σ, Ends (Thread.next ops) K.threadCode.length
      (⟨K.threadCode, garbage p⟩, fun a => mem a p)
      (⟨[], σ⟩, fun a => K.runTile (scalarBackend α) ops garbage p mem a p) := by
  refine ⟨K.body.exec (scalarBackend α) ops
    (loadInputs (scalarBackend α) mem p K.inputs (garbage p)), ?_, rfl⟩
  have hlen : K.threadCode.length = K.inputs.length + (K.outputs.length + 1) := by
    simp [LoopKernel.threadCode]
  rw [hlen, repeatStep_add, LoopKernel.threadCode, next_loads, Option.bind_some]
  exact next_stores ops p K.outputs _ mem

end Thread

/-! ## Any order -/

/-- However the reads and writes of the threads interleave, one thread for each of `N`
elements: the run is no longer than their operations are many, it can always go on until
all threads have returned, and then the arrays are what the loop over the elements
leaves with the Scalar backend and the loop over tiles with vectors. -/
theorem launch_eq_vector [Zero α] (K : LoopKernel α) (N : Nat) (mem : Arrays α)
    (garbage : Nat → Locals (scalarBackend α)) :
    ∃ result, K.run (scalarBackend α) ops garbage N mem = some result ∧
      EveryOrder (ThreadGrid.fire ops) (K.launch N garbage mem) (N * K.threadCode.length)
        (fun g => g.Finished ∧ g.mem = result) ∧
      ∀ (V : Nat) (garbage' : Nat → Locals (vectorBackend V α)), 0 < V → V ∣ N →
        (∀ j, V ∣ j → j < N → K.RespectedAt ops garbage' j mem) →
        K.run (vectorBackend V α) ops garbage' N mem = some result := by
  have hrun : K.run (scalarBackend α) ops garbage N mem =
      some (tiled 1 (K.runTile (scalarBackend α) ops garbage) N mem) :=
    K.run_eq_tiled ops scalarBackend_local Nat.one_pos garbage (Nat.one_dvd N) mem
  refine ⟨_, hrun, ?_, ?_⟩
  · choose σ hσ using fun p => next_ends ops mem p K garbage
    -- The threads from `N` on do not exist.
    have hends : ∀ p, Ends (Thread.next ops) (if p < N then K.threadCode.length else 0)
        ((K.launch N garbage mem).view p)
        (if p < N then (⟨[], σ p⟩, fun a => K.runTile (scalarBackend α) ops garbage p mem a p)
          else (⟨[], garbage p⟩, fun a => mem a p)) := by
      intro p
      show Ends (Thread.next ops) _
        (⟨if p < N then K.threadCode else [], garbage p⟩, fun a => mem a p) _
      split
      · exact hσ p
      · exact ⟨rfl, rfl⟩
    have horder := (ThreadGrid.separate ops).everyOrder (n := K.threadCode.length) hends
      (fun p hp => if_neg (Nat.not_lt.mpr hp)) fun p => by split <;> omega
    refine horder.imp fun g hdone hview => ⟨fun p => ?_, ?_⟩
    · exact (ThreadGrid.fire_eq_none_iff ops p g).mp (hdone p)
    · funext a p
      refine (congrFun (congrArg Prod.snd (congrFun hview p)) a).trans ?_
      rcases Nat.lt_or_ge p N with hp | hp
      · rw [if_pos hp, tiled_of_lt hp, Nat.div_one, Nat.mul_one]
      · rw [if_neg (Nat.not_lt.mpr hp), tiled_of_le hp]
  · intro V garbage' hV hdvd hmask
    rw [K.run_eq_tiled ops (vectorBackend_local V) hV garbage' hdvd mem]
    exact congrArg some (K.tiled_vector_eq_scalar ops hV hdvd mem garbage' garbage hmask)

end VecCore.Kernel
