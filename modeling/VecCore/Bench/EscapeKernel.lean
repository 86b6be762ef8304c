/-
  Bench/EscapeKernel.lean --- the loop of mandelbrot_v and julia_v as a kernel.

  The loop is written in the kernel language: its interpretation with vectors is
  the loop of `mandelbrot_v`, and it respects its mask, since a point outside the
  disc stays where it is and so outside.
-/
import VecCore.Bench.EscapeTime
import VecCore.Kernel.LoopTiles
import VecCore.Kernel.Threads

set_option autoImplicit false

namespace VecCore.Bench

open VecCore.Foundation VecCore.Kernel

/-! ## The program -/

section Code

variable (F : Type) [Field F] [LinearOrder F]

/-- Exact arithmetic; the loop calls no standard function. -/
def fieldOps : ScalarOps F where
  neg x := -x
  arith
    | .add => (· + ·)
    | .sub => (· - ·)
    | .mul => (· * ·)
    | .div => (· / ·)
  cmp
    | .lt => fun x y => decide (x < y)
    | .le => fun x y => decide (x ≤ y)
    | .gt => fun x y => decide (x > y)
    | .ge => fun x y => decide (x ≥ y)
    | .eq => fun x y => decide (x = y)
    | .ne => fun x y => decide (x ≠ y)
  unary _ x := x
  binary _ x _ := x

/-- The variables `zr, zi, cr, ci, kv, k, x, y` of the loop. -/
inductive EscapeVar where
  | zr | zi | cr | ci | kv | k | x | y

/-- The numbers of the variables. -/
def EscapeVar.id : EscapeVar → Nat
  | .zr => 0 | .zi => 1 | .cr => 2 | .ci => 3 | .kv => 4 | .k => 5 | .x => 6 | .y => 7

variable {F}

/-- A variable as an expression. -/
def EscapeVar.expr (v : EscapeVar) : Expr F .vec := .var .vec v.id

/-- `zr*zr + zi*zi < T(4.0)`. -/
def inDisc : Expr F .mask :=
  .cmp .lt
    (.arith .add (.arith .mul EscapeVar.zr.expr EscapeVar.zr.expr)
      (.arith .mul EscapeVar.zi.expr EscapeVar.zi.expr))
    (.const 4)

/-- The body of the loop. -/
def escapeBlock : Block F :=
  .assign .vec EscapeVar.x.id
    (.arith .add
      (.arith .sub (.arith .mul EscapeVar.zr.expr EscapeVar.zr.expr)
        (.arith .mul EscapeVar.zi.expr EscapeVar.zi.expr)) EscapeVar.cr.expr) <|
  .assign .vec EscapeVar.y.id
    (.arith .add
      (.arith .mul (.arith .mul (.const 2) EscapeVar.zr.expr) EscapeVar.zi.expr)
      EscapeVar.ci.expr) <|
  .maskedAssign EscapeVar.zr.id (.var .mask 0) EscapeVar.x.expr <|
  .maskedAssign EscapeVar.zi.id (.var .mask 0) EscapeVar.y.expr <|
  .assign .vec EscapeVar.k.id (.arith .add EscapeVar.k.expr (.const 1)) <|
  .maskedAssign EscapeVar.kv.id (.var .mask 0) EscapeVar.k.expr <|
  .assign .mask 0 inDisc .done

/-- `k = 0, kv = 0, m = true`; the mask comes from a comparison that holds. -/
def escapeInit : Block F :=
  .assign .vec EscapeVar.k.id (.const 0) <|
  .assign .vec EscapeVar.kv.id (.const 0) <|
  .assign .mask 0 (.cmp .eq (.const 0) (.const 0)) .done

/-- The loop with its counters, from the variables `zr, zi, cr, ci`. -/
def escapeProgram (maxIter : Nat) : Program F :=
  .block escapeInit <| .doWhile maxIter (.block escapeBlock .done) (.var .mask 0) .done

/-- The loop over the points and constants of four arrays, with the points it ends
with and the counts in three. -/
def escapeKernel (maxIter : Nat) : LoopKernel F where
  inputs := [(EscapeVar.zr.id, 0), (EscapeVar.zi.id, 1), (EscapeVar.cr.id, 2),
    (EscapeVar.ci.id, 3)]
  body := escapeProgram maxIter
  outputs := [(EscapeVar.zr.id, 0), (EscapeVar.zi.id, 1), (EscapeVar.kv.id, 4)]
  initialised := by
    intro n hn
    simp only [escapeProgram, escapeInit, escapeBlock, inDisc, Program.live, Block.live,
      Expr.reads, names, EscapeVar.expr, EscapeVar.id, Set.mem_union, Set.mem_sdiff,
      Set.mem_singleton_iff, Set.mem_ofPred_eq, List.mem_cons, List.not_mem_nil,
      Set.mem_empty_iff_false] at hn ⊢
    grind

end Code

/-! ## Its interpretation with vectors -/

section Interpretation

variable {F : Type} [Field F] [LinearOrder F] {V : Nat}

/-- The content of a variable. -/
def EscapeVar.of (v : EscapeVar) (σ : Locals (vectorBackend V F)) : Lanes V F :=
  σ ⟨.vec, v.id⟩

/-- The mask. -/
def escapeMask (σ : Locals (vectorBackend V F)) : Mask V := σ ⟨.mask, 0⟩

/-- The lanes in the disc. -/
def discMask (zr zi : Lanes V F) : Mask V :=
  lanewise (fun a b => decide (a < b)) (zr * zr + zi * zi) (splat 4)

theorem discMask_apply (zr zi : Lanes V F) (i : Fin V) :
    discMask zr zi i = decide (zr i * zr i + zi i * zi i < 4) := rfl

/-- The variables of the loop of `mandelbrot_v`, with a counter of natural numbers, are
those of the kernel, whose counters are numbers of the lane type. -/
structure Represents (cr ci : Lanes V F) (s : EscapeVState V F Nat)
    (σ : Locals (vectorBackend V F)) : Prop where
  zr : EscapeVar.zr.of σ = s.zr
  zi : EscapeVar.zi.of σ = s.zi
  cr : EscapeVar.cr.of σ = cr
  ci : EscapeVar.ci.of σ = ci
  kv : EscapeVar.kv.of σ = fun i => (s.kv i : F)
  k : EscapeVar.k.of σ = splat (s.k : F)
  m : escapeMask σ = s.m

/-- The body of the kernel. -/
def escapeExec (σ : Locals (vectorBackend V F)) : Locals (vectorBackend V F) :=
  escapeBlock.exec (vectorBackend V F) (fieldOps F) σ

theorem escapeExec_zr (σ : Locals (vectorBackend V F)) :
    EscapeVar.zr.of (escapeExec σ) = maskedAssign (EscapeVar.zr.of σ) (escapeMask σ)
      (escapeStep (splat 2) (EscapeVar.cr.of σ) (EscapeVar.ci.of σ) (EscapeVar.zr.of σ)
        (EscapeVar.zi.of σ)).1 := rfl

theorem escapeExec_zi (σ : Locals (vectorBackend V F)) :
    EscapeVar.zi.of (escapeExec σ) = maskedAssign (EscapeVar.zi.of σ) (escapeMask σ)
      (escapeStep (splat 2) (EscapeVar.cr.of σ) (EscapeVar.ci.of σ) (EscapeVar.zr.of σ)
        (EscapeVar.zi.of σ)).2 := rfl

theorem escapeExec_kv (σ : Locals (vectorBackend V F)) :
    EscapeVar.kv.of (escapeExec σ) = maskedAssign (EscapeVar.kv.of σ) (escapeMask σ)
      (EscapeVar.k.of σ + splat 1) := rfl

theorem escapeExec_k (σ : Locals (vectorBackend V F)) :
    EscapeVar.k.of (escapeExec σ) = EscapeVar.k.of σ + splat 1 := rfl

theorem escapeExec_mask (σ : Locals (vectorBackend V F)) :
    escapeMask (escapeExec σ) =
      discMask (EscapeVar.zr.of (escapeExec σ)) (EscapeVar.zi.of (escapeExec σ)) := rfl

/-- One iteration. -/
theorem Represents.step {cr ci : Lanes V F} {s : EscapeVState V F Nat}
    {σ : Locals (vectorBackend V F)} (h : Represents cr ci s σ) :
    Represents cr ci (escapeVBody cr ci s) (escapeExec σ) := by
  have hzr : EscapeVar.zr.of (escapeExec σ) = (escapeVBody cr ci s).zr := by
    rw [escapeExec_zr, h.zr, h.zi, h.cr, h.ci, h.m]
    rfl
  have hzi : EscapeVar.zi.of (escapeExec σ) = (escapeVBody cr ci s).zi := by
    rw [escapeExec_zi, h.zr, h.zi, h.cr, h.ci, h.m]
    rfl
  have hk : EscapeVar.k.of σ + splat 1 = splat ((s.k + 1 : Nat) : F) := by
    funext i
    rw [h.k, Nat.cast_add, Nat.cast_one]
    rfl
  refine ⟨hzr, hzi, h.cr, h.ci, ?_, (escapeExec_k σ).trans hk, ?_⟩
  · funext i
    have hcount : (escapeVBody cr ci s).kv i = if s.m i then s.k + 1 else s.kv i :=
      maskedAssign_apply _ _ _ i
    rw [escapeExec_kv, hk, h.kv, h.m, maskedAssign_apply, hcount, apply_ite Nat.cast]
    rfl
  · rw [escapeExec_mask, hzr, hzi]
    rfl

/-- The loop of `mandelbrot_v` and the kernel's end with the same variables. -/
theorem escapeProgram_exec (maxIter : Nat) {fuel : Nat} (hfuel : max 1 maxIter ≤ fuel)
    (σ : Locals (vectorBackend V F)) :
    ∃ s, escapeV fuel maxIter (EscapeVar.cr.of σ) (EscapeVar.ci.of σ) (EscapeVar.zr.of σ)
        (EscapeVar.zi.of σ) = some s ∧
      Represents (EscapeVar.cr.of σ) (EscapeVar.ci.of σ) s
        ((escapeProgram maxIter).exec (vectorBackend V F) (fieldOps F) σ) := by
  let R : Nat → EscapeVState V F Nat → Locals (vectorBackend V F) → Prop := fun k s ρ =>
    s.k = k ∧ Represents (EscapeVar.cr.of σ) (EscapeVar.ci.of σ) s ρ
  have hbody : ∀ k s ρ, R k s ρ → R (k + 1)
      (escapeVBody (EscapeVar.cr.of σ) (EscapeVar.ci.of σ) s) (escapeExec ρ) := by
    rintro k s ρ ⟨rfl, h⟩
    exact ⟨rfl, h.step⟩
  have hcond : ∀ k s ρ, R k s ρ → escapeVCond maxIter s = (decide (k < maxIter) &&
      goesOn (vectorBackend V F) (fieldOps F) (.var .mask 0) ρ) := by
    rintro k s ρ ⟨rfl, h⟩
    exact congrArg (fun m : Mask V => decide (s.k < maxIter) && !maskEmpty m) h.m.symm
  have hinit : R 0 ⟨0, EscapeVar.zr.of σ, EscapeVar.zi.of σ, splat 0, splat true⟩
      (escapeInit.exec (vectorBackend V F) (fieldOps F) σ) := by
    refine ⟨rfl, rfl, rfl, rfl, rfl, ?_, ?_, ?_⟩
    · funext i
      exact Nat.cast_zero.symm
    · funext i
      exact Nat.cast_zero.symm
    · funext i
      exact decide_eq_true rfl
  obtain ⟨k, s, hrun, -, hrep⟩ := doWhile_doWhileBelow R hbody hcond hfuel hinit
  exact ⟨s, hrun, hrep⟩

/-! ## Its mask -/

/-- The mask tells which lanes are in the disc. -/
def MaskIsDisc (σ : Locals (vectorBackend V F)) : Prop :=
  escapeMask σ = discMask (EscapeVar.zr.of σ) (EscapeVar.zi.of σ)

/-- A lane outside the disc stays outside. -/
theorem escapeExec_left {σ : Locals (vectorBackend V F)} (h : MaskIsDisc σ) {i : Fin V}
    (hoff : escapeMask σ i = false) : escapeMask (escapeExec σ) i = false := by
  have hkeep : ∀ dst src : Lanes V F, maskedAssign dst (escapeMask σ) src i = dst i := by
    intro dst src
    rw [maskedAssign_apply, hoff]
    exact if_neg Bool.false_ne_true
  have hzr : EscapeVar.zr.of (escapeExec σ) i = EscapeVar.zr.of σ i := hkeep _ _
  have hzi : EscapeVar.zi.of (escapeExec σ) i = EscapeVar.zi.of σ i := hkeep _ _
  rw [escapeExec_mask, discMask_apply]
  simp only [hzr, hzi]
  rw [← discMask_apply, ← h]
  exact hoff

/-- The kernel respects the mask of its loop, whatever its variables hold. -/
theorem escapeKernel_respected (maxIter : Nat) (σ : Locals (vectorBackend V F)) :
    (escapeKernel maxIter).body.Respected (fieldOps F)
      (names (escapeKernel (F := F) maxIter).outputs) σ := by
  have hmask : ∀ ρ : Locals (vectorBackend V F), MaskIsDisc (escapeExec ρ) := escapeExec_mask
  have hout : ∀ v : EscapeVar, v.id ∉ [0, 1, 4] → (⟨.vec, v.id⟩ : Name) ∉
      names (escapeKernel (F := F) maxIter).outputs := by
    rintro v hv ⟨p, hp, hname⟩
    obtain ⟨-, hid⟩ := Name.mk.inj hname
    have hmem : p.1 ∈ [0, 1, 4] := List.mem_map_of_mem (f := Prod.fst) hp
    exact hv (hid ▸ hmem)
  have hnomask : (⟨.mask, 0⟩ : Name) ∉ names (escapeKernel (F := F) maxIter).outputs := by
    rintro ⟨p, -, hname⟩
    exact Kind.noConfusion (Name.mk.inj hname).1
  refine ⟨trivial, ⟨⟨trivial, trivial⟩, ?_⟩, trivial⟩
  refine AgainAll.of_invariant MaskIsDisc (fun ρ hρ _ => ⟨⟨⟨?_, ?_⟩, trivial, trivial⟩, hmask ρ⟩)
    _ (hmask _)
  · exact ⟨⟨hout .x (by decide), hout .y (by decide), fun _ _ h => h, fun _ _ h => h,
      hout .k (by decide), fun _ _ h => h, hnomask, trivial⟩, trivial⟩
  · intro i hoff
    exact escapeExec_left hρ hoff

end Interpretation

/-- Variables that hold the same content. -/
def sameLocals {F : Type} (B : Backend F) (v : B.Val .vec) (m : B.Val .mask) : Locals B
  | ⟨.vec, _⟩ => v
  | ⟨.mask, _⟩ => m

/-- Four points in tiles of two, three iterations at most. -/
theorem loopRun_vector_eq_scalar_escape :
    ∃ result,
      (escapeKernel 3).run (scalarBackend ℚ) (fieldOps ℚ) (fun _ => sameLocals _ (0 : ℚ) false)
        4 (fun a p => a + p) = some result ∧
      (escapeKernel 3).run (vectorBackend 2 ℚ) (fieldOps ℚ)
        (fun _ => sameLocals _ (splat (0 : ℚ)) (splat false)) 4 (fun a p => a + p) =
          some result := by
  obtain ⟨result, hscalar, -, hvector⟩ := loopRun_vector_eq_scalar (fieldOps ℚ) (escapeKernel 3)
    4 (fun a p => a + p) fun _ => sameLocals _ (0 : ℚ) false
  exact ⟨result, hscalar, hvector 2 _ (by decide) (by decide) fun _ _ _ =>
    escapeKernel_respected 3 _⟩

/-- Four threads in any order, and tiles of two. -/
theorem launch_eq_vector_escape :
    ∃ result,
      EveryOrder (ThreadGrid.fire (fieldOps ℚ))
        ((escapeKernel 3).launch 4 (fun _ => sameLocals _ (0 : ℚ) false) (fun a p => a + p))
        (4 * (escapeKernel (F := ℚ) 3).threadCode.length)
        (fun g => g.Finished ∧ g.mem = result) ∧
      (escapeKernel 3).run (vectorBackend 2 ℚ) (fieldOps ℚ)
        (fun _ => sameLocals _ (splat (0 : ℚ)) (splat false)) 4 (fun a p => a + p) =
          some result := by
  obtain ⟨result, -, horder, hvector⟩ := launch_eq_vector (fieldOps ℚ) (escapeKernel 3)
    4 (fun a p => a + p) fun _ => sameLocals _ (0 : ℚ) false
  exact ⟨result, horder, hvector 2 _ (by decide) (by decide) fun _ _ _ =>
    escapeKernel_respected 3 _⟩

/-- The kernel as a stage of a series. -/
def escapeStage (V : Nat) (hV : 0 < V) (maxIter : Nat) : Stage (fieldOps ℚ) where
  V := V
  hV := hV
  kernel := escapeKernel maxIter
  garbage _ := sameLocals _ (splat (0 : ℚ)) (splat false)
  respected := escapeKernel_respected maxIter

/-- Three iterations in tiles of two, then five from there on in tiles of four. -/
theorem runStages_eq_elements_escape :
    runStages 8 [escapeStage 2 (by decide) 3, escapeStage 4 (by decide) 5] (fun a p => a + p) =
      forLoop 1 8 (fun p mem => some (elementStages (fun _ => sameLocals _ (0 : ℚ) false) p
        [escapeStage 2 (by decide) 3, escapeStage 4 (by decide) 5] mem)) 0
        (fun a p => a + p) :=
  runStages_eq_elements _ _ (by simp [escapeStage]) _

end VecCore.Bench
