/-
  Kernel/Syntax.lean --- straight-line VecCore kernels.

  A kernel is the body of a loop over tiles: it loads some variables, runs a
  block of assignments, masked assignments and blocks under
  `if (!MaskEmpty(m))`, and stores some variables.  Two kinds of variables
  occur, vectors and masks.
-/
import VecCore.Backend.VecMath
import VecCore.Foundation.CInt
import Mathlib.Data.Set.Basic

set_option autoImplicit false

namespace VecCore.Kernel

open VecCore.Foundation

/-! ## Names and operators -/

/-- The kinds of values: a vector type and its mask type. -/
inductive Kind where
  | vec
  | mask
  deriving DecidableEq, Repr

/-- A variable of a kernel. -/
structure Name where
  kind : Kind
  id : Nat
  deriving DecidableEq, Repr

/-- The arithmetic operators. -/
inductive ArithOp where
  | add | sub | mul | div
  deriving DecidableEq, Repr

/-! ## Expressions and blocks -/

/-- Expressions over the scalar type `α`. -/
inductive Expr (α : Type) : Kind → Type where
  | var (k : Kind) (x : Nat) : Expr α k
  /-- `T(Scalar<T>(c))` -/
  | const (c : α) : Expr α .vec
  | neg (a : Expr α .vec) : Expr α .vec
  | arith (op : ArithOp) (a b : Expr α .vec) : Expr α .vec
  | cmp (op : CmpOp) (a b : Expr α .vec) : Expr α .mask
  | unary (f : UnaryFunction) (a : Expr α .vec) : Expr α .vec
  | binary (f : BinaryFunction) (a b : Expr α .vec) : Expr α .vec
  | blend (m : Expr α .mask) (a b : Expr α .vec) : Expr α .vec
  | not (m : Expr α .mask) : Expr α .mask
  | and (m₁ m₂ : Expr α .mask) : Expr α .mask
  | or (m₁ m₂ : Expr α .mask) : Expr α .mask

/-- Sequences of statements. -/
inductive Block (α : Type) where
  | done
  /-- `x = e; rest` -/
  | assign (k : Kind) (x : Nat) (e : Expr α k) (rest : Block α)
  /-- `MaskedAssign(x, m, e); rest` -/
  | maskedAssign (x : Nat) (m : Expr α .mask) (e : Expr α .vec) (rest : Block α)
  /-- `if (!MaskEmpty(m)) { body } rest` -/
  | ifNotEmpty (m : Expr α .mask) (body rest : Block α)

/-! ## Variables used later -/

variable {α : Type}

/-- The variables an expression reads. -/
def Expr.reads : {k : Kind} → Expr α k → Set Name
  | k, .var _ x => {⟨k, x⟩}
  | _, .const _ => ∅
  | _, .neg a => a.reads
  | _, .arith _ a b => a.reads ∪ b.reads
  | _, .cmp _ a b => a.reads ∪ b.reads
  | _, .unary _ a => a.reads
  | _, .binary _ a b => a.reads ∪ b.reads
  | _, .blend m a b => m.reads ∪ (a.reads ∪ b.reads)
  | _, .not m => m.reads
  | _, .and m₁ m₂ => m₁.reads ∪ m₂.reads
  | _, .or m₁ m₂ => m₁.reads ∪ m₂.reads

/-- The variables whose value before a block is used, by the block or after it,
where those of `after` are used after it. -/
def Block.live : Block α → Set Name → Set Name
  | .done, after => after
  | .assign k x e rest, after => (rest.live after \ {⟨k, x⟩}) ∪ e.reads
  | .maskedAssign _ m e rest, after => rest.live after ∪ (m.reads ∪ e.reads)
  | .ifNotEmpty m body rest, after =>
      rest.live after ∪ (m.reads ∪ body.live (rest.live after))

theorem Block.live_mono (c : Block α) {s t : Set Name} (h : s ⊆ t) : c.live s ⊆ c.live t := by
  induction c generalizing s t with
  | done => exact h
  | assign k x e rest ih =>
    exact Set.union_subset_union_left _ (Set.sdiff_subset_sdiff_left (ih h))
  | maskedAssign x m e rest ih => exact Set.union_subset_union_left _ (ih h)
  | ifNotEmpty m body rest ihBody ih =>
    exact Set.union_subset_union (ih h) (Set.union_subset_union_right _ (ihBody (ih h)))

end VecCore.Kernel

namespace VecCore

/-- The vector variables of a list of loads or stores. -/
def Kernel.names (io : List (Nat × Nat)) : Set Kernel.Name :=
  {n | ∃ p ∈ io, n = ⟨.vec, p.1⟩}

/-- A kernel: `Load(x, &a[j])` for the pairs of `inputs`, the body, and
`Store(x, &a[j])` for the pairs of `outputs`.  No variable is used before it is
loaded or assigned. -/
structure Kernel (α : Type) where
  inputs : List (Nat × Nat)
  body : Kernel.Block α
  outputs : List (Nat × Nat)
  initialised : body.live (Kernel.names outputs) ⊆ Kernel.names inputs

end VecCore
