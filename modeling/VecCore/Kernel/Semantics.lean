/-
  Kernel/Semantics.lean --- running a kernel with a backend.

  A `Backend` is what the API gives for one vector type.  `vectorBackend V` has
  the generic functions for vectors of `V` lanes and lanewise operators,
  `scalarBackend` the scalar type itself.  One interpreter runs a kernel with
  either.
-/
import VecCore.Kernel.Syntax
import VecCore.Foundation.Loop

set_option autoImplicit false

namespace VecCore.Kernel

open VecCore.Foundation

variable {α : Type}

/-! ## Backends -/

/-- What the operators and the standard functions compute on scalars. -/
structure ScalarOps (α : Type) where
  neg : α → α
  arith : ArithOp → α → α → α
  cmp : CmpOp → α → α → Bool
  unary : UnaryFunction → α → α
  binary : BinaryFunction → α → α → α

/-- The API of a vector type with scalar type `α`. -/
structure Backend (α : Type) where
  /-- The values of each kind: the vector type and its mask type. -/
  Val : Kind → Type
  /-- `VectorSize`. -/
  size : Nat
  const : α → Val .vec
  neg : (α → α) → Val .vec → Val .vec
  arith : (α → α → α) → Val .vec → Val .vec → Val .vec
  cmp : (α → α → Bool) → Val .vec → Val .vec → Val .mask
  not : Val .mask → Val .mask
  and : Val .mask → Val .mask → Val .mask
  or : Val .mask → Val .mask → Val .mask
  mathUnary : (α → α) → Val .vec → Val .vec
  mathBinary : (α → α → α) → Val .vec → Val .vec → Val .vec
  blend : Val .mask → Val .vec → Val .vec → Val .vec
  maskedAssign : Val .vec → Val .mask → Val .vec → Val .vec
  maskEmpty : Val .mask → Bool
  load : Val .vec → (Nat → α) → Nat → Val .vec
  store : Val .vec → (Nat → α) → Nat → Nat → α

/-- The values of a vector type with `V` lanes. -/
def VectorVal (V : Nat) (α : Type) : Kind → Type
  | .vec => Lanes V α
  | .mask => Mask V

/-- The values of the Scalar backend. -/
def ScalarVal (α : Type) : Kind → Type
  | .vec => α
  | .mask => Bool

/-- Vectors of `V` lanes, with lanewise operators. -/
def vectorBackend (V : Nat) (α : Type) [Zero α] : Backend α where
  Val := VectorVal V α
  size := V
  const c := splat c
  neg f a := fun i => f (a i)
  arith f a b := lanewise f a b
  cmp f a b := lanewise f a b
  not m := fun i => !m i
  and m₁ m₂ := fun i => m₁ i && m₂ i
  or m₁ m₂ := fun i => m₁ i || m₂ i
  mathUnary := VecCore.mathUnary
  mathBinary := VecCore.mathBinary
  blend := VecCore.blend
  maskedAssign := VecCore.maskedAssign
  maskEmpty := VecCore.maskEmpty
  load := VecCore.load
  store := VecCore.store

/-- The Scalar backend. -/
def scalarBackend (α : Type) : Backend α where
  Val := ScalarVal α
  size := 1
  const c := c
  neg f a := f a
  arith f a b := f a b
  cmp f a b := f a b
  not m := !m
  and m₁ m₂ := m₁ && m₂
  or m₁ m₂ := m₁ || m₂
  mathUnary := Scalar.mathUnary
  mathBinary := Scalar.mathBinary
  blend := Scalar.blend
  maskedAssign := Scalar.maskedAssign
  maskEmpty := Scalar.maskEmpty
  load := Scalar.load
  store := Scalar.store

/-! ## Running a block -/

/-- The values of the variables. -/
abbrev Locals (B : Backend α) := (n : Name) → B.Val n.kind

variable (B : Backend α) (ops : ScalarOps α)

/-- The value of an expression. -/
def Expr.eval (σ : Locals B) : {k : Kind} → Expr α k → B.Val k
  | k, .var _ x => σ ⟨k, x⟩
  | _, .const c => B.const c
  | _, .neg a => B.neg ops.neg (a.eval σ)
  | _, .arith op a b => B.arith (ops.arith op) (a.eval σ) (b.eval σ)
  | _, .cmp op a b => B.cmp (ops.cmp op) (a.eval σ) (b.eval σ)
  | _, .unary f a => B.mathUnary (ops.unary f) (a.eval σ)
  | _, .binary f a b => B.mathBinary (ops.binary f) (a.eval σ) (b.eval σ)
  | _, .blend m a b => B.blend (m.eval σ) (a.eval σ) (b.eval σ)
  | _, .not m => B.not (m.eval σ)
  | _, .and m₁ m₂ => B.and (m₁.eval σ) (m₂.eval σ)
  | _, .or m₁ m₂ => B.or (m₁.eval σ) (m₂.eval σ)

/-- The variables after `x = e`. -/
def afterAssign (σ : Locals B) (k : Kind) (x : Nat) (e : Expr α k) : Locals B :=
  Function.update σ ⟨k, x⟩ (e.eval B ops σ)

/-- The variables after `MaskedAssign(x, m, e)`. -/
def afterMaskedAssign (σ : Locals B) (x : Nat) (m : Expr α .mask) (e : Expr α .vec) :
    Locals B :=
  Function.update σ ⟨.vec, x⟩
    (B.maskedAssign (σ ⟨.vec, x⟩) (m.eval B ops σ) (e.eval B ops σ))

/-- The variables after `if (!MaskEmpty(m)) { body }`. -/
def afterGuarded (σ : Locals B) (m : Expr α .mask) (body : Locals B → Locals B) : Locals B :=
  if !B.maskEmpty (m.eval B ops σ) then body σ else σ

/-- The variables after a block. -/
def Block.exec : Block α → Locals B → Locals B
  | .done, σ => σ
  | .assign k x e rest, σ => rest.exec (afterAssign B ops σ k x e)
  | .maskedAssign x m e rest, σ => rest.exec (afterMaskedAssign B ops σ x m e)
  | .ifNotEmpty m body rest, σ => rest.exec (afterGuarded B ops σ m body.exec)

theorem afterGuarded_of_empty {σ : Locals B} {m : Expr α .mask} {body : Locals B → Locals B}
    (h : B.maskEmpty (m.eval B ops σ) = true) : afterGuarded B ops σ m body = σ := by
  simp [afterGuarded, h]

theorem afterGuarded_of_not_empty {σ : Locals B} {m : Expr α .mask}
    {body : Locals B → Locals B} (h : B.maskEmpty (m.eval B ops σ) = false) :
    afterGuarded B ops σ m body = body σ := by
  simp [afterGuarded, h]

/-! ## Running a kernel over arrays -/

/-- The arrays of a program, by number. -/
abbrev Arrays (α : Type) := Nat → Nat → α

/-- The variables after the loads at offset `j`. -/
def loadInputs (mem : Arrays α) (j : Nat) : List (Nat × Nat) → Locals B → Locals B
  | [], σ => σ
  | (x, a) :: inputs, σ =>
      loadInputs mem j inputs (Function.update σ ⟨.vec, x⟩ (B.load (σ ⟨.vec, x⟩) (mem a) j))

/-- The arrays after the stores at offset `j`. -/
def storeOutputs (σ : Locals B) (j : Nat) : List (Nat × Nat) → Arrays α → Arrays α
  | [], mem => mem
  | (x, a) :: outputs, mem =>
      storeOutputs σ j outputs (Function.update mem a (B.store (σ ⟨.vec, x⟩) (mem a) j))

/-- Load, kernel, Store at offset `j`; the variables are declared afresh, with
the unspecified content `garbage`. -/
def runTile (K : Kernel α) (garbage : Locals B) (j : Nat) (mem : Arrays α) : Arrays α :=
  storeOutputs B (K.body.exec B ops (loadInputs B mem j K.inputs garbage)) j K.outputs mem

/-- `for (size_t j = 0; j < N; j += VectorSize<T>())` over the tiles. -/
def run (K : Kernel α) (garbage : Nat → Locals B) (N : Nat) (mem : Arrays α) :
    Option (Arrays α) :=
  forLoop B.size N (fun j mem => some (runTile B ops K (garbage j) j mem)) 0 mem

end VecCore.Kernel
