/-
  Backend/Scalar.lean --- Backend/Scalar.h and the scalar branches of
  Backend/Implementation.h.

  A vector type of the Scalar backend is the scalar type itself, with
  `VectorSize` 1 and mask type `bool`.  `Begin(v)` is the address of the value,
  so that the lane loops of the generic API run once, over the value.
-/
import VecCore.Foundation.Lanes
import VecCore.Foundation.Region

set_option autoImplicit false

namespace VecCore.Scalar

open VecCore.Foundation

variable {α : Type*}

/-- `Get(v, i)`. -/
def get (v : α) (_i : Fin 1) : α := v

/-- `Set(v, i, val)`. -/
def set (_v : α) (_i : Fin 1) (val : α) : α := val

/-- `Load(v, ptr)`. -/
def load (v : α) (ptr : Nat → α) (offset : Nat) : α :=
  forLanes 1 (fun i v => set v i (ptr (offset + i))) v

/-- `Store(v, ptr)`, returning the array after the call. -/
def store (v : α) (ptr : Nat → α) (offset : Nat) : Nat → α :=
  forLanes 1 (fun i ptr => Function.update ptr (offset + i) (get v i)) ptr

/-- `Gather(v, ptr, idx)`, whose index type is `size_t`. -/
def gatherInto (v : α) (ptr : Region α) (idx : Nat) : Option α :=
  forLanes? 1 (fun i v => (ptr.read (get idx i)).map fun x => set v i x) v

/-- `Scatter(v, ptr, idx)`, returning the array after the call. -/
def scatter (v : α) (ptr : Region α) (idx : Nat) : Option (Region α) :=
  forLanes? 1 (fun i ptr => ptr.write (get idx i) (get v i)) ptr

/-- `MaskEmpty<bool>`. -/
def maskEmpty (mask : Bool) : Bool := !mask

/-- `MaskFull<bool>`. -/
def maskFull (mask : Bool) : Bool := mask

/-- `MaskedAssign(dst, mask, src)`, the branch for scalar types. -/
def maskedAssign (dst : α) (mask : Bool) (src : α) : α := if mask then src else dst

/-- `Blend(mask, src1, src2)`, the branch for scalar types. -/
def blend (mask : Bool) (src1 src2 : α) : α := if mask then src1 else src2

theorem gatherInto_eq (v : α) {ptr : Region α} {p : Nat} (h : p < ptr.size) :
    gatherInto v ptr p = some (ptr.cell p) := by
  simp only [gatherInto, forLanes?, Option.bind_some, get, set, Region.read_of_lt h,
    Option.map_some]

theorem scatter_eq (v : α) {ptr : Region α} {p : Nat} (h : p < ptr.size) :
    scatter v ptr p = some { ptr with cell := Function.update ptr.cell p v } := by
  simp only [scatter, forLanes?, Option.bind_some, get, Region.write_of_lt h]

end VecCore.Scalar
