/-
  Backend/Implementation.lean --- the generic API of Backend/Implementation.h.

  A vector type with `VectorSize` lanes is `Lanes V α`, and its mask type is
  `Lanes V Bool`.  Every generic function is the loop over the lanes that the
  header has; the `_apply` and `_iff` lemmas beside each say what the loop
  computes, and nothing outside this module unfolds it again.

  A pointer argument is the array it points into and the offset it points at.
-/
import VecCore.Foundation.Lanes
import VecCore.Foundation.Region
import Mathlib.Algebra.Notation.Defs

set_option autoImplicit false

namespace VecCore

open VecCore.Foundation

variable {V : Nat} {α β : Type*}

/-- `Mask<T>` of a vector type with `V` lanes. -/
abbrev Mask (V : Nat) := Lanes V Bool

/-! ## Get and Set -/

/-- `Get(v, i)`. -/
def get (v : Lanes V α) (i : Fin V) : α := v i

/-- `Set(v, i, val)`. -/
def set (v : Lanes V α) (i : Fin V) (val : α) : Lanes V α := Function.update v i val

@[simp] theorem get_eq (v : Lanes V α) (i : Fin V) : get v i = v i := rfl

/-- A lane loop that sets every lane from its old content. -/
theorem forLanes_set (g : Fin V → α → α) (v : Lanes V α) :
    forLanes V (fun i v => set v i (g i (get v i))) v = fun i => g i (v i) :=
  forLanes_update g v

/-! ## Load and Store -/

/-- `Load(v, ptr)`. -/
def load (v : Lanes V α) (ptr : Nat → α) (offset : Nat) : Lanes V α :=
  forLanes V (fun i v => set v i (ptr (offset + i))) v

/-- `Store(v, ptr)`, returning the array after the call. -/
def store (v : Lanes V α) (ptr : Nat → α) (offset : Nat) : Nat → α :=
  forLanes V (fun i ptr => Function.update ptr (offset + i) (get v i)) ptr

/-- The array read as a vector, `reinterpret_cast<Vec&>(array[i])`. -/
def asVec (V : Nat) (array : Nat → α) (i : Nat) : Lanes V α := fun k => array (i + k)

@[simp] theorem load_apply (v : Lanes V α) (ptr : Nat → α) (offset : Nat)
    (i : Fin V) : load v ptr offset i = ptr (offset + i) :=
  congrFun (forLanes_set (fun i _ => ptr (offset + i)) v) i

theorem store_apply (v : Lanes V α) (ptr : Nat → α) (offset : Nat) (i : Fin V) :
    store v ptr offset (offset + i) = v i := forLanes_update_add offset v ptr i

theorem store_of_not_mem (v : Lanes V α) (ptr : Nat → α) (offset : Nat) {a : Nat}
    (ha : a < offset ∨ offset + V ≤ a) : store v ptr offset a = ptr a :=
  forLanes_update_add_of_not_mem offset v ptr ha

/-! ## Gather and Scatter -/

/-- `Gather(v, ptr, idx)`, where `ptr` points at cell `base` of an array and an
index lane holds the integer that `index` reads from it. -/
def gatherInto (v : Lanes V α) (ptr : Region α) (base : Nat) (index : β → Option Int)
    (idx : Lanes V β) : Option (Lanes V α) :=
  forLanes? V (fun i v => (index (get idx i)).bind fun a =>
    (ptr.read (base + a)).map fun x => set v i x) v

/-- `Gather<T>(ptr, idx)`, which gathers into a value-initialised vector. -/
def gather [Zero α] (ptr : Region α) (base : Nat) (index : β → Option Int)
    (idx : Lanes V β) : Option (Lanes V α) :=
  gatherInto (splat 0) ptr base index idx

/-- `Scatter(v, ptr, idx)`, returning the array after the call. -/
def scatter (v : Lanes V α) (ptr : Region α) (base : Nat) (index : β → Option Int)
    (idx : Lanes V β) : Option (Region α) :=
  forLanes? V (fun i ptr => (index (get idx i)).bind fun a =>
    ptr.write (base + a) (get v i)) ptr

/-- A gather of subscripts within the array reads them. -/
theorem gatherInto_eq (v : Lanes V α) {ptr : Region α} {base : Nat}
    {index : β → Option Int} {idx : Lanes V β} {q : Lanes V Nat}
    (hidx : ∀ i, ∃ a, index (idx i) = some a ∧ base + a = q i)
    (hq : ∀ i, q i < ptr.size) :
    gatherInto v ptr base index idx = some fun i => ptr.cell (q i) := by
  have hbody : ∀ (i : Fin V) (v : Lanes V α), True →
      ((index (get idx i)).bind fun a => (ptr.read (base + a)).map fun x => set v i x) =
        some (set v i (ptr.cell (q i))) ∧ True := by
    intro i v _
    obtain ⟨a, ha, hbase⟩ := hidx i
    rw [get_eq, ha, Option.bind_some, hbase, Region.read_of_lt (hq i)]
    exact ⟨rfl, trivial⟩
  rw [gatherInto, (forLanes?_eq_some (fun _ => True) V hbody trivial).1]
  exact congrArg some (forLanes_set (fun i _ => ptr.cell (q i)) v)

/-- A loop that writes the lanes of `v` to the cells `q` of an array. -/
theorem forLanes?_write_eq (v : Lanes V α) (q : Lanes V Nat) {ptr : Region α}
    {body : Fin V → Region α → Option (Region α)}
    (hbody : ∀ i r, r.size = ptr.size →
      body i r = some { r with cell := Function.update r.cell (q i) (v i) }) :
    forLanes? V body ptr = some { ptr with
      cell := forLanes V (fun i w => Function.update w (q i) (v i)) ptr.cell } := by
  have hcells : forLanes V (fun i r => { r with cell := Function.update r.cell (q i) (v i) })
      ptr = { ptr with cell := forLanes V (fun i w => Function.update w (q i) (v i)) ptr.cell } :=
    forLanes_rel (fun (r : Region α) w => r = { ptr with cell := w }) V
      (fun i r w hr => by rw [hr]) rfl
  rw [(forLanes?_eq_some (fun r : Region α => r.size = ptr.size) V
    (fun i r hr => ⟨hbody i r hr, hr⟩) rfl).1, hcells]

/-- A scatter to subscripts within the array writes them in the order of the lanes. -/
theorem scatter_eq (v : Lanes V α) {ptr : Region α} {base : Nat}
    {index : β → Option Int} {idx : Lanes V β} {q : Lanes V Nat}
    (hidx : ∀ i, ∃ a, index (idx i) = some a ∧ base + a = q i)
    (hq : ∀ i, q i < ptr.size) :
    scatter v ptr base index idx = some { ptr with
      cell := forLanes V (fun i w => Function.update w (q i) (v i)) ptr.cell } := by
  refine forLanes?_write_eq v q fun i r hr => ?_
  obtain ⟨a, ha, hbase⟩ := hidx i
  rw [get_eq, ha, Option.bind_some, hbase, Region.write_of_lt (hr ▸ hq i), get_eq]

/-! ## Masking -/

/-- `MaskFull(mask)`. -/
def maskFull (mask : Mask V) : Bool := allLanes V fun i => get mask i

/-- `MaskEmpty(mask)`. -/
def maskEmpty (mask : Mask V) : Bool := allLanes V fun i => !get mask i

/-- `MaskedAssign(dst, mask, src)`, the branch for vector types. -/
def maskedAssign (dst : Lanes V α) (mask : Mask V) (src : Lanes V α) : Lanes V α :=
  forLanes V (fun i dst => if get mask i then set dst i (get src i) else dst) dst

/-- `MaskingImplementation::Blend(dst, mask, src1, src2)`, the branch for vector
types. -/
def blendInto (dst : Lanes V α) (mask : Mask V) (src1 src2 : Lanes V α) : Lanes V α :=
  forLanes V (fun i dst => set dst i (if get mask i then get src1 i else get src2 i)) dst

/-- `Blend(mask, src1, src2)`, which blends into a value-initialised vector. -/
def blend [Zero α] (mask : Mask V) (src1 src2 : Lanes V α) : Lanes V α :=
  blendInto (splat 0) mask src1 src2

theorem maskFull_iff (mask : Mask V) : maskFull mask = true ↔ ∀ i, mask i = true := by
  simp [maskFull, allLanes_iff]

theorem maskEmpty_iff (mask : Mask V) : maskEmpty mask = true ↔ ∀ i, mask i = false := by
  simp [maskEmpty, allLanes_iff]

@[simp] theorem maskedAssign_apply (dst : Lanes V α) (mask : Mask V)
    (src : Lanes V α) (i : Fin V) :
    maskedAssign dst mask src i = if mask i then src i else dst i :=
  congrFun (forLanes_update_if mask src dst) i

@[simp] theorem blend_apply [Zero α] (mask : Mask V) (src1 src2 : Lanes V α)
    (i : Fin V) : blend mask src1 src2 i = if mask i then src1 i else src2 i :=
  congrFun (forLanes_set (fun i _ => if get mask i then get src1 i else get src2 i) _) i

end VecCore
