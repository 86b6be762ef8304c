/-
  Backend/SIMD.lean --- the specialisations of Backend/SIMD.h for
  `std::experimental::simd`.

  `operator[]` reads and writes one lane, `where(m, x) = y` writes the lanes of
  `m`, `all_of` and `none_of` range over the lanes, and casts are lanewise.  The
  lanes of a mask are read and written as values of the element type.
-/
import VecCore.Backend.Implementation
import VecCore.Backend.Limits

set_option autoImplicit false

namespace VecCore

open VecCore.Foundation

/-! ## Element types -/

/-- An element type, with its conversions from and to `bool` and the integer that an
element is converted to; an infinity or NaN is converted to none. -/
structure ElementType where
  Val : Type
  ofBool : Bool → Val
  toBool : Val → Bool
  toBool_ofBool : ∀ b, toBool (ofBool b) = b
  index : Val → Option Int

/-- `T(0)`. -/
instance (E : ElementType) : Zero E.Val := ⟨E.ofBool false⟩

namespace Simd

/-- The ABI of a type with `V` lanes: the scalar one, of a single lane, or another. -/
inductive Abi : Nat → Type where
  | scalar : Abi 1
  | vector (V : Nat) : Abi V

variable {V : Nat} {E : ElementType} {α β : Type}

/-! ## Masks -/

/-- `MaskEmpty`. -/
def maskEmpty : {V : Nat} → Abi V → Mask V → Bool
  | _, .scalar, mask => !mask 0
  | V, .vector _, mask => allLanes V fun i => !mask i

/-- `MaskFull`. -/
def maskFull : {V : Nat} → Abi V → Mask V → Bool
  | _, .scalar, mask => mask 0
  | V, .vector _, mask => allLanes V mask

/-- `Get` on a mask: the lane as an element, which the caller reads as a `bool`. -/
def getMask (E : ElementType) (v : Mask V) (i : Fin V) : Bool := E.toBool (E.ofBool (v i))

/-- `Set` on a mask: the caller's `bool` becomes an element, and is written as `!!val`. -/
def setMask (E : ElementType) (v : Mask V) (i : Fin V) (val : Bool) : Mask V :=
  Function.update v i (E.toBool (E.ofBool val))

/-- `Load` into a mask. -/
def loadMask (v : Mask V) (ptr : Nat → Bool) (offset : Nat) : Mask V :=
  forLanes V (fun i v => Function.update v i (!!ptr (offset + i))) v

/-- `Store` of a mask. -/
def storeMask (v : Mask V) (ptr : Nat → Bool) (offset : Nat) : Nat → Bool :=
  forLanes V (fun i ptr => Function.update ptr (offset + i) (v i)) ptr

/-! ## Vectors -/

/-- `Get`. -/
def get (v : Lanes V α) (i : Fin V) : α := v i

/-- `Set`. -/
def set (v : Lanes V α) (i : Fin V) (val : α) : Lanes V α := Function.update v i val

/-- `Load`. -/
def load (v : Lanes V α) (ptr : Nat → α) (offset : Nat) : Lanes V α :=
  forLanes V (fun i v => Function.update v i (ptr (offset + i))) v

/-- `Store`. -/
def store (v : Lanes V α) (ptr : Nat → α) (offset : Nat) : Nat → α :=
  forLanes V (fun i ptr => Function.update ptr (offset + i) (v i)) ptr

/-- `where(mask, dst) = src`. -/
def whereAssign (mask : Mask V) (dst src : Lanes V α) : Lanes V α :=
  fun i => if mask i then src i else dst i

/-- `MaskingImplementation::Assign`. -/
def maskedAssign (dst : Lanes V α) (mask : Mask V) (src : Lanes V α) : Lanes V α :=
  whereAssign mask dst src

/-- `MaskingImplementation::Blend`. -/
def blendInto (dst : Lanes V α) (mask : Mask V) (src1 src2 : Lanes V α) : Lanes V α :=
  let dst := whereAssign mask dst src1
  whereAssign (fun i => !mask i) dst src2

/-- `Blend(mask, src1, src2)`. -/
def blend [Zero α] (mask : Mask V) (src1 src2 : Lanes V α) : Lanes V α :=
  blendInto (splat 0) mask src1 src2

/-! ## Gather and Scatter

The index type of a vector type is the vector type itself.  For `float` and
`double` the index lanes are first converted to an integer type, which drops their
fraction; a value that then does not fit the integer type is undefined behaviour. -/

/-- The integer type to which the index lanes are converted, if they are. -/
def castType : ScalarType → Option IntTy
  | .float => some IntTy.int
  | .double => some IntTy.int64
  | .integer _ => none

/-- The conversion of a lane without its fraction to an integer type. -/
def castTo (t : IntTy) (a : Int) : Option Int := if t.Fits a then some a else none

/-- `static_simd_cast` of the index lanes. -/
def castIndex (t : IntTy) (index : β → Option Int) (idx : Lanes V β) :
    Option (Lanes V Int) :=
  sequenceLanes fun i => (index (idx i)).bind (castTo t)

/-- `Gather(v, ptr, idx)`, specialised for `float` and `double`. -/
def gatherInto (T : ScalarType) (v : Lanes V α) (ptr : Region α) (base : Nat)
    (index : β → Option Int) (idx : Lanes V β) : Option (Lanes V α) :=
  match castType T with
  | some t => (castIndex t index idx).bind fun ii =>
      forLanes? V (fun i v => (ptr.read (base + ii i)).map fun x => Function.update v i x) v
  | none => VecCore.gatherInto v ptr base index idx

/-- `Gather<T>(ptr, idx)`. -/
def gather [Zero α] (T : ScalarType) (ptr : Region α) (base : Nat)
    (index : β → Option Int) (idx : Lanes V β) : Option (Lanes V α) :=
  gatherInto T (splat 0) ptr base index idx

/-- `Scatter(v, ptr, idx)`, specialised for `float` and `double`. -/
def scatter (T : ScalarType) (v : Lanes V α) (ptr : Region α) (base : Nat)
    (index : β → Option Int) (idx : Lanes V β) : Option (Region α) :=
  match castType T with
  | some t => (castIndex t index idx).bind fun ii =>
      forLanes? V (fun i ptr => ptr.write (base + ii i) (v i)) ptr
  | none => VecCore.scatter v ptr base index idx

/-! ## Agreement with the generic functions -/

/-- Without its fraction, an index lane is an integer that the conversion of the index
lanes, if there is one, can represent. -/
def IndexFits (T : ScalarType) (index : β → Option Int) (x : β) : Prop :=
  ∃ a, index x = some a ∧ ∀ t, castType T = some t → t.Fits a

theorem castIndex_eq {T : ScalarType} {t : IntTy} (ht : castType T = some t)
    {index : β → Option Int} {idx : Lanes V β} (h : ∀ i, IndexFits T index (idx i)) :
    ∃ ii, castIndex t index idx = some ii ∧ ∀ i, index (idx i) = some (ii i) := by
  choose ii hii hfits using h
  refine ⟨ii, sequenceLanes_eq_some ?_, hii⟩
  intro i
  rw [hii i, Option.bind_some, castTo, if_pos (hfits i t ht)]

theorem gatherInto_eq_generic {T : ScalarType} (v : Lanes V α) (ptr : Region α) (base : Nat)
    {index : β → Option Int} {idx : Lanes V β} (h : ∀ i, IndexFits T index (idx i)) :
    gatherInto T v ptr base index idx = VecCore.gatherInto v ptr base index idx := by
  unfold gatherInto
  cases ht : castType T with
  | none => rfl
  | some t =>
    obtain ⟨ii, hcast, hii⟩ := castIndex_eq ht h
    simp only [hcast, Option.bind_some, VecCore.gatherInto, get_eq, hii]
    rfl

theorem scatter_eq_generic {T : ScalarType} (v : Lanes V α) (ptr : Region α) (base : Nat)
    {index : β → Option Int} {idx : Lanes V β} (h : ∀ i, IndexFits T index (idx i)) :
    scatter T v ptr base index idx = VecCore.scatter v ptr base index idx := by
  unfold scatter
  cases ht : castType T with
  | none => rfl
  | some t =>
    obtain ⟨ii, hcast, hii⟩ := castIndex_eq ht h
    simp only [hcast, Option.bind_some, VecCore.scatter, get_eq, hii]

end Simd

end VecCore
