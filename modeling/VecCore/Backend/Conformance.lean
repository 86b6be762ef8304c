/-
  Backend/Conformance.lean --- the std::simd specialisations against the generic
  implementations.

  An `Api` is what one vector type and its mask type offer.  The same calls are
  made through either one, on variables of both types and on arrays; a subscript
  outside its array is undefined behaviour.
-/
import VecCore.Backend.Element
import VecCore.Foundation.Trace

set_option autoImplicit false

namespace VecCore

open VecCore.Foundation

variable {V : Nat} {E : ElementType}

/-! ## The two implementations -/

/-- The API of a vector type of `V` lanes and of its mask type. -/
structure Api (V : Nat) (E : ElementType) where
  get : Lanes V E.Val → Fin V → E.Val
  set : Lanes V E.Val → Fin V → E.Val → Lanes V E.Val
  getMask : Mask V → Fin V → Bool
  setMask : Mask V → Fin V → Bool → Mask V
  load : Lanes V E.Val → (Nat → E.Val) → Nat → Lanes V E.Val
  store : Lanes V E.Val → (Nat → E.Val) → Nat → Nat → E.Val
  loadMask : Mask V → (Nat → Bool) → Nat → Mask V
  storeMask : Mask V → (Nat → Bool) → Nat → Nat → Bool
  maskedAssign : Lanes V E.Val → Mask V → Lanes V E.Val → Lanes V E.Val
  blend : Mask V → Lanes V E.Val → Lanes V E.Val → Lanes V E.Val
  maskFull : Mask V → Bool
  maskEmpty : Mask V → Bool
  gather : Region E.Val → Nat → Lanes V E.Val → Option (Lanes V E.Val)
  scatter : Lanes V E.Val → Region E.Val → Nat → Lanes V E.Val → Option (Region E.Val)

/-- The implementations of Backend/Implementation.h. -/
def genericApi (V : Nat) (E : ElementType) : Api V E where
  get := get
  set := set
  getMask := get
  setMask := set
  load := load
  store := store
  loadMask := load
  storeMask := store
  maskedAssign := maskedAssign
  blend := blend
  maskFull := maskFull
  maskEmpty := maskEmpty
  gather ptr base idx := gather ptr base E.index idx
  scatter v ptr base idx := scatter v ptr base E.index idx

/-- The specialisations of Backend/SIMD.h for an ABI and a scalar type. -/
def simdApi (abi : Simd.Abi V) (T : ScalarType) : Api V T.element where
  get := Simd.get
  set := Simd.set
  getMask := Simd.getMask T.element
  setMask := Simd.setMask T.element
  load := Simd.load
  store := Simd.store
  loadMask := Simd.loadMask
  storeMask := Simd.storeMask
  maskedAssign := Simd.maskedAssign
  blend := Simd.blend
  maskFull := Simd.maskFull abi
  maskEmpty := Simd.maskEmpty abi
  gather ptr base idx := Simd.gather T ptr base T.element.index idx
  scatter v ptr base idx := Simd.scatter T v ptr base T.element.index idx

/-! ## Function by function -/

namespace Simd

variable {α : Type}

theorem getMask_eq (E : ElementType) (v : Mask V) (i : Fin V) :
    getMask E v i = VecCore.get v i := E.toBool_ofBool (v i)

theorem setMask_eq (E : ElementType) (v : Mask V) (i : Fin V) (val : Bool) :
    setMask E v i val = VecCore.set v i val := by
  rw [setMask, E.toBool_ofBool, VecCore.set]

theorem loadMask_eq (v : Mask V) (ptr : Nat → Bool) (offset : Nat) :
    loadMask v ptr offset = VecCore.load v ptr offset := by
  simp only [loadMask, Bool.not_not]
  rfl

theorem maskedAssign_eq (dst : Lanes V α) (mask : Mask V) (src : Lanes V α) :
    maskedAssign dst mask src = VecCore.maskedAssign dst mask src :=
  funext fun i => (maskedAssign_apply dst mask src i).symm

/-- The two complementary assignments leave nothing of the old content. -/
theorem blend_eq [Zero α] (mask : Mask V) (src1 src2 : Lanes V α) :
    blend mask src1 src2 = VecCore.blend mask src1 src2 := by
  funext i
  rw [blend_apply]
  cases h : mask i <;> simp [blend, blendInto, whereAssign, h]

theorem maskFull_eq : ∀ {V : Nat} (abi : Abi V) (mask : Mask V),
    maskFull abi mask = VecCore.maskFull mask
  | _, .scalar, mask => by
      rw [Bool.eq_iff_iff, maskFull_iff, Fin.forall_fin_one]
      rfl
  | _, .vector _, _ => rfl

theorem maskEmpty_eq : ∀ {V : Nat} (abi : Abi V) (mask : Mask V),
    maskEmpty abi mask = VecCore.maskEmpty mask
  | _, .scalar, mask => by
      rw [Bool.eq_iff_iff, maskEmpty_iff, Fin.forall_fin_one, maskEmpty]
      exact Bool.not_eq_true' (mask 0) ▸ Iff.rfl
  | _, .vector _, _ => rfl

end Simd

/-! ## Gathers from one position -/

/-- A gather whose index lanes all hold one position of the array. -/
theorem gather_splat {ptr : Region E.Val} {p : Nat} {x : E.Val}
    (hx : E.index x = some (p : Int)) (hp : p < ptr.size) :
    gather ptr 0 E.index (splat x : Lanes V E.Val) = some (splat (ptr.cell p)) :=
  gatherInto_eq _ (q := splat p)
    (fun _ => ⟨p, hx, by rw [splat_apply, Nat.cast_zero, zero_add]⟩) fun _ => hp

/-- A position that the specialisation's integer type does not have. -/
theorem gather_splat_eq_none {T : ScalarType} {t : IntTy} (ht : Simd.castType T = some t)
    {ptr : Region E.Val} {p : Nat} {x : E.Val} (hx : E.index x = some (p : Int))
    (hp : ¬ t.Fits p) :
    Simd.gather T ptr 0 E.index (splat x : Lanes (V + 1) E.Val) = none := by
  have hcast : Simd.castIndex t E.index (splat x : Lanes (V + 1) E.Val) = none :=
    sequenceLanes_eq_none (i := 0) (by
      rw [splat_apply, hx, Option.bind_some, Simd.castTo, if_neg hp])
  rw [Simd.gather, Simd.gatherInto, ht]
  exact congrArg (Option.bind · _) hcast

/-! ## Calls -/

/-- A call.  Variables of each type are numbered; `base` and `offset` are where a
pointer argument points into its array. -/
inductive Call (V : Nat) (E : ElementType) where
  | get (v : Nat) (i : Fin V)
  | set (v : Nat) (i : Fin V) (val : E.Val)
  | getMask (m : Nat) (i : Fin V)
  | setMask (m : Nat) (i : Fin V) (val : Bool)
  | load (v : Nat) (offset : Nat)
  | store (v : Nat) (offset : Nat)
  | loadMask (m : Nat) (offset : Nat)
  | storeMask (m : Nat) (offset : Nat)
  | maskedAssign (dst mask src : Nat)
  | blend (dst mask src1 src2 : Nat)
  | maskFull (m : Nat)
  | maskEmpty (m : Nat)
  | gather (dst base idx : Nat)
  | scatter (src base idx : Nat)

/-- What a call returns. -/
inductive Reply (V : Nat) (E : ElementType) where
  | done
  | element (x : E.Val)
  | flag (b : Bool)
  | vector (v : Lanes V E.Val)

/-- The variables, and an array of elements and one of flags. -/
structure State (V : Nat) (E : ElementType) where
  vec : Nat → Lanes V E.Val
  mask : Nat → Mask V
  mem : Region E.Val
  flags : Region Bool

namespace State

/-- Assigns a vector variable. -/
def setVec (s : State V E) (v : Nat) (x : Lanes V E.Val) : State V E :=
  { s with vec := Function.update s.vec v x }

/-- Assigns a mask variable. -/
def setMask (s : State V E) (m : Nat) (x : Mask V) : State V E :=
  { s with mask := Function.update s.mask m x }

end State

/-- One call.  A `Load` or `Store` stays within its array. -/
def step (A : Api V E) : Call V E → State V E → Option (Reply V E × State V E)
  | .get v i, s => some (.element (A.get (s.vec v) i), s)
  | .set v i val, s => some (.done, s.setVec v (A.set (s.vec v) i val))
  | .getMask m i, s => some (.flag (A.getMask (s.mask m) i), s)
  | .setMask m i val, s => some (.done, s.setMask m (A.setMask (s.mask m) i val))
  | .load v offset, s =>
      if offset + V ≤ s.mem.size then
        some (.done, s.setVec v (A.load (s.vec v) s.mem.cell offset))
      else none
  | .store v offset, s =>
      if offset + V ≤ s.mem.size then
        some (.done, { s with
          mem := { s.mem with cell := A.store (s.vec v) s.mem.cell offset } })
      else none
  | .loadMask m offset, s =>
      if offset + V ≤ s.flags.size then
        some (.done, s.setMask m (A.loadMask (s.mask m) s.flags.cell offset))
      else none
  | .storeMask m offset, s =>
      if offset + V ≤ s.flags.size then
        some (.done, { s with
          flags := { s.flags with cell := A.storeMask (s.mask m) s.flags.cell offset } })
      else none
  | .maskedAssign dst mask src, s =>
      some (.done, s.setVec dst (A.maskedAssign (s.vec dst) (s.mask mask) (s.vec src)))
  | .blend dst mask src1 src2, s =>
      let x := A.blend (s.mask mask) (s.vec src1) (s.vec src2)
      some (.vector x, s.setVec dst x)
  | .maskFull m, s => some (.flag (A.maskFull (s.mask m)), s)
  | .maskEmpty m, s => some (.flag (A.maskEmpty (s.mask m)), s)
  | .gather dst base idx, s =>
      (A.gather s.mem base (s.vec idx)).map fun x => (.vector x, s.setVec dst x)
  | .scatter src base idx, s =>
      (A.scatter (s.vec src) s.mem base (s.vec idx)).map fun mem => (.done, { s with mem })

/-- Answers the calls in order. -/
def run (A : Api V E) (calls : List (Call V E)) (s : State V E) :
    Option (List (Reply V E) × State V E) :=
  runCalls (step A) calls s

/-! ## Agreement -/

/-- The index lanes of a `Gather` or `Scatter` are in the range of their conversion. -/
def IndicesFit (T : ScalarType) : Call V E → State V E → Prop
  | .gather _ _ idx, s => ∀ i, Simd.IndexFits T E.index (s.vec idx i)
  | .scatter _ _ idx, s => ∀ i, Simd.IndexFits T E.index (s.vec idx i)
  | _, _ => True

/-- One call answers alike. -/
theorem step_simd_eq_generic (abi : Simd.Abi V) (T : ScalarType)
    (c : Call V T.element) (s : State V T.element) (h : IndicesFit T c s) :
    step (simdApi abi T) c s = step (genericApi V T.element) c s := by
  cases c with
  | get v i => rfl
  | set v i val => rfl
  | getMask m i => simp only [step, simdApi, genericApi, Simd.getMask_eq]
  | setMask m i val => simp only [step, simdApi, genericApi, Simd.setMask_eq]
  | load v offset => rfl
  | store v offset => rfl
  | loadMask m offset => simp only [step, simdApi, genericApi, Simd.loadMask_eq]
  | storeMask m offset => rfl
  | maskedAssign dst mask src => simp only [step, simdApi, genericApi, Simd.maskedAssign_eq]
  | blend dst mask src1 src2 => simp only [step, simdApi, genericApi, Simd.blend_eq]
  | maskFull m => simp only [step, simdApi, genericApi, Simd.maskFull_eq]
  | maskEmpty m => simp only [step, simdApi, genericApi, Simd.maskEmpty_eq]
  | gather dst base idx =>
    simp only [step, simdApi, genericApi, Simd.gather, gather,
      Simd.gatherInto_eq_generic _ _ _ h]
  | scatter src base idx =>
    simp only [step, simdApi, genericApi, Simd.scatter_eq_generic _ _ _ h]

/-- Through either implementation, the calls return the same and leave the same
variables and arrays. -/
theorem run_simd_eq_generic (abi : Simd.Abi V) (T : ScalarType)
    (calls : List (Call V T.element)) (s : State V T.element)
    (h : Along (step (genericApi V T.element)) (IndicesFit T) calls s) :
    run (simdApi abi T) calls s = run (genericApi V T.element) calls s :=
  runCalls_congr (step_simd_eq_generic abi T) calls s h

/-- A gather and a scatter with repeated indices, around a test of a mask. -/
theorem run_simd_eq_generic_float_repeated :
    let s : State 2 ScalarType.float.element :=
      ⟨fun _ => splat (.finite (.powTwo (1 : Nat) (by decide))), fun _ => splat true,
        ⟨4, fun _ => .nan⟩, ⟨0, fun _ => false⟩⟩
    let calls : List (Call 2 ScalarType.float.element) :=
      [.gather 2 0 1, .maskFull 0, .scatter 2 0 1]
    run (simdApi (.vector 2) .float) calls s = run (genericApi 2 _) calls s := by
  intro s calls
  have hfits : Simd.IndexFits .float ScalarType.float.element.index (s.vec 1 0) :=
    ⟨_, FloatValue.index_powTwo 1 (by decide), fun t ht => by
      obtain rfl := Option.some_inj.mp ht
      decide⟩
  refine run_simd_eq_generic (.vector 2) .float calls s
    ⟨fun _ => hfits, fun a ha => ⟨trivial, fun b hb => ⟨?_, fun _ _ => trivial⟩⟩⟩
  intro _
  -- The gather assigns variable 2, and the indices stay in variable 1.
  rw [step] at ha
  obtain ⟨x, -, rfl⟩ := Option.map_eq_some_iff.mp ha
  obtain rfl := Option.some_inj.mp hb
  exact hfits

/-- For `float`, the specialisation cannot gather from position 2^31, which the
index lane holds exactly. -/
theorem run_simd_ne_generic_float :
    let s : State 1 ScalarType.float.element :=
      ⟨fun _ => splat (.finite (.powTwo (31 : Nat) (by decide))), fun _ => splat true,
        ⟨2 ^ 31 + 1, fun _ => .nan⟩, ⟨0, fun _ => false⟩⟩
    (ScalarType.float.element.index (s.vec 0 0) = some ((2 ^ 31 : Nat) : Int) ∧
        2 ^ 31 < s.mem.size) ∧
      run (simdApi .scalar .float) [.gather 1 0 0] s ≠
        run (genericApi 1 _) [.gather 1 0 0] s := by
  intro s
  have hindex : ScalarType.float.element.index (s.vec 0 0) = some ((2 ^ 31 : Nat) : Int) :=
    FloatValue.index_powTwo 31 (by decide)
  have hsize : 2 ^ 31 < s.mem.size := Nat.lt_succ_self (2 ^ 31)
  have hgeneric : gather s.mem 0 ScalarType.float.element.index (s.vec 0) =
      some (splat FloatValue.nan) := gather_splat hindex hsize
  have hsimd : Simd.gather .float s.mem 0 ScalarType.float.element.index (s.vec 0) = none :=
    gather_splat_eq_none rfl hindex (by decide)
  refine ⟨⟨hindex, hsize⟩, ?_⟩
  simp only [run, runCalls, step, simdApi, genericApi, hsimd, hgeneric, Option.map_none,
    Option.map_some, Option.bind_none]
  exact fun h => Option.some_ne_none _ h.symm

/-- The index lanes of an integer type need no conversion. -/
theorem run_simd_eq_generic_integer (abi : Simd.Abi V) (t : IntTy)
    (calls : List (Call V (ScalarType.integer t).element))
    (s : State V (ScalarType.integer t).element) :
    run (simdApi abi (.integer t)) calls s = run (genericApi V _) calls s := by
  refine runCalls_congr (step_simd_eq_generic abi (.integer t)) calls s
    (Along.of_forall ?_ s)
  intro c _ s
  have hfits : ∀ x : t.Value, Simd.IndexFits (.integer t) (fun x => some x.val) x :=
    fun x => ⟨x.val, rfl, fun _ h => absurd h.symm (Option.some_ne_none _)⟩
  cases c with
  | gather dst base idx => exact fun i => hfits (s.vec idx i)
  | scatter src base idx => exact fun i => hfits (s.vec idx i)
  | _ => trivial

end VecCore
