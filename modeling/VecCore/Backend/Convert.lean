/-
  Backend/Convert.lean --- Convert of Backend/Implementation.h, between integer
  lane types.

  `Convert<Vout>(v)` sets every lane of an uninitialised vector from the lane of
  `v`, which converts the value to the lane type of `Vout`.  A conversion only
  keeps the value modulo the size of the new type, and so does the next one.
-/
import VecCore.Backend.Implementation
import VecCore.Foundation.CInt

set_option autoImplicit false

namespace VecCore

open VecCore.Foundation

variable {V : Nat}

/-- `Convert<Vout>(v)`, where `out` is what the uninitialised result holds. -/
def convertInto {A B : IntTy} (out : Lanes V B.Value) (v : Lanes V A.Value) : Lanes V B.Value :=
  forLanes V (fun i out => set out i (B.convert (get v i).val)) out

@[simp] theorem convertInto_apply {A B : IntTy} (out : Lanes V B.Value) (v : Lanes V A.Value)
    (i : Fin V) : convertInto out v i = B.convert (v i).val :=
  congrFun (forLanes_set (fun i _ => B.convert (get v i).val) out) i

/-- `Convert<B>(v)` from a value-initialised result; the initial value is
irrelevant. -/
def convertTo {A : IntTy} (B : IntTy) (v : Lanes V A.Value) : Lanes V B.Value :=
  convertInto (splat ⟨0, B.fits_zero⟩) v

theorem convertInto_eq {A B : IntTy} (out : Lanes V B.Value) (v : Lanes V A.Value) :
    convertInto out v = convertTo B v := by
  funext i
  rw [convertTo, convertInto_apply, convertInto_apply]

theorem convertTo_apply {A : IntTy} (B : IntTy) (v : Lanes V A.Value) (i : Fin V) :
    convertTo B v i = B.convert (v i).val := convertInto_apply _ v i

/-- Converting through a type that is not narrower than the last one changes
nothing. -/
theorem convertTo_convertTo {A B C : IntTy} (h : C.bits ≤ B.bits) (v : Lanes V A.Value) :
    convertTo C (convertTo B v) = convertTo C v := by
  funext i
  apply Subtype.ext
  rw [convertTo_apply, convertTo_apply, convertTo_apply]
  exact C.narrow_narrow B h (v i)

/-- A conversion to the same type. -/
theorem convertTo_self {A : IntTy} (v : Lanes V A.Value) : convertTo A v = v := by
  funext i
  apply Subtype.ext
  rw [convertTo_apply]
  exact A.narrow_of_fits (v i).property

/-- A round trip through a narrower type does not keep the value in the middle of
the range. -/
theorem convertTo_half_ne {A B : IntTy} (h : B.bits < A.bits) (hV : 0 < V) :
    convertTo A (convertTo B (splat ⟨A.half, A.half_fits⟩ : Lanes V A.Value)) ≠
      splat ⟨A.half, A.half_fits⟩ := by
  intro heq
  have hlane : A.narrow (B.narrow A.half) = A.half := by
    have hval := congrArg Subtype.val (congrFun heq ⟨0, hV⟩)
    rwa [convertTo_apply, convertTo_apply] at hval
  rw [B.narrow_half A h, A.narrow_of_fits A.fits_zero] at hlane
  exact A.half_ne_zero hlane.symm

/-- Conversions compose, and a round trip keeps all vectors exactly through types
that are not narrower. -/
theorem convert_convert (A B C : IntTy) (hV : 0 < V) (outA : Lanes V A.Value)
    (outB : Lanes V B.Value) (outC outC' : Lanes V C.Value) :
    (C.bits ≤ B.bits → ∀ v : Lanes V A.Value,
      convertInto outC (convertInto outB v) = convertInto outC' v) ∧
    ((∀ v : Lanes V A.Value, convertInto outA (convertInto outB v) = v) ↔ A.bits ≤ B.bits) := by
  simp only [convertInto_eq]
  refine ⟨fun h v => convertTo_convertTo h v, ?_, ?_⟩
  · intro h
    by_contra hlt
    exact convertTo_half_ne (Nat.not_le.mp hlt) hV (h _)
  · intro h v
    rw [convertTo_convertTo h, convertTo_self]

/-- A negative lane of `int16_t` makes the round trip through `size_t`. -/
theorem convert_convert_size :
    convertInto (splat ⟨0, by decide⟩ : Lanes 1 IntTy.int16.Value)
        (convertInto (splat ⟨0, by decide⟩ : Lanes 1 IntTy.size.Value)
          (splat ⟨-1, by decide⟩ : Lanes 1 IntTy.int16.Value)) =
      splat ⟨-1, by decide⟩ :=
  (convert_convert .int16 .size .int16 Nat.one_pos _ _ (splat ⟨0, by decide⟩)
    (splat ⟨0, by decide⟩)).2.mpr (by decide) _

end VecCore
