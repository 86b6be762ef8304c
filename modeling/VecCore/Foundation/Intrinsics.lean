/-
  Foundation/Intrinsics.lean --- 256-bit vector intrinsics, with exact arithmetic.

  A register of eight single-precision lanes is `Lanes 8 F`.  A comparison gives
  32-bit masks, all ones or all zeros, and a blend reads the sign bit of each.
  An integer register has eight 32-bit lanes of four bytes.
-/
import VecCore.Foundation.Lanes
import Mathlib.Algebra.Field.Defs
import Mathlib.Data.Fin.VecNotation
import Mathlib.Order.Defs.LinearOrder

set_option autoImplicit false

namespace VecCore.Foundation

variable {F : Type*}

/-- `__m256`, as eight floating-point lanes. -/
abbrev M256 (F : Type*) := Lanes 8 F

/-- `__m256`, as the masks that a comparison produces. -/
abbrev M256Mask := Lanes 8 (BitVec 32)

/-- The comparison predicates in use. -/
inductive CmpPredicate where
  | LT_OS
  | GE_OS
  | EQ_OQ
  | NGE_UQ
  deriving DecidableEq, Repr

/-- `__m256i`, as eight integer lanes. -/
abbrev M256i := Lanes 8 (BitVec 32)

/-- `_mm256_set1_ps`. -/
def mm256Set1 (x : F) : M256 F := splat x

/-- `_mm256_setzero_ps`. -/
def mm256Setzero [Zero F] : M256 F := splat 0

/-- `_mm256_set_ps`, whose arguments run from lane 7 down to lane 0. -/
def mm256Set (e7 e6 e5 e4 e3 e2 e1 e0 : F) : M256 F := ![e0, e1, e2, e3, e4, e5, e6, e7]

/-- `_mm256_blendv_ps`: the lanes of `b` where the sign bit of the mask is set. -/
def mm256Blendv (a b : M256 F) (mask : M256Mask) : M256 F :=
  fun i => if (mask i).msb then b i else a i

/-- `_mm256_sqrt_ps`. -/
def mm256Sqrt (sqrt : F → F) (a : M256 F) : M256 F := fun i => sqrt (a i)

/-- `_mm256_cvtps_epi32`, which rounds every lane to an `int`. -/
def mm256Cvtps (round : F → Int) (a : M256 F) : Lanes 8 Int := fun i => round (a i)

/-- `_mm256_testz_ps`: whether no lane has its sign bit set in both masks. -/
def mm256Testz (a b : M256Mask) : Bool := allLanes 8 fun i => !(a i &&& b i).msb

@[simp] theorem mm256Set1_apply (x : F) (i : Fin 8) : mm256Set1 x i = x := rfl

@[simp] theorem mm256Sqrt_apply (sqrt : F → F) (a : M256 F) (i : Fin 8) :
    mm256Sqrt sqrt a i = sqrt (a i) := rfl

@[simp] theorem mm256Cvtps_apply (round : F → Int) (a : M256 F) (i : Fin 8) :
    mm256Cvtps round a i = round (a i) := rfl

section Cmp

variable [LinearOrder F]

/-- The truth of a predicate. -/
def CmpPredicate.holds : CmpPredicate → F → F → Bool
  | .LT_OS, x, y => decide (x < y)
  | .GE_OS, x, y => decide (x ≥ y)
  | .EQ_OQ, x, y => decide (x = y)
  | .NGE_UQ, x, y => !decide (x ≥ y)

/-- `_mm256_cmp_ps`. -/
def mm256Cmp (a b : M256 F) (p : CmpPredicate) : M256Mask :=
  fun i => if p.holds (a i) (b i) then BitVec.allOnes 32 else 0#32

theorem msb_mm256Cmp (x y : M256 F) (p : CmpPredicate) (i : Fin 8) :
    (mm256Cmp x y p i).msb = p.holds (x i) (y i) := by
  unfold mm256Cmp
  by_cases h : p.holds (x i) (y i) = true
  · rw [if_pos h, h, BitVec.msb_allOnes (by decide)]
  · rw [if_neg h, Bool.eq_false_iff.mpr h, BitVec.msb_zero]

@[simp] theorem mm256Blendv_lt (a b x y : M256 F) (i : Fin 8) :
    mm256Blendv a b (mm256Cmp x y .LT_OS) i = if x i < y i then b i else a i := by
  rw [mm256Blendv, msb_mm256Cmp]
  exact if_congr decide_eq_true_iff rfl rfl

@[simp] theorem mm256Blendv_ge (a b x y : M256 F) (i : Fin 8) :
    mm256Blendv a b (mm256Cmp x y .GE_OS) i = if y i ≤ x i then b i else a i := by
  rw [mm256Blendv, msb_mm256Cmp]
  exact if_congr decide_eq_true_iff rfl rfl

end Cmp

section Arithmetic

variable [Field F]

/-- `_mm256_add_ps`. -/
def mm256Add (a b : M256 F) : M256 F := fun i => a i + b i

/-- `_mm256_sub_ps`. -/
def mm256Sub (a b : M256 F) : M256 F := fun i => a i - b i

/-- `_mm256_mul_ps`. -/
def mm256Mul (a b : M256 F) : M256 F := fun i => a i * b i

/-- `_mm256_div_ps`. -/
def mm256Div (a b : M256 F) : M256 F := fun i => a i / b i

/-- `_mm256_fmadd_ps`: `a * b + c`. -/
def mm256Fmadd (a b c : M256 F) : M256 F := fun i => a i * b i + c i

@[simp] theorem mm256Add_apply (a b : M256 F) (i : Fin 8) : mm256Add a b i = a i + b i := rfl

@[simp] theorem mm256Sub_apply (a b : M256 F) (i : Fin 8) : mm256Sub a b i = a i - b i := rfl

@[simp] theorem mm256Mul_apply (a b : M256 F) (i : Fin 8) : mm256Mul a b i = a i * b i := rfl

@[simp] theorem mm256Div_apply (a b : M256 F) (i : Fin 8) : mm256Div a b i = a i / b i := rfl

@[simp] theorem mm256Fmadd_apply (a b c : M256 F) (i : Fin 8) :
    mm256Fmadd a b c i = a i * b i + c i := rfl

end Arithmetic

/-! ## Integer registers -/

/-- `_mm256_setzero_si256`. -/
def mm256SetzeroSi256 : M256i := splat 0#32

/-- `_mm256_set1_epi32`, of the low bits of a counter. -/
def mm256Set1Epi32 (n : Nat) : M256i := splat (BitVec.ofNat 32 n)

/-- `_mm256_castps_si256`, which keeps all bits. -/
def mm256CastpsSi256 (a : M256Mask) : M256i := a

/-- Byte `j` of a lane. -/
def byte (j : Nat) (x : BitVec 32) : BitVec 8 := x.extractLsb' (8 * j) 8

/-- Byte `j` of the blend of two lanes: that of `b` if the top bit of the byte of the
mask is set. -/
def blendByte (j : Nat) (a b mask : BitVec 32) : BitVec 8 :=
  if (byte j mask).msb then byte j b else byte j a

/-- The blend of two lanes. -/
def blendBytes (a b mask : BitVec 32) : BitVec 32 :=
  blendByte 3 a b mask ++ blendByte 2 a b mask ++ blendByte 1 a b mask ++ blendByte 0 a b mask

/-- `_mm256_blendv_epi8`. -/
def mm256BlendvEpi8 (a b mask : M256i) : M256i := fun i => blendBytes (a i) (b i) (mask i)

/-- A lane is its four bytes. -/
theorem bytes_eq (x : BitVec 32) : byte 3 x ++ byte 2 x ++ byte 1 x ++ byte 0 x = x := by
  have h32 : byte 3 x ++ byte 2 x = x.extractLsb' 16 (8 + 8) :=
    BitVec.extractLsb'_append_extractLsb'_eq_extractLsb' rfl
  have h321 : x.extractLsb' 16 (8 + 8) ++ byte 1 x = x.extractLsb' 8 (8 + 8 + 8) :=
    BitVec.extractLsb'_append_extractLsb'_eq_extractLsb' rfl
  have h3210 : x.extractLsb' 8 (8 + 8 + 8) ++ byte 0 x = x.extractLsb' 0 (8 + 8 + 8 + 8) :=
    BitVec.extractLsb'_append_extractLsb'_eq_extractLsb' rfl
  rw [h32, h321, h3210]
  exact BitVec.extractLsb'_eq_self

theorem blendByte_allOnes {j : Nat} (hj : j < 4) (a b : BitVec 32) :
    blendByte j a b (BitVec.allOnes 32) = byte j b := by
  have hmsb : ∀ j < 4, (byte j (BitVec.allOnes 32)).msb = true := by decide
  exact if_pos (hmsb j hj)

theorem blendByte_zero {j : Nat} (hj : j < 4) (a b : BitVec 32) :
    blendByte j a b 0#32 = byte j a := by
  have hmsb : ∀ j < 4, (byte j 0#32).msb = false := by decide
  exact if_neg (Bool.eq_false_iff.mp (hmsb j hj))

/-- Under a mask that is the same in all bytes, whole lanes are blended. -/
theorem blendBytes_allOnes (a b : BitVec 32) : blendBytes a b (BitVec.allOnes 32) = b := by
  unfold blendBytes
  rw [blendByte_allOnes (by decide), blendByte_allOnes (by decide), blendByte_allOnes (by decide),
    blendByte_allOnes (by decide), bytes_eq]

theorem blendBytes_zero (a b : BitVec 32) : blendBytes a b 0#32 = a := by
  unfold blendBytes
  rw [blendByte_zero (by decide), blendByte_zero (by decide), blendByte_zero (by decide),
    blendByte_zero (by decide), bytes_eq]

/-! ## Masks of truth values -/

/-- The mask register of eight truth values. -/
def maskOf (m : Lanes 8 Bool) : M256Mask := fun i => if m i then BitVec.allOnes 32 else 0#32

theorem msb_maskOf (m : Lanes 8 Bool) (i : Fin 8) : (maskOf m i).msb = m i := by
  unfold maskOf
  cases m i with
  | true => exact BitVec.msb_allOnes (by decide)
  | false => exact BitVec.msb_zero

@[simp] theorem mm256Blendv_maskOf (a b : M256 F) (m : Lanes 8 Bool) (i : Fin 8) :
    mm256Blendv a b (maskOf m) i = if m i then b i else a i := by
  rw [mm256Blendv, msb_maskOf]

@[simp] theorem mm256BlendvEpi8_maskOf (a b : M256i) (m : Lanes 8 Bool) (i : Fin 8) :
    mm256BlendvEpi8 a b (mm256CastpsSi256 (maskOf m)) i = if m i then b i else a i := by
  unfold mm256BlendvEpi8 mm256CastpsSi256 maskOf
  cases m i with
  | true => exact blendBytes_allOnes (a i) (b i)
  | false => exact blendBytes_zero (a i) (b i)

@[simp] theorem mm256Testz_maskOf (m : Lanes 8 Bool) :
    mm256Testz (maskOf m) (maskOf m) = allLanes 8 fun i => !m i := by
  unfold mm256Testz
  simp only [BitVec.and_self, msb_maskOf]

/-- A comparison gives such a register. -/
theorem mm256Cmp_eq_maskOf [LinearOrder F] (x y : M256 F) (p : CmpPredicate) :
    mm256Cmp x y p = maskOf fun i => p.holds (x i) (y i) := rfl

/-- `_CMP_NGE_UQ` on numbers. -/
theorem CmpPredicate.holds_NGE_UQ [LinearOrder F] (x y : F) :
    CmpPredicate.NGE_UQ.holds x y = decide (x < y) := by
  simp only [CmpPredicate.holds, ge_iff_le, ← not_lt, decide_not, Bool.not_not]

end VecCore.Foundation
