/-
  Backend/Element.lean --- the element types of the vectors of std::simd.

  The elements of an integer type are its values.  Those of `float` and `double`
  include NaN; a conversion of a finite one to an integer drops the fraction.
-/
import VecCore.Backend.SIMD

set_option autoImplicit false

namespace VecCore

open VecCore.Foundation

/-! ## Floating-point elements -/

/-- The values of a floating-point type. -/
inductive FloatValue (f : FloatFormat) where
  | nan
  | negInf
  | finite (x : f.Finite)
  | posInf

namespace FloatValue

variable {f : FloatFormat}

/-- Conversion from `bool`, in a format that has the number one. -/
def ofBool (hone : f.emin ≤ 0 ∧ 0 ≤ f.emax) : Bool → FloatValue f
  | false => finite .zero
  | true => finite (.powTwo 0 hone)

/-- Conversion to `bool`: everything but zero is true. -/
def toBool : FloatValue f → Bool
  | finite x => decide (x.val ≠ 0)
  | _ => true

/-- The integer that a finite value is converted to: the fraction is dropped. -/
def index : FloatValue f → Option Int
  | finite x => some (x.val.num.tdiv x.val.den)
  | _ => none

theorem toBool_ofBool (hone : f.emin ≤ 0 ∧ 0 ≤ f.emax) :
    ∀ b, toBool (ofBool hone b) = b
  | false => by simp [toBool, ofBool, FloatFormat.Finite.zero]
  | true => by simp [toBool, ofBool, FloatFormat.Finite.powTwo]

/-- A power of two with a natural exponent holds an integer. -/
theorem index_powTwo (n : Nat) (hn : f.emin ≤ n ∧ n ≤ f.emax) :
    index (finite (.powTwo n hn)) = some ((2 ^ n : Nat) : Int) := by
  have hval : (FloatFormat.Finite.powTwo (n : Int) hn).val = (((2 ^ n : Nat) : Int) : Rat) := by
    show (2 : Rat) ^ (n : Int) = _
    rw [zpow_natCast]
    norm_cast
  rw [index, hval, Rat.num_intCast, Rat.den_intCast, Nat.cast_one, Int.tdiv_one]

end FloatValue

/-! ## Elements of the scalar types -/

namespace ScalarType

/-- A conversion from `bool` keeps truth, in an integer type of any width. -/
theorem integer_toBool_ofBool (t : IntTy) (b : Bool) :
    decide ((t.convert b.toInt).val ≠ 0) = b := by
  cases b with
  | false => exact decide_eq_false (not_not.mpr (t.narrow_of_fits t.fits_zero))
  | true =>
    apply decide_eq_true
    intro h
    have hdvd : (t.modulus : Int) ∣ 1 := by
      have hmod : t.narrow 1 ≡ 1 [ZMOD t.modulus] := t.narrow_modEq 1
      rw [show t.narrow 1 = 0 from h] at hmod
      simpa using hmod.dvd
    have hone : t.modulus = 1 := Nat.dvd_one.mp (Int.natCast_dvd_natCast.mp hdvd)
    have htwo : 2 ^ 1 ≤ 2 ^ t.bits := Nat.pow_le_pow_right (by decide) t.bits_pos
    unfold IntTy.modulus at hone
    omega

/-- The elements of a scalar type. -/
def element : ScalarType → ElementType
  | integer t => {
      Val := t.Value
      ofBool := fun b => t.convert b.toInt
      toBool := fun x => decide (x.val ≠ 0)
      toBool_ofBool := integer_toBool_ofBool t
      index := fun x => some x.val }
  | float => {
      Val := FloatValue FloatFormat.single
      ofBool := FloatValue.ofBool (by decide)
      toBool := FloatValue.toBool
      toBool_ofBool := FloatValue.toBool_ofBool (by decide)
      index := FloatValue.index }
  | double => {
      Val := FloatValue FloatFormat.double
      ofBool := FloatValue.ofBool (by decide)
      toBool := FloatValue.toBool
      toBool_ofBool := FloatValue.toBool_ofBool (by decide)
      index := FloatValue.index }

end ScalarType

end VecCore
