/-
  Foundation/FloatFormat.lean --- binary floating-point formats.

  A finite value is a significand times a power of two.  The values of a format,
  without NaN, are the finite ones between the two infinities.
-/
import Mathlib.Algebra.Order.Field.Power
import Mathlib.Algebra.Order.Ring.Rat
import Mathlib.Order.WithBot

set_option autoImplicit false

namespace VecCore.Foundation

/-! ## Adding two infinities to an order -/

section Infinities

variable {α : Type*} [LinearOrder α]

omit [LinearOrder α] in
/-- An element is one of the two infinities, or finite. -/
theorem infinities_cases {P : WithBot (WithTop α) → Prop} (bot : P ⊥)
    (top : P ((⊤ : WithTop α) : WithBot (WithTop α)))
    (finite : ∀ x : α, P ((x : WithTop α) : WithBot (WithTop α)))
    (x : WithBot (WithTop α)) : P x := by
  induction x using WithBot.recBotCoe with
  | bot => exact bot
  | coe x =>
    induction x using WithTop.recTopCoe with
    | top => exact top
    | coe x => exact finite x

/-- The greatest finite element is above everything but the upper infinity. -/
theorem le_coe_iff_ne_top {m : α} (hm : ∀ x, x ≤ m) (x : WithBot (WithTop α)) :
    x ≤ ((m : WithTop α) : WithBot (WithTop α)) ↔
      x ≠ ((⊤ : WithTop α) : WithBot (WithTop α)) := by
  induction x using infinities_cases with
  | bot => simp
  | top => simp
  | finite x => simpa using hm x

/-- The least finite element is below everything but the lower infinity. -/
theorem coe_le_iff_ne_bot {m : α} (hm : ∀ x, m ≤ x) (x : WithBot (WithTop α)) :
    ((m : WithTop α) : WithBot (WithTop α)) ≤ x ↔ x ≠ ⊥ := by
  induction x using infinities_cases with
  | bot => simp
  | top => simp
  | finite x => simpa using hm x

end Infinities

/-! ## Formats -/

/-- A binary format: significands of at most `precision` bits, times `2 ^ e` for
`emin ≤ e ≤ emax`. -/
structure FloatFormat where
  precision : Nat
  emin : Int
  emax : Int
  precision_pos : 0 < precision
  emin_le_emax : emin ≤ emax

namespace FloatFormat

/-- `float`. -/
def single : FloatFormat where
  precision := 24
  emin := -149
  emax := 104
  precision_pos := by decide
  emin_le_emax := by decide

/-- `double`. -/
def double : FloatFormat where
  precision := 53
  emin := -1074
  emax := 971
  precision_pos := by decide
  emin_le_emax := by decide

variable (f : FloatFormat)

/-- The finite values. -/
def Finite : Type :=
  { q : Rat // ∃ m e : Int, |m| < 2 ^ f.precision ∧ f.emin ≤ e ∧ e ≤ f.emax ∧ q = m * 2 ^ e }

instance : LinearOrder f.Finite := inferInstanceAs (LinearOrder (Subtype _))

/-- The values other than NaN: the finite ones, and an infinity on either side. -/
def Extended : Type := WithBot (WithTop f.Finite)

instance : LinearOrder f.Extended := inferInstanceAs (LinearOrder (WithBot (WithTop f.Finite)))

/-- The largest finite value. -/
def largest : f.Finite :=
  ⟨((2 ^ f.precision - 1 : Int) : Rat) * 2 ^ f.emax, 2 ^ f.precision - 1, f.emax, by
    have : (1 : Int) ≤ 2 ^ f.precision := one_le_pow₀ (by decide)
    rw [abs_of_nonneg (by omega)]
    omega, f.emin_le_emax, le_refl _, rfl⟩

/-- Its negation. -/
def lowest : f.Finite :=
  ⟨((-(2 ^ f.precision - 1) : Int) : Rat) * 2 ^ f.emax, -(2 ^ f.precision - 1), f.emax, by
    have : (1 : Int) ≤ 2 ^ f.precision := one_le_pow₀ (by decide)
    rw [abs_neg, abs_of_nonneg (by omega)]
    omega, f.emin_le_emax, le_refl _, rfl⟩

variable {f}

/-- Zero. -/
def Finite.zero : f.Finite := ⟨0, 0, f.emin, by simp, le_refl _, f.emin_le_emax, by simp⟩

/-- A power of two within the range of the exponents. -/
def Finite.powTwo (e : Int) (he : f.emin ≤ e ∧ e ≤ f.emax) : f.Finite :=
  ⟨2 ^ e, 1, e, by
    rw [abs_one]
    exact one_lt_pow₀ (by decide) f.precision_pos.ne', he.1, he.2, by simp⟩

/-- A finite value has at most the magnitude of the largest. -/
theorem abs_le_largest (x : f.Finite) :
    |x.val| ≤ ((2 ^ f.precision - 1 : Int) : Rat) * 2 ^ f.emax := by
  obtain ⟨q, m, e, hm, -, he, rfl⟩ := x
  have hpow : (2 : Rat) ^ e ≤ 2 ^ f.emax := zpow_le_zpow_right₀ (by norm_num) he
  have hsig : ((|m| : Int) : Rat) ≤ ((2 ^ f.precision - 1 : Int) : Rat) := by
    exact_mod_cast Int.le_sub_one_of_lt hm
  rw [abs_mul, abs_of_pos (zpow_pos (by norm_num : (0 : Rat) < 2) e), ← Int.cast_abs]
  have hnonneg : (0 : Rat) ≤ ((|m| : Int) : Rat) := by exact_mod_cast abs_nonneg m
  exact mul_le_mul hsig hpow (zpow_nonneg (by norm_num) e) (hnonneg.trans hsig)

theorem le_largest (x : f.Finite) : x ≤ f.largest :=
  (le_abs_self x.val).trans (abs_le_largest x)

theorem lowest_le (x : f.Finite) : f.lowest ≤ x := by
  have h := (abs_le.mp (abs_le_largest x)).1
  show ((-(2 ^ f.precision - 1) : Int) : Rat) * 2 ^ f.emax ≤ x.val
  rwa [Int.cast_neg, neg_mul]

/-- A finite value among all values. -/
def Extended.finite (x : f.Finite) : f.Extended := WithBot.some (WithTop.some x)

/-- `+infinity`. -/
def Extended.posInf : f.Extended := WithBot.some ⊤

/-- `-infinity`. -/
def Extended.negInf : f.Extended := (⊥ : WithBot (WithTop f.Finite))

/-- The largest finite value bounds everything but the infinity above it. -/
theorem le_largest_iff (x : f.Extended) : x ≤ .finite f.largest ↔ x ≠ .posInf :=
  le_coe_iff_ne_top le_largest x

/-- The lowest finite value bounds everything but the infinity below it. -/
theorem lowest_le_iff (x : f.Extended) : .finite f.lowest ≤ x ↔ x ≠ .negInf :=
  coe_le_iff_ne_bot lowest_le x

end FloatFormat

end VecCore.Foundation
