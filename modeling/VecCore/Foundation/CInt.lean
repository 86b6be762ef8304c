/-
  Foundation/CInt.lean --- the integer types of C++.

  A type is a width and a signedness; its values are integers in its range.
  Conversions to a type are modular.  Arithmetic is done in a type: an unsigned
  result wraps, a signed result that does not fit is undefined behaviour, which
  is `none`.  Operands narrower than `int` are promoted to `int` first.
-/
import Mathlib.Data.Int.ModEq
import Mathlib.Tactic.Linarith
import Mathlib.Tactic.Ring

set_option autoImplicit false

namespace VecCore.Foundation

/-- An integer type. -/
structure IntTy where
  /-- Width. -/
  bits : Nat
  /-- Whether it has negative values, in two's complement. -/
  signed : Bool
  /-- A type has at least one bit. -/
  bits_pos : 0 < bits
  deriving DecidableEq

namespace IntTy

/-- `int`. -/
def int : IntTy := ⟨32, true, by decide⟩

/-- `int16_t`. -/
def int16 : IntTy := ⟨16, true, by decide⟩

/-- `uint16_t`. -/
def uint16 : IntTy := ⟨16, false, by decide⟩

/-- `uint32_t`. -/
def uint32 : IntTy := ⟨32, false, by decide⟩

/-- `int64_t`. -/
def int64 : IntTy := ⟨64, true, by decide⟩

/-- `size_t`. -/
def size : IntTy := ⟨64, false, by decide⟩

variable (t : IntTy)

/-- The number of values, `2^bits`. -/
def modulus : Nat := 2 ^ t.bits

/-- The least value. -/
def lo : Int := if t.signed then -2 ^ (t.bits - 1) else 0

/-- The greatest value. -/
def hi : Int := if t.signed then 2 ^ (t.bits - 1) - 1 else 2 ^ t.bits - 1

/-- `x` is a value of the type. -/
def Fits (x : Int) : Prop := t.lo ≤ x ∧ x ≤ t.hi

instance (x : Int) : Decidable (t.Fits x) := inferInstanceAs (Decidable (_ ∧ _))

/-- The values of the type. -/
abbrev Value : Type := { x : Int // t.Fits x }

/-- Conversion to the type. -/
def narrow (x : Int) : Int :=
  if t.signed then Int.bmod x t.modulus else x % t.modulus

/-! ## Ranges -/

theorem modulus_eq : (t.modulus : Int) = 2 * 2 ^ (t.bits - 1) := by
  obtain ⟨b, hb⟩ := Nat.exists_eq_succ_of_ne_zero (Nat.ne_of_gt t.bits_pos)
  rw [modulus, hb, Nat.succ_sub_one, pow_succ]
  push_cast
  ring

theorem hi_sub_lo : t.hi - t.lo = t.modulus - 1 := by
  have h := t.modulus_eq
  have hm : (t.modulus : Int) = 2 ^ t.bits := by simp [modulus]
  cases hs : t.signed <;> simp only [hi, lo, hs, if_true, Bool.false_eq_true, if_false]
  · omega
  · omega

theorem lo_nonpos : t.lo ≤ 0 := by
  have : (0 : Int) < 2 ^ (t.bits - 1) := by positivity
  unfold lo
  split <;> omega

theorem hi_nonneg : 0 ≤ t.hi := by
  have : (0 : Int) < 2 ^ (t.bits - 1) := by positivity
  have : (0 : Int) < 2 ^ t.bits := by positivity
  unfold hi
  split <;> omega

theorem fits_zero : t.Fits 0 := ⟨t.lo_nonpos, t.hi_nonneg⟩

/-- A value of a signed type is one of every type that is not narrower, except that a
negative value is not one of an unsigned type. -/
theorem fits_of_signed {u : IntTy} (hu : u.signed = true) (hbits : u.bits ≤ t.bits) {x : Int}
    (hx : u.Fits x) (h : t.signed = true ∨ 0 ≤ x) : t.Fits x := by
  have hpow : (2 : Int) ^ (u.bits - 1) ≤ 2 ^ (t.bits - 1) :=
    pow_le_pow_right₀ one_le_two (by omega)
  have hm := t.modulus_eq
  have hm' : (t.modulus : Int) = 2 ^ t.bits := by simp [modulus]
  simp only [Fits, lo, hi, hu, if_true] at hx
  cases hs : t.signed with
  | true =>
    simp only [Fits, lo, hi, hs, if_true]
    omega
  | false =>
    have hnonneg : 0 ≤ x := h.resolve_left (hs ▸ Bool.false_ne_true)
    simp only [Fits, lo, hi, hs, Bool.false_eq_true, if_false]
    omega

/-- Two values of a type that are congruent modulo its size are equal. -/
theorem eq_of_modEq {x y : Int} (hx : t.Fits x) (hy : t.Fits y)
    (h : x ≡ y [ZMOD t.modulus]) : x = y := by
  obtain ⟨q, hq⟩ := h.dvd
  have hrange := t.hi_sub_lo
  have hpos : (0 : Int) < t.modulus := by simp [modulus]
  have hlt : y - x < t.modulus := by have := hx.1; have := hy.2; omega
  have hgt : -(t.modulus : Int) < y - x := by have := hx.2; have := hy.1; omega
  have hq0 : q = 0 := by
    rw [hq] at hlt hgt
    have h1 : q < 1 := by nlinarith
    have h2 : -1 < q := by nlinarith
    omega
  rw [hq0, mul_zero] at hq
  omega

/-! ## Conversions -/

theorem narrow_modEq (x : Int) : t.narrow x ≡ x [ZMOD t.modulus] := by
  unfold narrow
  split
  · exact Int.bmod_emod
  · exact Int.mod_modEq x _

theorem narrow_fits (x : Int) : t.Fits (t.narrow x) := by
  have hpos : 0 < t.modulus := by simp [modulus]
  have hm := t.modulus_eq
  have hm' : (t.modulus : Int) = 2 ^ t.bits := by simp [modulus]
  cases hs : t.signed with
  | true =>
    have h1 := Int.le_bmod (x := x) hpos
    have h2 := Int.bmod_lt (x := x) hpos
    simp only [Fits, narrow, lo, hi, hs, if_true]
    omega
  | false =>
    have h1 := Int.emod_nonneg x (b := t.modulus) (by omega)
    have h2 := Int.emod_lt_of_pos x (b := t.modulus) (by omega)
    simp only [Fits, narrow, lo, hi, hs, Bool.false_eq_true, if_false]
    omega

/-- Conversion is the only value of the type congruent to its argument. -/
theorem narrow_eq_of_modEq {x y : Int} (hy : t.Fits y) (h : y ≡ x [ZMOD t.modulus]) :
    t.narrow x = y :=
  t.eq_of_modEq (t.narrow_fits x) hy ((t.narrow_modEq x).trans h.symm)

/-- A value of the type is converted to itself. -/
theorem narrow_of_fits {x : Int} (hx : t.Fits x) : t.narrow x = x :=
  t.narrow_eq_of_modEq hx (Int.ModEq.refl x)

/-- A negative number is converted to an unsigned type by adding the number of values. -/
theorem narrow_of_neg (ht : t.signed = false) {x : Int} (hlo : -t.modulus ≤ x) (hneg : x < 0) :
    t.narrow x = x + t.modulus := by
  have hm' : (t.modulus : Int) = 2 ^ t.bits := by simp [modulus]
  refine t.narrow_eq_of_modEq ?_ Int.add_modEq_right
  simp only [Fits, lo, hi, ht, Bool.false_eq_true, if_false]
  omega

theorem narrow_eq_narrow_iff {x y : Int} :
    t.narrow x = t.narrow y ↔ x ≡ y [ZMOD t.modulus] :=
  ⟨fun h => (t.narrow_modEq x).symm.trans (h ▸ t.narrow_modEq y), fun h =>
    t.narrow_eq_of_modEq (t.narrow_fits y) ((t.narrow_modEq y).trans h.symm)⟩

/-- A conversion through a type that is not narrower changes nothing. -/
theorem narrow_narrow (u : IntTy) (h : t.bits ≤ u.bits) (x : Int) :
    t.narrow (u.narrow x) = t.narrow x := by
  have hdvd : (t.modulus : Int) ∣ u.modulus :=
    Int.natCast_dvd_natCast.mpr (Nat.pow_dvd_pow 2 h)
  exact t.narrow_eq_narrow_iff.mpr ((u.narrow_modEq x).of_dvd hdvd)

/-- A multiple of half the number of values, and of every smaller power of two, that
is not zero: the least value of a signed type, the middle of an unsigned one. -/
def half : Int := if t.signed then t.lo else 2 ^ (t.bits - 1)

theorem half_fits : t.Fits t.half := by
  have hm := t.modulus_eq
  have hm' : (t.modulus : Int) = 2 ^ t.bits := by simp [modulus]
  have hpos : (0 : Int) < 2 ^ (t.bits - 1) := by positivity
  cases hs : t.signed <;> simp only [Fits, half, lo, hi, hs, if_true, Bool.false_eq_true, if_false]
  · omega
  · omega

theorem half_ne_zero : t.half ≠ 0 := by
  have hpos : (0 : Int) < 2 ^ (t.bits - 1) := by positivity
  unfold half lo
  split <;> omega

/-- A narrower type converts it to zero. -/
theorem narrow_half (u : IntTy) (h : t.bits < u.bits) : t.narrow u.half = 0 := by
  have hdvd : (t.modulus : Int) ∣ 2 ^ (u.bits - 1) := by
    rw [modulus, Nat.cast_pow, Nat.cast_ofNat]
    exact pow_dvd_pow 2 (by omega)
  have hhalf : (t.modulus : Int) ∣ u.half := by
    unfold half lo
    split
    · exact Int.dvd_neg.mpr hdvd
    · exact hdvd
  exact t.narrow_eq_of_modEq t.fits_zero (Int.modEq_zero_iff_dvd.mpr hhalf).symm

/-! ## Arithmetic -/

/-- The result of an operation done in the type: an unsigned result wraps, a
signed result that does not fit is undefined. -/
def result (x : Int) : Option Int :=
  if t.signed then if t.Fits x then some x else none else some (t.narrow x)

theorem result_of_fits {x : Int} (hx : t.Fits x) : t.result x = some x := by
  unfold result
  rw [if_pos hx, t.narrow_of_fits hx, ite_self]

/-- A signed result that does not fit is undefined. -/
theorem result_of_not_fits (hs : t.signed = true) {x : Int} (hx : ¬ t.Fits x) :
    t.result x = none := by
  unfold result
  rw [if_pos hs, if_neg hx]

/-- A defined result is a value of the type, congruent to the exact result. -/
theorem result_spec {x y : Int} (h : t.result x = some y) :
    t.Fits y ∧ y ≡ x [ZMOD t.modulus] := by
  unfold result at h
  split at h
  · split at h
    · rename_i hx
      obtain rfl := Option.some.inj h
      exact ⟨hx, Int.ModEq.refl _⟩
    · exact absurd h (by simp)
  · obtain rfl := Option.some.inj h
    exact ⟨t.narrow_fits x, t.narrow_modEq x⟩

/-- The conversion, as a value of the type. -/
def convert (x : Int) : t.Value := ⟨t.narrow x, t.narrow_fits x⟩

/-- The arithmetic operators. -/
inductive Op where
  | add | sub | mul | div | mod
  deriving DecidableEq, Repr

/-- An operation on two values of the type.  Division by zero is undefined, and so
is a remainder whose quotient is. -/
def arith : Op → Int → Int → Option Int
  | .add, x, y => t.result (x + y)
  | .sub, x, y => t.result (x - y)
  | .mul, x, y => t.result (x * y)
  | .div, x, y => if y = 0 then none else t.result (x.tdiv y)
  | .mod, x, y =>
      if y = 0 then none else (t.result (x.tdiv y)).bind fun _ => t.result (x.tmod y)

/-- The type in which operands of the type are computed with: `int` for a narrower
type. -/
def promoted : IntTy := if t.bits < 32 then int else t

/-- An operation gives a value of the type. -/
theorem arith_fits {o : Op} {x y r : Int} (h : t.arith o x y = some r) : t.Fits r := by
  cases o with
  | add => exact (t.result_spec h).1
  | sub => exact (t.result_spec h).1
  | mul => exact (t.result_spec h).1
  | div =>
    rw [arith] at h
    split at h
    · exact absurd h (by simp)
    · exact (t.result_spec h).1
  | mod =>
    rw [arith] at h
    split at h
    · exact absurd h (by simp)
    · obtain ⟨-, -, hr⟩ := Option.bind_eq_some_iff.mp h
      exact (t.result_spec hr).1

/-- Up to a smaller modulus, `+`, `-` and `*` see their operands up to it. -/
theorem arith_modEq {o : Op} (ho : o ≠ .div ∧ o ≠ .mod) {n : Int} (hn : n ∣ t.modulus)
    {x y r x' y' r' : Int} (hx : x ≡ x' [ZMOD n]) (hy : y ≡ y' [ZMOD n])
    (h : t.arith o x y = some r) (h' : t.arith o x' y' = some r') : r ≡ r' [ZMOD n] := by
  have hresult : ∀ {a b : Int}, t.result a = some b → b ≡ a [ZMOD n] := fun hab =>
    (t.result_spec hab).2.of_dvd hn
  cases o with
  | add => exact (hresult h).trans ((hx.add hy).trans (hresult h').symm)
  | sub => exact (hresult h).trans ((hx.sub hy).trans (hresult h').symm)
  | mul => exact (hresult h).trans ((hx.mul hy).trans (hresult h').symm)
  | div => exact absurd rfl ho.1
  | mod => exact absurd rfl ho.2

theorem promoted_of_le (h : 32 ≤ t.bits) : t.promoted = t := if_neg (Nat.not_lt.mpr h)

/-- Promotion does not narrow. -/
theorem modulus_dvd_promoted : (t.modulus : Int) ∣ t.promoted.modulus := by
  unfold promoted
  split
  · rename_i h
    exact Int.natCast_dvd_natCast.mpr (Nat.pow_dvd_pow 2 (Nat.le_of_lt h))
  · exact dvd_refl _

/-! ## Compound assignment -/

theorem convert_eq_convert_iff {x y : Int} :
    t.convert x = t.convert y ↔ x ≡ y [ZMOD t.modulus] :=
  Subtype.ext_iff.trans t.narrow_eq_narrow_iff

/-- `x op= y`: the operation in the promoted type, converted back. -/
def opAssign (o : Op) (x y : t.Value) : Option t.Value :=
  (t.promoted.arith o x y).map t.convert

/-- The sum of two values is defined: the promoted type is wide enough for it, or it
wraps. -/
def AddsModularly : Prop := t.bits + 1 < 32 ∨ (32 ≤ t.bits ∧ t.signed = false)

/-- All values of a type are below a power of two in size. -/
theorem abs_le_of_fits {x : Int} (hx : t.Fits x) : -2 ^ t.bits ≤ x ∧ x < 2 ^ t.bits := by
  have hm := t.modulus_eq
  have hm' : (t.modulus : Int) = 2 ^ t.bits := by simp [modulus]
  have hpos : (0 : Int) < 2 ^ (t.bits - 1) := by positivity
  obtain ⟨hlo, hhi⟩ := hx
  cases hs : t.signed <;>
    simp only [lo, hi, hs, if_true, Bool.false_eq_true, if_false] at hlo hhi
  · omega
  · omega

/-- Then `+=` is addition modulo the size of the type. -/
theorem opAssign_add (h : t.AddsModularly) (x y : t.Value) :
    t.opAssign .add x y = some (t.convert (x + y)) := by
  show (t.promoted.result (x + y)).map t.convert = some (t.convert (x + y))
  rcases h with hbits | ⟨hbits, hs⟩
  · have hpow : (2 : Int) ^ t.bits ≤ 2 ^ 30 := pow_le_pow_right₀ (by norm_num) (by omega)
    have hx := t.abs_le_of_fits x.property
    have hy := t.abs_le_of_fits y.property
    have hint : t.promoted = int := if_pos (by omega)
    have hfits : t.promoted.Fits (x + y) := by
      rw [hint]
      show -2 ^ 31 ≤ (x + y : Int) ∧ (x + y : Int) ≤ 2 ^ 31 - 1
      omega
    rw [t.promoted.result_of_fits hfits]
    rfl
  · rw [t.promoted_of_le hbits]
    simp only [result, hs, Bool.false_eq_true, if_false, Option.map_some]
    exact congrArg some (t.convert_eq_convert_iff.mpr (t.narrow_modEq _))

end IntTy

/-! ## Comparisons -/

/-- The comparison operators. -/
inductive CmpOp where
  | lt | le | gt | ge | eq | ne
  deriving DecidableEq, Repr

/-- The truth of a comparison of integers. -/
def CmpOp.holds : CmpOp → Int → Int → Bool
  | .lt, x, y => decide (x < y)
  | .le, x, y => decide (x ≤ y)
  | .gt, x, y => decide (x > y)
  | .ge, x, y => decide (x ≥ y)
  | .eq, x, y => decide (x = y)
  | .ne, x, y => decide (x ≠ y)

end VecCore.Foundation
