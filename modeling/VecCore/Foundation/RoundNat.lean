/-
  Foundation/RoundNat.lean --- natural numbers in a binary floating-point type.

  A natural number is converted to the nearest number whose significand has at
  most `p` bits, and to the one with an even significand if two are nearest.
  The conversion is exact for the numbers that have such a significand, and
  changes all others.
-/
import Mathlib.Algebra.Order.Ring.Nat
import Mathlib.Tactic.Common

set_option autoImplicit false

namespace VecCore.Foundation

/-- `n` has a significand of at most `p` bits. -/
def HasSignificand (p n : Nat) : Prop := ∃ m e, m < 2 ^ p ∧ n = m * 2 ^ e

/-- The nearest number to `q * 2 ^ shift + r` among the multiples of `2 ^ shift`,
where `r < 2 ^ shift` and `0 < shift`. -/
def roundShifted (shift q r : Nat) : Nat :=
  let half := 2 ^ (shift - 1)
  if half < r ∨ (half = r ∧ q % 2 = 1) then (q + 1) * 2 ^ shift else q * 2 ^ shift

/-- The conversion of `n` to a significand of `p` bits, rounding to nearest, ties
to even. -/
def roundNat (p n : Nat) : Nat :=
  if n < 2 ^ p then n
  else
    let shift := n.log2 + 1 - p
    roundShifted shift (n / 2 ^ shift) (n % 2 ^ shift)

/-- Rounding keeps exactly the multiples. -/
theorem roundShifted_eq_iff {shift q r : Nat} (hr : r < 2 ^ shift) :
    roundShifted shift q r = q * 2 ^ shift + r ↔ r = 0 := by
  have hhalf : 0 < 2 ^ (shift - 1) := Nat.two_pow_pos _
  unfold roundShifted
  dsimp only
  constructor
  · intro h
    split at h
    · rw [Nat.succ_mul] at h
      omega
    · omega
  · rintro rfl
    rw [if_neg (by omega), Nat.add_zero]

/-- The number of bits dropped leaves a significand of `p` bits. -/
theorem div_two_pow_lt {p n : Nat} (hn : ¬ n < 2 ^ p) :
    n / 2 ^ (n.log2 + 1 - p) < 2 ^ p := by
  have hne : n ≠ 0 := fun h => hn (h ▸ Nat.two_pow_pos p)
  have hle : p ≤ n.log2 := (Nat.le_log2 hne).mpr (Nat.not_lt.mp hn)
  have hlt : n < 2 ^ (n.log2 + 1) := Nat.lt_log2_self
  rw [Nat.div_lt_iff_lt_mul (Nat.two_pow_pos _), ← Nat.pow_add]
  rwa [Nat.add_sub_cancel' (Nat.le_succ_of_le hle)]

/-- A number with a short significand is a multiple of the dropped power. -/
theorem two_pow_dvd {p n : Nat} (hn : ¬ n < 2 ^ p) (h : HasSignificand p n) :
    2 ^ (n.log2 + 1 - p) ∣ n := by
  obtain ⟨m, e, hm, heq⟩ := h
  have hne : n ≠ 0 := fun h0 => hn (h0 ▸ Nat.two_pow_pos p)
  have hself : 2 ^ n.log2 ≤ n := Nat.log2_self_le hne
  have hlt : 2 ^ n.log2 < 2 ^ (p + e) := by
    calc 2 ^ n.log2 ≤ m * 2 ^ e := heq ▸ hself
      _ < 2 ^ p * 2 ^ e := Nat.mul_lt_mul_of_pos_right hm (Nat.two_pow_pos e)
      _ = 2 ^ (p + e) := (Nat.pow_add 2 p e).symm
  have hexp : n.log2 < p + e := (Nat.pow_lt_pow_iff_right Nat.one_lt_two).mp hlt
  have hdvd : 2 ^ (n.log2 + 1 - p) ∣ 2 ^ e := Nat.pow_dvd_pow 2 (by omega)
  exact heq ▸ hdvd.mul_left m

/-- The conversion is exact for the numbers with a short significand only. -/
theorem roundNat_eq_self_iff (p n : Nat) : roundNat p n = n ↔ HasSignificand p n := by
  unfold roundNat
  by_cases hn : n < 2 ^ p
  · rw [if_pos hn]
    exact iff_of_true rfl ⟨n, 0, hn, (Nat.mul_one n).symm⟩
  · rw [if_neg hn]
    have hsplit : n / 2 ^ (n.log2 + 1 - p) * 2 ^ (n.log2 + 1 - p) +
        n % 2 ^ (n.log2 + 1 - p) = n := Nat.div_add_mod' n _
    have hround := roundShifted_eq_iff (q := n / 2 ^ (n.log2 + 1 - p))
      (Nat.mod_lt n (Nat.two_pow_pos (n.log2 + 1 - p)))
    rw [hsplit] at hround
    refine hround.trans ⟨?_, fun h => Nat.mod_eq_zero_of_dvd (two_pow_dvd hn h)⟩
    intro hzero
    exact ⟨n / 2 ^ (n.log2 + 1 - p), n.log2 + 1 - p, div_two_pow_lt hn, by omega⟩

/-! ## Counting -/

/-- Up to the first power of two with a significand that is too long, and one beyond
it, the conversion is the smaller of the number and that power. -/
theorem roundNat_of_le {p n : Nat} (hp : 2 ≤ p) (hn : n ≤ 2 ^ p + 1) :
    roundNat p n = min n (2 ^ p) := by
  rcases Nat.lt_or_ge (2 ^ p) n with hlt | hle
  · obtain rfl : n = 2 ^ p + 1 := by omega
    have hone : 1 < 2 ^ p := Nat.one_lt_two_pow (by omega)
    have hlog : (2 ^ p + 1).log2 = p := by
      rw [Nat.log2_eq_iff (by omega), Nat.pow_succ]
      omega
    have heven : 2 ^ p = 4 * 2 ^ (p - 2) := by
      rw [show (4 : Nat) = 2 ^ 2 by rfl, ← Nat.pow_add, Nat.add_sub_cancel' hp]
    unfold roundNat
    rw [if_neg (by omega), hlog]
    simp only [Nat.add_sub_cancel_left, Nat.pow_one, roundShifted, Nat.sub_self, Nat.pow_zero]
    rw [if_neg (by omega)]
    omega
  · rw [Nat.min_eq_left hle, roundNat_eq_self_iff]
    rcases Nat.lt_or_eq_of_le hle with hlt | rfl
    · exact ⟨n, 0, hlt, (Nat.mul_one n).symm⟩
    · exact ⟨1, p, Nat.one_lt_two_pow (by omega), (Nat.one_mul _).symm⟩

/-- Adding 1 to a number of consecutive ones stops at that power. -/
theorem roundNat_succ_min {p : Nat} (hp : 2 ≤ p) (n : Nat) :
    roundNat p (min n (2 ^ p) + 1) = min (n + 1) (2 ^ p) := by
  rw [roundNat_of_le hp (by omega)]
  omega

/-- Further numbers stay beyond it. -/
theorem lt_roundNat {p n : Nat} (hp : 1 ≤ p) (hn : 2 ^ p + 1 < n) : 2 ^ p < roundNat p n := by
  have hpos : 0 < 2 ^ p := Nat.two_pow_pos p
  have hself : 2 ^ n.log2 ≤ n := Nat.log2_self_le (by omega)
  have hle : p ≤ n.log2 := (Nat.le_log2 (by omega)).mpr (by omega)
  have hround : n / 2 ^ (n.log2 + 1 - p) * 2 ^ (n.log2 + 1 - p) ≤ roundNat p n := by
    unfold roundNat roundShifted
    rw [if_neg (by omega)]
    dsimp only
    split
    · exact Nat.mul_le_mul_right _ (Nat.le_succ _)
    · exact Nat.le_refl _
  refine Nat.lt_of_lt_of_le ?_ hround
  have hsplit : n / 2 ^ (n.log2 + 1 - p) * 2 ^ (n.log2 + 1 - p) +
      n % 2 ^ (n.log2 + 1 - p) = n := Nat.div_add_mod' n _
  rcases Nat.lt_or_eq_of_le hle with hlt | heq
  · -- Two bits or more are dropped, and the leading one is not among them.
    have hdiv : 2 ^ (p - 1) ≤ n / 2 ^ (n.log2 + 1 - p) := by
      rw [Nat.le_div_iff_mul_le (Nat.two_pow_pos _), ← Nat.pow_add,
        show p - 1 + (n.log2 + 1 - p) = n.log2 by omega]
      exact hself
    calc 2 ^ p < 2 ^ n.log2 := Nat.pow_lt_pow_right Nat.one_lt_two hlt
      _ = 2 ^ (p - 1) * 2 ^ (n.log2 + 1 - p) := by rw [← Nat.pow_add]; congr 1; omega
      _ ≤ _ := Nat.mul_le_mul_right _ hdiv
  · have hrem : n % 2 ^ (n.log2 + 1 - p) < 2 := by
      rw [← heq, Nat.add_sub_cancel_left, Nat.pow_one]
      exact Nat.mod_lt n Nat.two_pos
    omega

/-- The conversion of an integer, which keeps its sign. -/
def roundInt (p : Nat) (x : Int) : Int := x.sign * roundNat p x.natAbs

theorem roundInt_natCast (p n : Nat) : roundInt p n = roundNat p n := by
  unfold roundInt
  cases n with
  | zero => simp [roundNat]
  | succ n => rw [Int.sign_natCast_of_ne_zero (Nat.succ_ne_zero n), Int.one_mul, Int.natAbs_natCast]

theorem roundInt_nonpos {p : Nat} {x : Int} (hx : x ≤ 0) : roundInt p x ≤ 0 := by
  unfold roundInt
  have hsign : x.sign ≤ 0 := Int.sign_nonpos_iff.mpr hx
  exact Int.mul_nonpos_of_nonpos_of_nonneg hsign (Int.natCast_nonneg _)

end VecCore.Foundation
