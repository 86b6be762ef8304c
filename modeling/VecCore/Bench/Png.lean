/-
  Bench/Png.lean --- the continuous palette of bench/png.cc.

  `write_png` paints the picture of an array of smooth iteration counts.  The
  picture is a logged array too, in which pixel `(i, j)` has index `ny * i + j`;
  it comes from a library, as do `std::sqrt` and `std::cos`.
-/
import VecCore.Foundation.Grid
import VecCore.Foundation.Numerals
import Mathlib.Algebra.Order.Floor.Ring
import Mathlib.Analysis.Real.Pi.Bounds

set_option autoImplicit false

namespace VecCore.Bench

open VecCore.Foundation

section Code

variable {F : Type*} [Field F] [LinearOrder F] [FloorRing F]

/-- The channels `cr`, `cg` and `cb` of a color. -/
structure Rgb where
  cr : Int
  cg : Int
  cb : Int

/-- `cr = cg = cb = 0`. -/
def Rgb.black : Rgb := { cr := 0, cg := 0, cb := 0 }

/-- The conversion of a floating-point number to `int`, which drops the fraction. -/
def truncate (x : F) : Int := if 0 ≤ x then ⌊x⌋ else ⌈x⌉

/-- The constant `tau` of `smooth_colormap`. -/
def tau : F := 6283185307179586 / 1000000000000000

/-- `(int)(255.0 * (0.5 + 0.5 * std::cos(tau * (t + phase))))`. -/
def channel (cos : F → F) (t phase : F) : Int :=
  truncate (255 * (1 / 2 + 1 / 2 * cos (tau * (t + phase))))

/-- `smooth_colormap`. -/
def smoothColormap (sqrt cos : F → F) (nu : F) : Rgb :=
  if nu < 0 then .black
  else
    let t := 1 / 10 * sqrt nu
    { cr := channel cos t 0
      cg := channel cos t (33 / 100)
      cb := channel cos t (67 / 100) }

/-- `write_png` of an array of smooth iteration counts. -/
def writePng (sqrt cos : F → F) (data : Store F) (nx ny : Nat) (picture : Store Rgb) :
    Option (Store Rgb) :=
  sweepCells nx ny
    (fun i j => some (smoothColormap sqrt cos (data.cell (ny * (nx - i - 1) + j)))) picture

/-- Row `r` of the array is painted as column `nx - r - 1` of the picture. -/
theorem writePng_pixel (sqrt cos : F → F) (data : Store F) (nx ny : Nat)
    (blank : Nat → Rgb) :
    ∃ picture, writePng sqrt cos data nx ny (Store.fresh blank) = some picture ∧
      ∀ r j, r < nx → j < ny → picture.cell (ny * (nx - r - 1) + j) =
        smoothColormap sqrt cos (data.cell (ny * r + j)) := by
  have hcolor : ∀ i j, i < nx → j < ny → ∃ color : Rgb,
      some (smoothColormap sqrt cos (data.cell (ny * (nx - i - 1) + j))) = some color :=
    fun i j _ _ => ⟨_, rfl⟩
  obtain ⟨picture, hrun, hpixel⟩ := sweepCells_cell hcolor blank
  refine ⟨picture, hrun, ?_⟩
  intro r j hr hj
  have h := Option.some.inj (hpixel (nx - r - 1) j (by omega) hj)
  rw [← h, show nx - (nx - r - 1) - 1 = r by omega]

end Code

/-! ## The palette has no black -/

section Palette

theorem truncate_eq_zero_iff {F : Type*} [Field F] [LinearOrder F] [FloorRing F] {x : F}
    (hx : 0 ≤ x) : truncate x = 0 ↔ x < 1 := by
  rw [truncate, if_pos hx, Int.floor_eq_zero_iff, Set.mem_Ico]
  exact and_iff_right hx

/-- A channel is dark where its cosine is within `2 / 255` of its minimum. -/
theorem channel_eq_zero_iff (t phase : ℝ) :
    channel Real.cos t phase = 0 ↔ Real.cos (tau * (t + phase)) < 2 / 255 - 1 := by
  have hcos := Real.neg_one_le_cos (tau * (t + phase))
  rw [channel, truncate_eq_zero_iff (by linarith)]
  constructor
  · intro h
    linarith
  · intro h
    linarith

/-- The phase between the first two channels is an obtuse angle. -/
theorem cos_phase_nonpos : Real.cos (tau * (33 / 100)) ≤ 0 := by
  have hlo := Real.pi_lt_d2
  have hhi := Real.pi_gt_d2
  apply Real.cos_nonpos_of_pi_div_two_le_of_le
  · norm_num [tau]
    linarith
  · norm_num [tau]
    linarith

/-- Where the first cosine is near its minimum, its sine is small, and turning it by
an obtuse angle brings it away from the minimum. -/
theorem cos_add_of_cos_lt {x y : ℝ} (hx : Real.cos x < 2 / 255 - 1) (hy : Real.cos y ≤ 0) :
    2 / 255 - 1 ≤ Real.cos (x + y) := by
  have hsq := Real.sin_sq_add_cos_sq x
  have hsin : |Real.sin x| ≤ 1 / 2 := by
    apply abs_le_of_sq_le_sq
    · nlinarith
    · norm_num
  have hprod : Real.sin x * Real.sin y ≤ 1 / 2 := by
    calc Real.sin x * Real.sin y
        ≤ |Real.sin x| * |Real.sin y| := by
          rw [← abs_mul]
          exact le_abs_self _
      _ ≤ 1 / 2 * 1 :=
          mul_le_mul hsin (Real.abs_sin_le_one y) (abs_nonneg _) (by norm_num)
      _ = 1 / 2 := mul_one _
  have hcos : 0 ≤ Real.cos x * Real.cos y :=
    mul_nonneg_of_nonpos_of_nonpos (by linarith) hy
  rw [Real.cos_add]
  linarith

/-- The first two channels are never dark together. -/
theorem channels_not_dark (t : ℝ) :
    ¬ (channel Real.cos t 0 = 0 ∧ channel Real.cos t (33 / 100) = 0) := by
  rintro ⟨hred, hgreen⟩
  rw [channel_eq_zero_iff] at hred hgreen
  rw [add_zero] at hred
  rw [mul_add] at hgreen
  exact absurd (cos_add_of_cos_lt hred cos_phase_nonpos) (not_le.mpr hgreen)

/-- `smooth_colormap` paints black exactly what its test `nu < 0` catches. -/
theorem smoothColormap_eq_black_iff (sqrt : ℝ → ℝ) (nu : ℝ) :
    smoothColormap sqrt Real.cos nu = .black ↔ nu < 0 := by
  constructor
  · intro h
    by_contra hnu
    rw [smoothColormap, if_neg hnu, Rgb.black, Rgb.mk.injEq] at h
    exact channels_not_dark _ ⟨h.1, h.2.1⟩
  · intro hnu
    rw [smoothColormap, if_pos hnu]

end Palette

end VecCore.Bench
