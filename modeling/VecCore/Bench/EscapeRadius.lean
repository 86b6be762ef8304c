/-
  Bench/EscapeRadius.lean --- the disc of bench/mandelbrot.cc and bench/julia.cc.

  The loops stop at the first point with `|z|^2 >= 4`.  From a point that is at
  least as far from the origin as the constant, the iteration only leads further
  away, so that nothing is lost by stopping: a pixel is in the set as far as
  `max_iter` iterations can tell exactly if the last of them is in the disc.
-/
import VecCore.Bench.EscapeImage

set_option autoImplicit false

namespace VecCore.Bench

open VecCore.Foundation

variable {F : Type*} [Field F] [LinearOrder F] [IsStrictOrderedRing F]

/-! ## One step outside the disc -/

/-- A step that is bounded by what it adds. -/
theorem sq_div_two_sub_le (a b : F) : a * a / 2 - b * b ≤ (a + b) * (a + b) := by
  have h := mul_self_nonneg (a + 2 * b)
  linarith [show (a + 2 * b) * (a + 2 * b) = 2 * ((a + b) * (a + b)) - a * a + 2 * (b * b) by ring]

/-- One step at least halves `|z|^4`, up to `|c|^2`. -/
theorem le_mag2_escapeMap (c z : F × F) :
    mag2 z * mag2 z / 2 - mag2 c ≤ mag2 (escapeMap c.1 c.2 z) := by
  have hre := sq_div_two_sub_le (z.1 * z.1 - z.2 * z.2) c.1
  have him := sq_div_two_sub_le (2 * z.1 * z.2) c.2
  calc mag2 z * mag2 z / 2 - mag2 c
      = ((z.1 * z.1 - z.2 * z.2) * (z.1 * z.1 - z.2 * z.2) / 2 - c.1 * c.1) +
          (2 * z.1 * z.2 * (2 * z.1 * z.2) / 2 - c.2 * c.2) := by
        simp only [mag2]
        ring
    _ ≤ _ := add_le_add hre him

/-- A point outside the disc that is as far from the origin as the constant. -/
structure Outside (c z : F × F) : Prop where
  left : 4 ≤ mag2 z
  far : mag2 c ≤ mag2 z

/-- The next point is further away. -/
theorem Outside.le_step {c z : F × F} (h : Outside c z) :
    mag2 z ≤ mag2 (escapeMap c.1 c.2 z) := by
  have hfour : 4 * mag2 z ≤ mag2 z * mag2 z := mul_le_mul_of_nonneg_right h.left (mag2_nonneg z)
  have hstep := le_mag2_escapeMap c z
  have hfar := h.far
  linarith

theorem Outside.step {c z : F × F} (h : Outside c z) : Outside c (escapeMap c.1 c.2 z) :=
  ⟨h.left.trans h.le_step, h.far.trans h.le_step⟩

/-- And so are all later ones. -/
theorem Outside.iterate {c z : F × F} (h : Outside c z) (n : Nat) :
    Outside c ((escapeMap c.1 c.2)^[n] z) ∧ mag2 z ≤ mag2 ((escapeMap c.1 c.2)^[n] z) := by
  induction n with
  | zero => exact ⟨h, le_refl _⟩
  | succ n ih =>
    rw [Function.iterate_succ_apply']
    exact ⟨ih.1.step, ih.2.trans ih.1.le_step⟩

/-! ## Orbits that leave the disc -/

/-- The orbits of `mandelbrot`, which start from the constant, and those of `julia` for a
constant in the closed disc. -/
def NeverReturns (c z : F × F) : Prop := z = c ∨ mag2 c ≤ 4

/-- A point of such an orbit outside the disc is as far from the origin as the constant. -/
theorem NeverReturns.outside {c z : F × F} (h : NeverReturns c z) {n : Nat}
    (hleft : 4 ≤ mag2 ((escapeMap c.1 c.2)^[n] z)) :
    Outside c ((escapeMap c.1 c.2)^[n] z) := by
  rcases le_or_gt (mag2 c) 4 with hle | hgt
  · exact ⟨hleft, hle.trans hleft⟩
  · obtain rfl := h.resolve_right (not_le.mpr hgt)
    -- the constant itself is outside, and the orbit starts from it
    have hstart : Outside z z := ⟨hgt.le, le_refl _⟩
    exact (hstart.iterate n).1

/-- Once outside the disc, it moves away from the origin. -/
theorem NeverReturns.mono {c z : F × F} (h : NeverReturns c z) {n m : Nat} (hle : n ≤ m)
    (hleft : 4 ≤ mag2 ((escapeMap c.1 c.2)^[n] z)) :
    mag2 ((escapeMap c.1 c.2)^[n] z) ≤ mag2 ((escapeMap c.1 c.2)^[m] z) := by
  obtain ⟨k, rfl⟩ := Nat.exists_eq_add_of_le' hle
  rw [Function.iterate_add_apply]
  exact ((h.outside hleft).iterate k).2

/-- The loop stops outside the disc exactly if the point after all `max_iter` iterations is
outside, and no point after the one it stops at comes nearer to the origin. -/
theorem escape_forever {c z : F × F} (h : NeverReturns c z) (maxIter : Nat) {fuel : Nat}
    (hfuel : max 1 maxIter ≤ fuel) :
    ∃ s, escape fuel maxIter c.1 c.2 z.1 z.2 = some s ∧
      (mag2 (s.zr, s.zi) < 4 ↔ mag2 ((escapeMap c.1 c.2)^[max 1 maxIter] z) < 4) ∧
      (4 ≤ mag2 (s.zr, s.zi) → ∀ m, s.k ≤ m →
        mag2 (s.zr, s.zi) ≤ mag2 ((escapeMap c.1 c.2)^[m] z)) := by
  obtain ⟨n, hexit, hrun⟩ := escape_exits maxIter c.1 c.2 z.1 z.2 hfuel
  refine ⟨_, hrun, ⟨?_, ?_⟩, ?_⟩
  · intro hin
    have hn := hexit.eq_bound (decide_eq_true hin)
    rw [hn] at hin
    exact hin
  · intro hin
    by_contra hout
    exact absurd hin (not_lt.mpr ((not_lt.mp hout).trans (h.mono hexit.le_max (not_lt.mp hout))))
  · intro hout m hm
    exact h.mono hm hout

/-! ## The pixels -/

/-- For every grid: stopping a pixel of `mandelbrot` at the first point outside the disc, or
one of `julia` for a constant in the closed disc, tells the same as testing the point after
all `max_iter` iterations, and the orbit stays outside from there on. -/
theorem pixels_forever (g : Grid F) (maxIter : Nat) {fuel : Nat} (hfuel : max 1 maxIter ≤ fuel)
    (i j : Nat) :
    (∃ s, mandelbrotPixel fuel g maxIter i j = some s ∧
      (mag2 (s.zr, s.zi) < 4 ↔ mag2 ((escapeMap (gridPoint g i j).1
        (gridPoint g i j).2)^[max 1 maxIter] (gridPoint g i j)) < 4) ∧
      (4 ≤ mag2 (s.zr, s.zi) → ∀ m, s.k ≤ m → mag2 (s.zr, s.zi) ≤
        mag2 ((escapeMap (gridPoint g i j).1 (gridPoint g i j).2)^[m] (gridPoint g i j)))) ∧
    ∀ real im, real * real + im * im ≤ 4 →
      ∃ s, juliaPixel fuel g maxIter real im i j = some s ∧
        (mag2 (s.zr, s.zi) < 4 ↔
          mag2 ((escapeMap real im)^[max 1 maxIter] (gridPoint g i j)) < 4) ∧
        (4 ≤ mag2 (s.zr, s.zi) → ∀ m, s.k ≤ m →
          mag2 (s.zr, s.zi) ≤ mag2 ((escapeMap real im)^[m] (gridPoint g i j))) := by
  constructor
  · exact escape_forever (c := gridPoint g i j) (z := gridPoint g i j) (.inl rfl) maxIter hfuel
  · intro real im hconst
    exact escape_forever (c := (real, im)) (z := gridPoint g i j) (.inr hconst) maxIter hfuel

/-- The pixel of `main` for the point `1 / 40 - 27 / 20 i`. -/
theorem pixels_forever_main :
    (∃ s, mandelbrotPixel 500 (mainGrid 1024 864 : Grid ℚ) 500 680 0 = some s ∧
      (mag2 (s.zr, s.zi) < 4 ↔ mag2 ((escapeMap (gridPoint (mainGrid 1024 864) 680 0).1
        (gridPoint (mainGrid 1024 864) 680 0).2)^[max 1 500]
          (gridPoint (mainGrid 1024 864) 680 0) : ℚ × ℚ) < 4) ∧
      (4 ≤ mag2 (s.zr, s.zi) → ∀ m, s.k ≤ m → mag2 (s.zr, s.zi) ≤
        mag2 ((escapeMap (gridPoint (mainGrid 1024 864) 680 0).1
          (gridPoint (mainGrid 1024 864) 680 0).2)^[m] (gridPoint (mainGrid 1024 864) 680 0)))) ∧
    ∀ real im, real * real + im * im ≤ 4 →
      ∃ s, juliaPixel 500 (mainGrid 1024 864 : Grid ℚ) 500 real im 680 0 = some s ∧
        (mag2 (s.zr, s.zi) < 4 ↔
          mag2 ((escapeMap real im)^[max 1 500] (gridPoint (mainGrid 1024 864) 680 0)) < 4) ∧
        (4 ≤ mag2 (s.zr, s.zi) → ∀ m, s.k ≤ m → mag2 (s.zr, s.zi) ≤
          mag2 ((escapeMap real im)^[m] (gridPoint (mainGrid 1024 864) 680 0))) :=
  pixels_forever (mainGrid 1024 864) 500 (by decide) 680 0

end VecCore.Bench
