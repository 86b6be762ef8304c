/-
  Bench/MandelbrotColors.lean --- the sentinel of bench/mandelbrot.cc.

  `smooth_value` marks a pixel that never left the disc with -1, and gives every
  other one `n + 1 - log2(0.5 * log |z|^2)`.  That the two cannot be confused
  rests on how far an orbit overshoots the disc in the iteration that leaves it:
  in the window `main` passes, `|z|^2` stays below 100.
-/
import VecCore.Bench.Mandelbrot
import VecCore.Bench.Png
import Mathlib.Analysis.SpecialFunctions.Log.Base
import Mathlib.Analysis.Complex.ExponentialBounds
import Mathlib.Tactic.Linarith

set_option autoImplicit false

namespace VecCore.Bench

open VecCore.Foundation

/-! ## The overshoot -/

section Overshoot

variable {F : Type*} [Field F] [LinearOrder F]

/-- `zr * zr + zi * zi`. -/
def mag2 (z : F × F) : F := z.1 * z.1 + z.2 * z.2

/-- A point of the window that `main` passes. -/
structure InWindow (c : F × F) : Prop where
  left : -(21 / 10) ≤ c.1
  right : c.1 ≤ 11 / 10
  lower : -(135 / 100) ≤ c.2
  upper : c.2 ≤ 135 / 100

variable [IsStrictOrderedRing F]

/-- One step at most doubles the sum of `|z|^4` and `|c|^2`. -/
theorem mag2_escapeMap_le (c z : F × F) :
    mag2 (escapeMap c.1 c.2 z) ≤ 2 * (mag2 z * mag2 z + mag2 c) := by
  have hre : (z.1 * z.1 - z.2 * z.2 + c.1) ^ 2 ≤
      2 * ((z.1 * z.1 - z.2 * z.2) ^ 2 + c.1 ^ 2) := add_sq_le
  have him : (2 * z.1 * z.2 + c.2) ^ 2 ≤ 2 * ((2 * z.1 * z.2) ^ 2 + c.2 ^ 2) := add_sq_le
  calc mag2 (escapeMap c.1 c.2 z)
      = (z.1 * z.1 - z.2 * z.2 + c.1) ^ 2 + (2 * z.1 * z.2 + c.2) ^ 2 := by
        simp only [mag2, escapeMap, escapeStep]
        ring
    _ ≤ 2 * ((z.1 * z.1 - z.2 * z.2) ^ 2 + c.1 ^ 2) +
          2 * ((2 * z.1 * z.2) ^ 2 + c.2 ^ 2) := add_le_add hre him
    _ = 2 * (mag2 z * mag2 z + mag2 c) := by
        simp only [mag2]
        ring

theorem mag2_nonneg (z : F × F) : 0 ≤ mag2 z :=
  add_nonneg (mul_self_nonneg z.1) (mul_self_nonneg z.2)

/-- The points of the window lie within `2.1^2 + 1.35^2` of the origin. -/
theorem InWindow.mag2_le {c : F × F} (h : InWindow c) : mag2 c ≤ 62325 / 10000 := by
  have hx : c.1 ^ 2 ≤ (21 / 10) ^ 2 :=
    sq_le_sq' h.left (h.right.trans (by norm_num))
  have hy : c.2 ^ 2 ≤ (135 / 100) ^ 2 := sq_le_sq' h.lower h.upper
  calc mag2 c = c.1 ^ 2 + c.2 ^ 2 := by rw [mag2, sq, sq]
    _ ≤ (21 / 10) ^ 2 + (135 / 100) ^ 2 := add_le_add hx hy
    _ = 62325 / 10000 := by norm_num

/-- A point within that distance is moved to one below 100. -/
theorem mag2_escapeMap_lt {c z : F × F} (hc : InWindow c) (hz : mag2 z ≤ 62325 / 10000) :
    mag2 (escapeMap c.1 c.2 z) < 100 := by
  have hsq : mag2 z * mag2 z ≤ 62325 / 10000 * (62325 / 10000) :=
    mul_le_mul hz hz (mag2_nonneg z) (by norm_num)
  have hle := hc.mag2_le
  calc mag2 (escapeMap c.1 c.2 z)
      ≤ 2 * (mag2 z * mag2 z + mag2 c) := mag2_escapeMap_le c z
    _ ≤ 2 * (62325 / 10000 * (62325 / 10000) + 62325 / 10000) := by linarith
    _ < 100 := by norm_num

/-- The point an orbit stops at.  Before the last step it was in the disc, or was
the point of the window it started from. -/
theorem mag2_exit_lt {c : F × F} (hc : InWindow c) {maxIter n : Nat}
    (hexit : ExitsAt (escapeMap c.1 c.2) bounded maxIter c n) :
    mag2 ((escapeMap c.1 c.2)^[n] c) < 100 := by
  obtain ⟨m, rfl⟩ := Nat.exists_eq_add_of_le' hexit.pos
  rw [Function.iterate_succ_apply']
  apply mag2_escapeMap_lt hc
  rcases Nat.eq_zero_or_pos m with rfl | hm
  · -- the first step starts from `c` itself, which nothing has tested
    exact hc.mag2_le
  · have hstay := (hexit.before m hm (Nat.lt_succ_self m)).2
    have hlt : mag2 ((escapeMap c.1 c.2)^[m] c) < 4 := of_decide_eq_true hstay
    exact hlt.le.trans (by norm_num)

omit [IsStrictOrderedRing F] in
/-- An orbit that stops inside the disc was stopped by `max_iter`. -/
theorem exit_eq_max {c : F × F} {maxIter n : Nat}
    (hexit : ExitsAt (escapeMap c.1 c.2) bounded maxIter c n)
    (hin : mag2 ((escapeMap c.1 c.2)^[n] c) < 4) : n = max 1 maxIter := by
  have hle := hexit.le_max
  have hpos := hexit.pos
  rcases hexit.exit with h | h
  · omega
  · exact absurd hin (of_decide_eq_false h)

end Overshoot

/-! ## The stored value -/

section Value

variable {F : Type*} [Field F] [LinearOrder F] [IsStrictOrderedRing F]

/-- What the sign of a stored value needs of `std::log` and `std::log2`: they are
increasing, and three of their values are bounded. -/
structure LogBounds (log log2 : F → F) : Prop where
  log_mono : MonotoneOn log (Set.Ioi 0)
  log2_mono : MonotoneOn log2 (Set.Ioi 0)
  log_four : 0 < log 4
  log_hundred : log 100 < 8
  log2_four : log2 4 = 2

/-- What the overshoot takes off the count of an escaped point. -/
theorem LogBounds.log2_le {log log2 : F → F} (h : LogBounds log log2) {m : F}
    (hlo : 4 ≤ m) (hhi : m < 100) : log2 (1 / 2 * log m) ≤ 2 := by
  have hm : (0 : F) < m := by linarith
  have hpos : 0 < log m :=
    h.log_four.trans_le (h.log_mono (Set.mem_Ioi.mpr (by norm_num)) hm hlo)
  have hle : log m ≤ log 100 := h.log_mono hm (Set.mem_Ioi.mpr (by norm_num)) hhi.le
  have hlog := h.log_hundred
  calc log2 (1 / 2 * log m)
      ≤ log2 4 := h.log2_mono (Set.mem_Ioi.mpr (by linarith))
          (Set.mem_Ioi.mpr (by norm_num)) (by linarith)
    _ = 2 := h.log2_four

omit [IsStrictOrderedRing F] in
/-- `smooth_value` after `n` iterations that ended at `z`. -/
theorem smoothValue_eq (log log2 : F → F) (z : F × F) (n : Nat) :
    smoothValue log log2 z.1 z.2 n =
      if mag2 z < 4 then -1 else (n : F) + 1 - log2 (1 / 2 * log (mag2 z)) := by
  rw [smoothValue, Int.cast_natCast]
  rfl

/-- The sentinel and the smooth counts are told apart by their sign. -/
theorem smoothValue_neg_iff {log log2 : F → F} (h : LogBounds log log2) {z : F × F}
    (hz : mag2 z < 100) {n : Nat} (hn : 1 ≤ n) :
    smoothValue log log2 z.1 z.2 n < 0 ↔ mag2 z < 4 := by
  rw [smoothValue_eq]
  split
  next hin => exact iff_of_true neg_one_lt_zero hin
  next hout =>
    refine iff_of_false (not_lt.mpr ?_) hout
    have hlog2 := h.log2_le (not_lt.mp hout) hz
    have hcast : (1 : F) ≤ n := Nat.one_le_cast.mpr hn
    linarith

end Value

/-! ## The image -/

section Image

variable {F : Type*} [Field F] [LinearOrder F] [IsStrictOrderedRing F]

/-- The point of row `i` and column `j`. -/
def gridPoint (g : Grid F) (i j : Nat) : F × F :=
  (g.xmin + i * ((g.xmax - g.xmin) / g.nx), g.ymin + j * ((g.ymax - g.ymin) / g.ny))

/-- The grid of `main`, with any numbers of rows and columns. -/
def mainGrid (nx ny : Nat) : Grid F :=
  { xmin := -(21 / 10), xmax := 11 / 10, nx, ymin := -(135 / 100), ymax := 135 / 100, ny }

/-- A coordinate of a grid stays between its ends. -/
theorem coordinate_mem (lo hi : F) (hle : lo ≤ hi) {i n : Nat} (hi' : i < n) :
    lo ≤ lo + i * ((hi - lo) / n) ∧ lo + i * ((hi - lo) / n) ≤ hi := by
  have hn : (0 : F) < n := Nat.cast_pos.mpr (Nat.zero_lt_of_lt hi')
  have hlt : (i : F) ≤ n := Nat.cast_le.mpr hi'.le
  have hwidth : 0 ≤ (hi - lo) / n := div_nonneg (sub_nonneg.mpr hle) hn.le
  constructor
  · exact le_add_of_nonneg_right (mul_nonneg (Nat.cast_nonneg i) hwidth)
  · calc lo + i * ((hi - lo) / n)
        ≤ lo + n * ((hi - lo) / n) :=
          add_le_add_right (mul_le_mul_of_nonneg_right hlt hwidth) lo
      _ = hi := by rw [mul_div_cancel₀ _ hn.ne', add_sub_cancel]

/-- All of `main`'s grid lies in its window. -/
theorem mainGrid_inWindow {nx ny i j : Nat} (hi : i < nx) (hj : j < ny) :
    InWindow (gridPoint (mainGrid nx ny : Grid F) i j) := by
  obtain ⟨hleft, hright⟩ := coordinate_mem (-(21 / 10) : F) (11 / 10) (by norm_num) hi
  obtain ⟨hlower, hupper⟩ := coordinate_mem (-(135 / 100) : F) (135 / 100) (by norm_num) hj
  exact ⟨hleft, hright, hlower, hupper⟩

/-- The pixel of a point of the window. -/
theorem mandelbrotPixel_sentinel {log log2 : F → F} (h : LogBounds log log2) (g : Grid F)
    (maxIter : Nat) {fuel : Nat} (hfuel : max 1 maxIter ≤ fuel) {i j : Nat}
    (hc : InWindow (gridPoint g i j)) {s : EscapeState F}
    (hs : mandelbrotPixel fuel g maxIter i j = some s) :
    (smoothValue log log2 s.zr s.zi s.k < 0 ↔ s.zr * s.zr + s.zi * s.zi < 4) ∧
      (s.zr * s.zr + s.zi * s.zi < 4 → s.k = max 1 maxIter) := by
  obtain ⟨n, hexit, hrun⟩ := escape_exits maxIter (gridPoint g i j).1 (gridPoint g i j).2
    (gridPoint g i j).1 (gridPoint g i j).2 hfuel
  obtain rfl := Option.some.inj (hrun.symm.trans hs)
  exact ⟨smoothValue_neg_iff h (mag2_exit_lt hc hexit) hexit.pos, exit_eq_max hexit⟩

omit [IsStrictOrderedRing F] in
/-- Every cell of the image of `mandelbrot` is the value of its pixel. -/
theorem mandelbrot_cell (log log2 : F → F) (g : Grid F) (maxIter : Nat) {fuel : Nat}
    (hfuel : max 1 maxIter ≤ fuel) (init : Nat → F) :
    ∃ image, mandelbrot log log2 fuel g maxIter (Store.fresh init) = some image ∧
      ∀ i j, i < g.nx → j < g.ny → ∃ s, mandelbrotPixel fuel g maxIter i j = some s ∧
        image.cell (g.ny * i + j) = smoothValue log log2 s.zr s.zi s.k := by
  have hpixel : ∀ i j, i < g.nx → j < g.ny → ∃ x,
      ((mandelbrotPixel fuel g maxIter i j).map fun s =>
        smoothValue log log2 s.zr s.zi s.k) = some x := by
    intro i j _ _
    obtain ⟨n, -, hrun⟩ := escape_exits maxIter (gridPoint g i j).1 (gridPoint g i j).2
      (gridPoint g i j).1 (gridPoint g i j).2 hfuel
    exact ⟨_, congrArg _ hrun⟩
  obtain ⟨image, hrun, hcell⟩ := sweepCells_cell hpixel init
  refine ⟨image, hrun, ?_⟩
  intro i j hi hj
  obtain ⟨s, hs, hval⟩ := Option.map_eq_some_iff.mp (hcell i j hi hj)
  exact ⟨s, hs, hval.symm⟩

end Image

/-- For a grid of any size: in the window of `main` a stored value is negative exactly
where the last iterate is still in the disc, which only `max_iter` brings about, and
exactly these points are painted black. -/
theorem mandelbrot_sentinel {log log2 : ℝ → ℝ} (h : LogBounds log log2) (sqrt : ℝ → ℝ)
    (g : Grid ℝ) (maxIter : Nat) {fuel : Nat} (hfuel : max 1 maxIter ≤ fuel)
    (init : Nat → ℝ) (blank : Nat → Rgb) :
    ∃ image picture, mandelbrot log log2 fuel g maxIter (Store.fresh init) = some image ∧
      writePng sqrt Real.cos image g.nx g.ny (Store.fresh blank) = some picture ∧
      ∀ i j, i < g.nx → j < g.ny → InWindow (gridPoint g i j) →
        ∃ s, mandelbrotPixel fuel g maxIter i j = some s ∧
          (image.cell (g.ny * i + j) < 0 ↔ s.zr * s.zr + s.zi * s.zi < 4) ∧
          (s.zr * s.zr + s.zi * s.zi < 4 → s.k = max 1 maxIter) ∧
          (picture.cell (g.ny * (g.nx - i - 1) + j) = .black ↔
            s.zr * s.zr + s.zi * s.zi < 4) := by
  obtain ⟨image, hrun, hcell⟩ := mandelbrot_cell log log2 g maxIter hfuel init
  obtain ⟨picture, hpaint, hpixel⟩ := writePng_pixel sqrt Real.cos image g.nx g.ny blank
  refine ⟨image, picture, hrun, hpaint, ?_⟩
  intro i j hi hj hc
  obtain ⟨s, hs, hval⟩ := hcell i j hi hj
  obtain ⟨hneg, hstop⟩ := mandelbrotPixel_sentinel h g maxIter hfuel hc hs
  rw [← hval] at hneg
  refine ⟨s, hs, hneg, hstop, ?_⟩
  rw [hpixel i j hi hj, smoothColormap_eq_black_iff, hneg]

/-- The logarithms of the reals are such functions. -/
theorem logBounds_real : LogBounds Real.log (Real.logb 2) where
  log_mono := Real.strictMonoOn_log.monotoneOn
  log2_mono := (Real.strictMonoOn_logb one_lt_two).monotoneOn
  log_four := Real.log_pos (by norm_num)
  log_hundred := by
    rw [Real.log_lt_iff_lt_exp (by norm_num)]
    have he : (27 / 10 : ℝ) < Real.exp 1 := by
      have := Real.exp_one_gt_d9
      linarith
    calc (100 : ℝ) < (27 / 10) ^ 8 := by norm_num
      _ ≤ Real.exp 1 ^ 8 := pow_le_pow_left₀ (by norm_num) he.le 8
      _ = Real.exp 8 := by rw [← Real.exp_nat_mul]; norm_num
  log2_four := by
    rw [show (4 : ℝ) = 2 ^ 2 by norm_num, Real.logb_pow, Real.logb_self_eq_one one_lt_two]
    norm_num

/-- With them, the picture `main` writes. -/
theorem mandelbrot_sentinel_main :
    ∃ image picture, mandelbrot Real.log (Real.logb 2) 500 (mainGrid 1024 864) 500
        (Store.fresh fun _ => 0) = some image ∧
      writePng Real.sqrt Real.cos image 1024 864 (Store.fresh fun _ => .black) =
        some picture ∧
      ∀ i j, i < 1024 → j < 864 →
        ∃ s, mandelbrotPixel 500 (mainGrid 1024 864 : Grid ℝ) 500 i j = some s ∧
          (image.cell (864 * i + j) < 0 ↔ s.zr * s.zr + s.zi * s.zi < 4) ∧
          (s.zr * s.zr + s.zi * s.zi < 4 → s.k = max 1 500) ∧
          (picture.cell (864 * (1024 - i - 1) + j) = .black ↔
            s.zr * s.zr + s.zi * s.zi < 4) := by
  obtain ⟨image, picture, hrun, hpaint, hcell⟩ := mandelbrot_sentinel logBounds_real Real.sqrt
    (mainGrid 1024 864) 500 (Nat.max_le.mpr ⟨Nat.le_add_left 1 499, Nat.le_refl 500⟩)
    (fun _ => 0) (fun _ => .black)
  exact ⟨image, picture, hrun, hpaint, fun i j hi hj =>
    hcell i j hi hj (mainGrid_inWindow hi hj)⟩

end VecCore.Bench
