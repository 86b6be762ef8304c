/-
  Bench/EscapeImage.lean --- the images of bench/mandelbrot.cc and bench/julia.cc
  as wholes.

  The iteration commutes with conjugation, and it does not see the sign of the
  point it starts from, so on a grid around the origin the images are symmetric.
  An orbit that has left the disc stays outside: a larger `max_iter` changes only
  the pixels that had not left it.
-/
import VecCore.Bench.MandelbrotColors
import VecCore.Bench.Julia
import VecCore.Bench.NewtonComplex

set_option autoImplicit false

namespace VecCore.Bench

open VecCore.Foundation

variable {F : Type*} [Field F] [LinearOrder F]

/-! ## Conjugation and sign -/

theorem bounded_conj (z : F × F) : bounded (conj z) = bounded z := by
  simp only [bounded, conj, neg_mul_neg]

omit [LinearOrder F] in
theorem escapeMap_conj (cr ci : F) (z : F × F) :
    escapeMap cr (-ci) (conj z) = conj (escapeMap cr ci z) := by
  simp only [escapeMap, escapeStep, conj, Prod.mk.injEq]
  constructor <;> ring

omit [LinearOrder F] in
theorem iterate_escapeMap_conj (cr ci : F) (z : F × F) (n : Nat) :
    (escapeMap cr (-ci))^[n] (conj z) = conj ((escapeMap cr ci)^[n] z) := by
  have hsemi : Function.Semiconj conj (escapeMap cr ci) (escapeMap cr (-ci)) := fun z =>
    (escapeMap_conj cr ci z).symm
  exact (hsemi.iterate_right n z).symm

omit [LinearOrder F] in
/-- A point and its opposite have the same image. -/
theorem escapeMap_neg (cr ci : F) (z : F × F) :
    escapeMap cr ci (-z.1, -z.2) = escapeMap cr ci z := by
  simp only [escapeMap, escapeStep, Prod.mk.injEq]
  constructor <;> ring

/-- The loop from the conjugate point ends with the conjugate. -/
theorem escape_conj (maxIter : Nat) (cr ci zr zi : F) {fuel : Nat}
    (hfuel : max 1 maxIter ≤ fuel) :
    ∃ s, escape fuel maxIter cr ci zr zi = some s ∧
      escape fuel maxIter cr (-ci) zr (-zi) = some { s with zi := -s.zi } := by
  obtain ⟨n, hexit, hrun⟩ := escape_exits maxIter cr ci zr zi hfuel
  obtain ⟨n', hexit', hrun'⟩ := escape_exits maxIter cr (-ci) zr (-zi) hfuel
  have hiter := iterate_escapeMap_conj cr ci (zr, zi)
  obtain rfl := (hexit.congr fun m _ => (by rw [← bounded_conj, ← hiter]; rfl)).unique hexit'
  refine ⟨_, hrun, hrun'.trans ?_⟩
  rw [show (zr, -zi) = conj (zr, zi) from rfl, hiter]
  rfl

/-- The loop from the opposite point ends in the same way. -/
theorem escape_neg (maxIter : Nat) (cr ci zr zi : F) {fuel : Nat}
    (hfuel : max 1 maxIter ≤ fuel) :
    ∃ s, escape fuel maxIter cr ci zr zi = some s ∧
      escape fuel maxIter cr ci (-zr) (-zi) = some s := by
  obtain ⟨n, hexit, hrun⟩ := escape_exits maxIter cr ci zr zi hfuel
  obtain ⟨n', hexit', hrun'⟩ := escape_exits maxIter cr ci (-zr) (-zi) hfuel
  have hiter : ∀ m, 1 ≤ m →
      (escapeMap cr ci)^[m] (zr, zi) = (escapeMap cr ci)^[m] (-zr, -zi) := by
    intro m hm
    obtain ⟨m, rfl⟩ := Nat.exists_eq_add_of_le' hm
    rw [Function.iterate_succ_apply, Function.iterate_succ_apply, escapeMap_neg cr ci (zr, zi)]
  obtain rfl := (hexit.congr fun m hm => by rw [hiter m hm]).unique hexit'
  refine ⟨_, hrun, hrun'.trans ?_⟩
  rw [hiter n hexit.pos]

/-! ## Symmetric grids -/

section Grid

variable [IsStrictOrderedRing F]

/-- Coordinates at the same distance from the ends of an interval around 0. -/
theorem coordinate_reflect {lo hi : F} (h : lo = -hi) {i n : Nat} (hn : 0 < n) (hin : i ≤ n) :
    lo + ((n - i : Nat) : F) * ((hi - lo) / n) = -(lo + i * ((hi - lo) / n)) := by
  have hne : (n : F) ≠ 0 := Nat.cast_ne_zero.mpr hn.ne'
  rw [Nat.cast_sub hin, sub_mul, mul_div_cancel₀ _ hne, h]
  ring

theorem gridPoint_conj {g : Grid F} (hy : g.ymin = -g.ymax) {i j : Nat} (hny : 0 < g.ny)
    (hj : j ≤ g.ny) : gridPoint g i (g.ny - j) = conj (gridPoint g i j) :=
  Prod.ext rfl (coordinate_reflect hy hny hj)

end Grid

/-! ## The image of the Mandelbrot set -/

section Mandelbrot

variable [IsStrictOrderedRing F]

/-- The pixels of conjugate points have the same value. -/
theorem mandelbrotPixel_conj (log log2 : F → F) {g : Grid F} (hy : g.ymin = -g.ymax)
    (maxIter : Nat) {fuel : Nat} (hfuel : max 1 maxIter ≤ fuel) {i j : Nat} (hny : 0 < g.ny)
    (hj : j ≤ g.ny) :
    (mandelbrotPixel fuel g maxIter i (g.ny - j)).map
        (fun s => smoothValue log log2 s.zr s.zi s.k) =
      (mandelbrotPixel fuel g maxIter i j).map fun s => smoothValue log log2 s.zr s.zi s.k := by
  have hpoint := gridPoint_conj hy hny hj (i := i)
  obtain ⟨s, hs, hs'⟩ := escape_conj maxIter (gridPoint g i j).1 (gridPoint g i j).2
    (gridPoint g i j).1 (gridPoint g i j).2 hfuel
  have hpixel : mandelbrotPixel fuel g maxIter i j = some s := hs
  have hpixel' : mandelbrotPixel fuel g maxIter i (g.ny - j) = some { s with zi := -s.zi } := by
    refine Eq.trans ?_ hs'
    change escape fuel maxIter (gridPoint g i (g.ny - j)).1 (gridPoint g i (g.ny - j)).2
      (gridPoint g i (g.ny - j)).1 (gridPoint g i (g.ny - j)).2 = _
    rw [hpoint]
    rfl
  rw [hpixel, hpixel', Option.map_some, Option.map_some]
  simp only [smoothValue, neg_mul_neg]

/-- On a grid around the real axis, the images that `mandelbrot` and `mandelbrot_v` compute
are symmetric about it. -/
theorem mandelbrot_symmetric {V : Nat} (hV : 0 < V) (log log2 : F → F) {g : Grid F}
    (hnx : 0 < g.nx) (hy : g.ymin = -g.ymax) (maxIter : Nat) {fuel : Nat}
    (hfuel : max 1 maxIter ≤ fuel) (init initV : Nat → F) :
    ∃ image imageV, mandelbrot log log2 fuel g maxIter (Store.fresh init) = some image ∧
      mandelbrotV V log log2 fuel g maxIter (Store.fresh initV) = some imageV ∧
      ∀ i j, i < g.nx → 0 < j → j < g.ny →
        image.cell (g.ny * i + (g.ny - j)) = image.cell (g.ny * i + j) ∧
          imageV.cell (g.ny * i + (g.ny - j)) = imageV.cell (g.ny * i + j) := by
  obtain ⟨image, imageV, hrun, hrunV, hcells, -⟩ :=
    mandelbrotV_agrees hV log log2 g hnx maxIter hfuel init initV
  refine ⟨image, imageV, hrun, hrunV, ?_⟩
  intro i j hi hj hjn
  exact colors_same hcells hi hjn hi (Nat.sub_lt (Nat.zero_lt_of_lt hjn) hj)
    (mandelbrotPixel_conj log log2 hy maxIter hfuel (Nat.zero_lt_of_lt hjn) hjn.le)

/-- The image of `main`. -/
theorem mandelbrot_symmetric_main :
    ∃ image imageV, mandelbrot id id 500 (mainGrid 1024 864 : Grid ℚ) 500
        (Store.fresh fun _ => 0) = some image ∧
      mandelbrotV 4 id id 500 (mainGrid 1024 864 : Grid ℚ) 500 (Store.fresh fun _ => 0) =
        some imageV ∧
      ∀ i j, i < 1024 → 0 < j → j < 864 →
        image.cell (864 * i + (864 - j)) = image.cell (864 * i + j) ∧
          imageV.cell (864 * i + (864 - j)) = imageV.cell (864 * i + j) :=
  mandelbrot_symmetric (by decide : 0 < 4) id id (g := mainGrid 1024 864) (Nat.succ_pos 1023) rfl 500
    (by decide) (fun _ => 0) (fun _ => 0)

end Mandelbrot

/-! ## The image of a Julia set -/

section Julia

/-- `julia`'s loop for a point of the grid. -/
theorem juliaPixel_eq (fuel : Nat) (g : Grid F) (maxIter : Nat) (real im : F) (i j : Nat) :
    juliaPixel fuel g maxIter real im i j =
      escape fuel maxIter real im (gridPoint g i j).1 (gridPoint g i j).2 := rfl

/-- Every cell of the image of `julia` is the count of its pixel. -/
theorem julia_cell (g : Grid F) (maxIter : Nat) (real im : F) {fuel : Nat}
    (hfuel : max 1 maxIter ≤ fuel) (init : Nat → UInt8) :
    ∃ image, julia fuel g maxIter (Store.fresh init) real im = some image ∧
      ∀ i j, i < g.nx → j < g.ny → ∃ s, juliaPixel fuel g maxIter real im i j = some s ∧
        image.cell (g.ny * i + j) = UInt8.ofNat s.k := by
  have hpixel : ∀ i j, i < g.nx → j < g.ny → ∃ x,
      ((juliaPixel fuel g maxIter real im i j).map fun s => UInt8.ofNat s.k) = some x := by
    intro i j _ _
    obtain ⟨n, -, hrun⟩ :=
      escape_exits maxIter real im (gridPoint g i j).1 (gridPoint g i j).2 hfuel
    exact ⟨_, congrArg _ hrun⟩
  obtain ⟨image, hrun, hcell⟩ := sweepCells_cell hpixel init
  refine ⟨image, hrun, ?_⟩
  intro i j hi hj
  obtain ⟨s, hs, hval⟩ := Option.map_eq_some_iff.mp (hcell i j hi hj)
  exact ⟨s, hs, hval.symm⟩

variable [IsStrictOrderedRing F]

/-- The pixels of opposite points have the same count. -/
theorem juliaPixel_neg {g : Grid F} (hx : g.xmin = -g.xmax) (hy : g.ymin = -g.ymax)
    (maxIter : Nat) (real im : F) {fuel : Nat} (hfuel : max 1 maxIter ≤ fuel) {i j : Nat}
    (hnx : 0 < g.nx) (hi : i ≤ g.nx) (hny : 0 < g.ny) (hj : j ≤ g.ny) :
    juliaPixel fuel g maxIter real im (g.nx - i) (g.ny - j) =
      juliaPixel fuel g maxIter real im i j := by
  obtain ⟨s, hs, hs'⟩ := escape_neg maxIter real im (gridPoint g i j).1 (gridPoint g i j).2 hfuel
  have hpoint : gridPoint g (g.nx - i) (g.ny - j) = (-(gridPoint g i j).1, -(gridPoint g i j).2) :=
    Prod.ext (coordinate_reflect hx hnx hi) (coordinate_reflect hy hny hj)
  rw [juliaPixel_eq, juliaPixel_eq, hpoint, hs, hs']

/-- Conjugate points have the same count for conjugate constants. -/
theorem juliaPixel_conj {g : Grid F} (hy : g.ymin = -g.ymax) (maxIter : Nat) (real im : F)
    {fuel : Nat} (hfuel : max 1 maxIter ≤ fuel) {i j : Nat} (hny : 0 < g.ny) (hj : j ≤ g.ny) :
    (juliaPixel fuel g maxIter real (-im) i (g.ny - j)).map (fun s => UInt8.ofNat s.k) =
      (juliaPixel fuel g maxIter real im i j).map fun s => UInt8.ofNat s.k := by
  obtain ⟨s, hs, hs'⟩ := escape_conj maxIter real im (gridPoint g i j).1 (gridPoint g i j).2 hfuel
  rw [juliaPixel_eq, juliaPixel_eq, gridPoint_conj hy hny hj, hs]
  exact (congrArg (Option.map fun s : EscapeState F => UInt8.ofNat s.k) hs').trans rfl

/-- On a grid around the origin the images that `julia` and `julia_v` compute are symmetric
about it, and the images for the conjugate constant are the mirror images. -/
theorem julia_symmetric {V : Nat} (hV : 0 < V) {g : Grid F} (hnx : 0 < g.nx)
    (hx : g.xmin = -g.xmax) (hy : g.ymin = -g.ymax) (maxIter : Nat) (real im : F) {fuel : Nat}
    (hfuel : max 1 maxIter ≤ fuel) (init initV init' initV' : Nat → UInt8) :
    ∃ image imageV image' imageV', julia fuel g maxIter (Store.fresh init) real im = some image ∧
      juliaV V fuel g maxIter (Store.fresh initV) real im = some imageV ∧
      julia fuel g maxIter (Store.fresh init') real (-im) = some image' ∧
      juliaV V fuel g maxIter (Store.fresh initV') real (-im) = some imageV' ∧
      (∀ i j, 0 < i → i < g.nx → 0 < j → j < g.ny →
        image.cell (g.ny * (g.nx - i) + (g.ny - j)) = image.cell (g.ny * i + j) ∧
          imageV.cell (g.ny * (g.nx - i) + (g.ny - j)) = imageV.cell (g.ny * i + j)) ∧
      ∀ i j, i < g.nx → 0 < j → j < g.ny →
        image'.cell (g.ny * i + (g.ny - j)) = image.cell (g.ny * i + j) ∧
          imageV'.cell (g.ny * i + (g.ny - j)) = imageV.cell (g.ny * i + j) := by
  obtain ⟨image, imageV, hrun, hrunV, hcells, -⟩ :=
    juliaV_agrees hV g hnx maxIter real im hfuel init initV
  obtain ⟨image', imageV', hrun', hrunV', hcells', -⟩ :=
    juliaV_agrees hV g hnx maxIter real (-im) hfuel init' initV'
  refine ⟨image, imageV, image', imageV', hrun, hrunV, hrun', hrunV', ?_, ?_⟩
  · intro i j hi hin hj hjn
    have hny := Nat.zero_lt_of_lt hjn
    refine colors_same hcells hin hjn (Nat.sub_lt hnx hi) (Nat.sub_lt hny hj) ?_
    rw [juliaPixel_neg hx hy maxIter real im hfuel hnx hin.le hny hjn.le]
  · intro i j hin hj hjn
    have hny := Nat.zero_lt_of_lt hjn
    obtain ⟨hcell, hcellV⟩ := colors_cell hcells hin hjn
    obtain ⟨hcell', hcellV'⟩ := colors_cell hcells' hin (Nat.sub_lt hny hj)
    rw [juliaPixel_conj hy maxIter real im hfuel hny hjn.le, hcell] at hcell'
    have himage := (Option.some.inj hcell').symm
    exact ⟨himage, hcellV'.trans (himage.trans hcellV.symm)⟩

/-- The grid of `main`, with any numbers of rows and columns. -/
def juliaGrid (nx ny : Nat) : Grid F :=
  { xmin := -(16 / 10), xmax := 16 / 10, nx, ymin := -(16 / 10), ymax := 16 / 10, ny }

/-- The image of `main`. -/
theorem julia_symmetric_main :
    ∃ image imageV image' imageV', julia 500 (juliaGrid 1024 1024 : Grid ℚ) 500
        (Store.fresh fun _ => 0) (-(123 / 1000)) (754 / 1000) = some image ∧
      juliaV 4 500 (juliaGrid 1024 1024 : Grid ℚ) 500 (Store.fresh fun _ => 0)
        (-(123 / 1000)) (754 / 1000) = some imageV ∧
      julia 500 (juliaGrid 1024 1024 : Grid ℚ) 500 (Store.fresh fun _ => 0)
        (-(123 / 1000)) (-(754 / 1000)) = some image' ∧
      juliaV 4 500 (juliaGrid 1024 1024 : Grid ℚ) 500 (Store.fresh fun _ => 0)
        (-(123 / 1000)) (-(754 / 1000)) = some imageV' ∧
      (∀ i j, 0 < i → i < 1024 → 0 < j → j < 1024 →
        image.cell (1024 * (1024 - i) + (1024 - j)) = image.cell (1024 * i + j) ∧
          imageV.cell (1024 * (1024 - i) + (1024 - j)) = imageV.cell (1024 * i + j)) ∧
      ∀ i j, i < 1024 → 0 < j → j < 1024 →
        image'.cell (1024 * i + (1024 - j)) = image.cell (1024 * i + j) ∧
          imageV'.cell (1024 * i + (1024 - j)) = imageV.cell (1024 * i + j) :=
  julia_symmetric (by decide : 0 < 4) (g := juliaGrid 1024 1024) (Nat.succ_pos 1023) rfl rfl 500
    (-(123 / 1000)) (754 / 1000) (by decide) (fun _ => 0) (fun _ => 0) (fun _ => 0) fun _ => 0

end Julia

/-! ## The bound on the iterations -/

section Bound

/-- The bound has ended the loop, at a point in the disc. -/
def Undecided (maxIter : Nat) (s : EscapeState F) : Prop :=
  s.k = max 1 maxIter ∧ bounded (s.zr, s.zi) = true

/-- With a larger bound the loop ends as before, if it had left the disc; otherwise the old
bound had stopped it. -/
theorem escape_mono {maxIter maxIter' : Nat} (hle : maxIter ≤ maxIter') (cr ci zr zi : F)
    {fuel : Nat} (hfuel : max 1 maxIter' ≤ fuel) :
    ∃ s s', escape fuel maxIter cr ci zr zi = some s ∧
      escape fuel maxIter' cr ci zr zi = some s' ∧
      (s' = s ∨ Undecided maxIter s) := by
  have hfuel' : max 1 maxIter ≤ fuel := by omega
  obtain ⟨n, hexit, hrun⟩ := escape_exits maxIter cr ci zr zi hfuel'
  obtain ⟨n', hexit', hrun'⟩ := escape_exits maxIter' cr ci zr zi hfuel
  refine ⟨_, _, hrun, hrun', ?_⟩
  cases hin : bounded ((escapeMap cr ci)^[n] (zr, zi)) with
  | true => exact .inr ⟨hexit.eq_bound hin, hin⟩
  | false =>
    obtain rfl := (hexit.of_left hin hle).unique hexit'
    exact .inl rfl

/-- The value of a point that is still in the disc. -/
theorem smoothValue_of_bounded (log log2 : F → F) {s : EscapeState F}
    (h : bounded (s.zr, s.zi) = true) : smoothValue log log2 s.zr s.zi s.k = -1 :=
  if_pos (of_decide_eq_true h)

/-- So it is with a cell that is computed from the end of the loop. -/
theorem escape_cell_mono {α : Type*} (color : EscapeState F → α) {maxIter maxIter' : Nat}
    (hle : maxIter ≤ maxIter') {cr ci zr zi : F} {fuel : Nat} (hfuel : max 1 maxIter' ≤ fuel)
    {x x' : α} (hx : ∃ s, escape fuel maxIter cr ci zr zi = some s ∧ x = color s)
    (hx' : ∃ s, escape fuel maxIter' cr ci zr zi = some s ∧ x' = color s) :
    ∃ s, escape fuel maxIter cr ci zr zi = some s ∧
      (x' = x ∨ Undecided maxIter s ∧ x = color s) := by
  obtain ⟨t, ht, rfl⟩ := hx
  obtain ⟨t', ht', rfl⟩ := hx'
  obtain ⟨s, s', hs, hs', hend⟩ := escape_mono hle cr ci zr zi hfuel
  obtain rfl := Option.some.inj (hs.symm.trans ht)
  obtain rfl := Option.some.inj (hs'.symm.trans ht')
  refine ⟨s, hs, ?_⟩
  rcases hend with rfl | hund
  · exact .inl rfl
  · exact .inr ⟨hund, rfl⟩

/-- A larger `max_iter` changes only pixels that are undecided with the smaller one.  In the
image of `mandelbrot` they have the sentinel. -/
theorem maxIter_mono (log log2 : F → F) (g : Grid F) (real im : F) {maxIter maxIter' : Nat}
    (hle : maxIter ≤ maxIter') {fuel : Nat} (hfuel : max 1 maxIter' ≤ fuel)
    (init init' : Nat → F) (count count' : Nat → UInt8) :
    (∃ image image', mandelbrot log log2 fuel g maxIter (Store.fresh init) = some image ∧
      mandelbrot log log2 fuel g maxIter' (Store.fresh init') = some image' ∧
      ∀ i j, i < g.nx → j < g.ny →
        ∃ s, mandelbrotPixel fuel g maxIter i j = some s ∧
          (image'.cell (g.ny * i + j) = image.cell (g.ny * i + j) ∨
            Undecided maxIter s ∧ image.cell (g.ny * i + j) = -1)) ∧
    ∃ image image', julia fuel g maxIter (Store.fresh count) real im = some image ∧
      julia fuel g maxIter' (Store.fresh count') real im = some image' ∧
      ∀ i j, i < g.nx → j < g.ny →
        ∃ s, juliaPixel fuel g maxIter real im i j = some s ∧
          (image'.cell (g.ny * i + j) = image.cell (g.ny * i + j) ∨ Undecided maxIter s) := by
  have hfuel' : max 1 maxIter ≤ fuel := by omega
  constructor
  · obtain ⟨image, hrun, hcell⟩ := mandelbrot_cell log log2 g maxIter hfuel' init
    obtain ⟨image', hrun', hcell'⟩ := mandelbrot_cell log log2 g maxIter' hfuel init'
    refine ⟨image, image', hrun, hrun', ?_⟩
    intro i j hi hj
    obtain ⟨s, hs, hend⟩ := escape_cell_mono (fun s => smoothValue log log2 s.zr s.zi s.k) hle
      hfuel (hcell i j hi hj) (hcell' i j hi hj)
    exact ⟨s, hs, hend.imp_right fun h =>
      ⟨h.1, h.2.trans (smoothValue_of_bounded log log2 h.1.2)⟩⟩
  · obtain ⟨image, hrun, hcell⟩ := julia_cell g maxIter real im hfuel' count
    obtain ⟨image', hrun', hcell'⟩ := julia_cell g maxIter' real im hfuel count'
    refine ⟨image, image', hrun, hrun', ?_⟩
    intro i j hi hj
    obtain ⟨s, hs, hend⟩ := escape_cell_mono (fun s => UInt8.ofNat s.k) hle hfuel
      (hcell i j hi hj) (hcell' i j hi hj)
    exact ⟨s, hs, hend.imp_right And.left⟩

/-- Twice the bound of `main`. -/
theorem maxIter_mono_main :
    (∃ image image', mandelbrot id id 1000 (mainGrid 1024 864 : Grid ℚ) 500
        (Store.fresh fun _ => 0) = some image ∧
      mandelbrot id id 1000 (mainGrid 1024 864 : Grid ℚ) 1000 (Store.fresh fun _ => 0) =
        some image' ∧
      ∀ i j, i < 1024 → j < 864 →
        ∃ s, mandelbrotPixel 1000 (mainGrid 1024 864 : Grid ℚ) 500 i j = some s ∧
          (image'.cell (864 * i + j) = image.cell (864 * i + j) ∨
            Undecided 500 s ∧ image.cell (864 * i + j) = -1)) ∧
    ∃ image image', julia 1000 (mainGrid 1024 864 : Grid ℚ) 500 (Store.fresh fun _ => 0)
        (-(123 / 1000)) (754 / 1000) = some image ∧
      julia 1000 (mainGrid 1024 864 : Grid ℚ) 1000 (Store.fresh fun _ => 0)
        (-(123 / 1000)) (754 / 1000) = some image' ∧
      ∀ i j, i < 1024 → j < 864 →
        ∃ s, juliaPixel 1000 (mainGrid 1024 864 : Grid ℚ) 500 (-(123 / 1000)) (754 / 1000) i j =
            some s ∧
          (image'.cell (864 * i + j) = image.cell (864 * i + j) ∨ Undecided 500 s) :=
  maxIter_mono id id (mainGrid 1024 864) (-(123 / 1000)) (754 / 1000) (by decide) (by decide)
    (fun _ => 0) (fun _ => 0) (fun _ => 0) (fun _ => 0)

end Bound

end VecCore.Bench
