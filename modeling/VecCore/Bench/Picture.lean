/-
  Bench/Picture.lean --- the pictures bench/png.cc writes of the images of
  bench/julia.cc and bench/newton.cc.

  `colormap` has four branches.  The counts of an image of `unsigned char` reach
  three of them: their colours go from green over yellow to red.  It scales by 256,
  so that a channel that is full has the argument 256, which no byte holds, and in
  the second branch blue is negative.  `smooth_colormap` scales by 255.
-/
import VecCore.Bench.EscapeImage
import VecCore.Bench.NewtonSymmetry
import VecCore.Bench.Png

set_option autoImplicit false

namespace VecCore.Bench

open VecCore.Foundation

/-! ## The palette -/

section Palette

variable (F : Type*) [Field F] [LinearOrder F] [FloorRing F]

/-- The position `x` of a count in the palette. -/
def paletteAt (c : Nat) : F := 1 - 7 / 10 * (1 - c / 256) ^ 10

/-- `colormap`. -/
def colormap (c : Nat) : Rgb :=
  let x : F := paletteAt F c
  let c : Nat := if x < 1 / 2 then (if x < 1 / 4 then 0 else 1) else (if x < 3 / 4 then 2 else 3)
  let rgb : F × F × F :=
    match c with
    | 0 => (0, 4 * x, 1)
    | 1 => (0, 1, 4 * (1 / 4 - x))
    | 2 => (4 * (x - 1 / 2), 1, 0)
    | 3 => (1, 4 * (1 - x), 0)
    | _ => (0, 0, 0)
  { cr := truncate (256 * rgb.1)
    cg := truncate (256 * rgb.2.1)
    cb := truncate (256 * rgb.2.2) }

variable {F}

theorem truncate_mono [IsStrictOrderedRing F] {x y : F} (h : x ≤ y) : truncate x ≤ truncate y := by
  unfold truncate
  by_cases hx : 0 ≤ x
  · rw [if_pos hx, if_pos (hx.trans h)]
    exact Int.floor_mono h
  · rw [if_neg hx]
    split
    · rename_i hy
      exact (Int.ceil_le.mpr (by simpa using (not_le.mp hx).le)).trans (Int.floor_nonneg.mpr hy)
    · exact Int.ceil_mono h

theorem truncate_intCast [IsStrictOrderedRing F] (n : Int) : truncate (n : F) = n := by
  unfold truncate
  split
  · exact Int.floor_intCast n
  · exact Int.ceil_intCast n

variable [IsStrictOrderedRing F]

/-- The positions of the counts below 256 start beyond the first branch, and end with the
palette. -/
theorem paletteAt_mem {c : Nat} (hc : c ≤ 256) :
    3 / 10 ≤ (paletteAt F c : F) ∧ (paletteAt F c : F) ≤ 1 := by
  have hle : (c : F) / 256 ≤ 1 := by
    rw [div_le_one (by norm_num)]
    exact_mod_cast hc
  have hnonneg : 0 ≤ 1 - (c : F) / 256 := sub_nonneg.mpr hle
  have hone : 1 - (c : F) / 256 ≤ 1 := sub_le_self _ (by positivity)
  have hpow := pow_le_one₀ (n := 10) hnonneg hone
  have hpos := pow_nonneg hnonneg 10
  constructor
  · unfold paletteAt
    linarith
  · unfold paletteAt
    linarith

/-- A larger count is further on. -/
theorem paletteAt_mono {c c' : Nat} (h : c ≤ c') (hc : c' ≤ 256) :
    (paletteAt F c : F) ≤ paletteAt F c' := by
  have hle : (c' : F) / 256 ≤ 1 := by
    rw [div_le_one (by norm_num)]
    exact_mod_cast hc
  have hdiv : (c : F) / 256 ≤ c' / 256 :=
    div_le_div_of_nonneg_right (Nat.cast_le.mpr h) (by norm_num)
  have hpow : (1 - (c' : F) / 256) ^ 10 ≤ (1 - (c : F) / 256) ^ 10 :=
    pow_le_pow_left₀ (sub_nonneg.mpr hle) (by linarith) 10
  unfold paletteAt
  linarith

/-- The colour of a position that the first branch does not reach. -/
def colorAt (x : F) : Rgb :=
  if x < 1 / 2 then { cr := 0, cg := 256, cb := truncate (256 * (4 * (1 / 4 - x))) }
  else if x < 3 / 4 then { cr := truncate (256 * (4 * (x - 1 / 2))), cg := 256, cb := 0 }
  else { cr := 256, cg := truncate (256 * (4 * (1 - x))), cb := 0 }

theorem colormap_eq {c : Nat} (hc : c ≤ 256) : colormap F c = colorAt (paletteAt F c) := by
  have hlow : ¬ (paletteAt F c : F) < 1 / 4 := by
    have h := (paletteAt_mem (F := F) hc).1
    exact not_lt.mpr (le_trans (by norm_num) h)
  have hzero : truncate (256 * (0 : F)) = 0 := by simpa using truncate_intCast (F := F) 0
  have hfull : truncate (256 * (1 : F)) = 256 := by simpa using truncate_intCast (F := F) 256
  unfold colormap colorAt
  by_cases h2 : (paletteAt F c : F) < 1 / 2
  · simp only [if_pos h2, if_neg hlow, hzero, hfull]
  · by_cases h3 : (paletteAt F c : F) < 3 / 4
    · simp only [if_neg h2, if_pos h3, hzero, hfull]
    · simp only [if_neg h2, if_neg h3, hzero, hfull]

/-- `q` has at least the red and at most the green of `p`. -/
structure NoCooler (p q : Rgb) : Prop where
  cr : p.cr ≤ q.cr
  cg : q.cg ≤ p.cg

/-- The channels are bytes. -/
structure Rgb.Fits (p : Rgb) : Prop where
  cr : 0 ≤ p.cr ∧ p.cr ≤ 255
  cg : 0 ≤ p.cg ∧ p.cg ≤ 255
  cb : 0 ≤ p.cb ∧ p.cb ≤ 255

/-- The arguments `colormap` computes for `gdImageColorAllocate`: red or green is 256, and
blue is not positive. -/
structure PaletteColor (p : Rgb) : Prop where
  full : p.cr = 256 ∨ p.cg = 256
  cr : 0 ≤ p.cr ∧ p.cr ≤ 256
  cg : 0 ≤ p.cg ∧ p.cg ≤ 256
  cb : -256 < p.cb ∧ p.cb ≤ 0

theorem PaletteColor.not_fits {p : Rgb} (h : PaletteColor p) : ¬ p.Fits := by
  intro hfits
  have hr := hfits.cr.2
  have hg := hfits.cg.2
  rcases h.full with hfull | hfull
  · omega
  · omega

/-- A channel between two numbers. -/
theorem truncate_bounds {x : F} (lo hi : Int) (hlo : (lo : F) ≤ x) (hhi : x ≤ hi) :
    lo ≤ truncate x ∧ truncate x ≤ hi :=
  ⟨truncate_intCast (F := F) lo ▸ truncate_mono hlo, truncate_intCast (F := F) hi ▸
    truncate_mono hhi⟩

/-- Blue in the second branch. -/
theorem blue_bounds {x : F} (hlo : 3 / 10 ≤ x) (hhi : x < 1 / 2) :
    -256 < truncate (256 * (4 * (1 / 4 - x))) ∧ truncate (256 * (4 * (1 / 4 - x))) < 0 := by
  have hlow : ((-256 : Int) : F) < 256 * (4 * (1 / 4 - x)) := by
    push_cast
    linarith
  have hhigh : 256 * (4 * (1 / 4 - x)) ≤ ((-51 : Int) : F) := by
    push_cast
    linarith
  rw [truncate, if_neg (not_le.mpr (hhigh.trans_lt (by norm_num)))]
  exact ⟨Int.lt_ceil.mpr hlow, (Int.ceil_le.mpr hhigh).trans_lt (by decide)⟩

theorem colorAt_paletteColor {x : F} (hlo : 3 / 10 ≤ x) (hhi : x ≤ 1) :
    PaletteColor (colorAt x) := by
  unfold colorAt
  by_cases h2 : x < 1 / 2
  · have hb := blue_bounds hlo h2
    rw [if_pos h2]
    exact ⟨.inr rfl, ⟨le_refl _, by norm_num⟩, ⟨by norm_num, le_refl _⟩, hb.1, hb.2.le⟩
  · by_cases h3 : x < 3 / 4
    · have hr : 0 ≤ truncate (256 * (4 * (x - 1 / 2))) ∧
          truncate (256 * (4 * (x - 1 / 2))) ≤ 256 :=
        truncate_bounds 0 256 (by push_cast; linarith [not_lt.mp h2]) (by push_cast; linarith)
      rw [if_neg h2, if_pos h3]
      exact ⟨.inr rfl, hr, ⟨by norm_num, le_refl _⟩, by norm_num, le_refl _⟩
    · have hg : 0 ≤ truncate (256 * (4 * (1 - x))) ∧ truncate (256 * (4 * (1 - x))) ≤ 256 :=
        truncate_bounds 0 256 (by push_cast; linarith) (by push_cast; linarith [not_lt.mp h3])
      rw [if_neg h2, if_neg h3]
      exact ⟨.inl rfl, ⟨by norm_num, le_refl _⟩, hg, by norm_num, le_refl _⟩

theorem colorAt_cb_neg_iff {x : F} (hlo : 3 / 10 ≤ x) : (colorAt x).cb < 0 ↔ x < 1 / 2 := by
  constructor
  · intro h
    by_contra h2
    rw [colorAt, if_neg h2] at h
    split at h
    · exact absurd h (lt_irrefl 0)
    · exact absurd h (lt_irrefl 0)
  · intro h2
    rw [colorAt, if_pos h2]
    exact (blue_bounds hlo h2).2

/-- Further on in the palette, the colours are no cooler. -/
theorem colorAt_noCooler {x y : F} (hlo : 3 / 10 ≤ x) (h : x ≤ y) (hhi : y ≤ 1) :
    NoCooler (colorAt x) (colorAt y) := by
  have hx := colorAt_paletteColor hlo (h.trans hhi)
  have hy := colorAt_paletteColor (hlo.trans h) hhi
  by_cases hx2 : x < 1 / 2
  · rw [colorAt, if_pos hx2]
    exact ⟨hy.cr.1, hy.cg.2⟩
  · have hy2 : ¬ y < 1 / 2 := not_lt.mpr ((not_lt.mp hx2).trans h)
    by_cases hy3 : y < 3 / 4
    · have hx3 : x < 3 / 4 := h.trans_lt hy3
      rw [colorAt, colorAt, if_neg hx2, if_neg hy2, if_pos hx3, if_pos hy3]
      exact ⟨truncate_mono (by linarith), le_refl _⟩
    · by_cases hx3 : x < 3 / 4
      · rw [colorAt, if_neg hx2, if_pos hx3] at hx ⊢
        rw [colorAt, if_neg hy2, if_neg hy3] at hy ⊢
        exact ⟨hx.cr.2, hy.cg.2⟩
      · rw [colorAt, colorAt, if_neg hx2, if_neg hy2, if_neg hx3, if_neg hy3]
        exact ⟨le_refl _, truncate_mono (by linarith)⟩

/-- The first half of the palette has the counts up to 8. -/
theorem paletteAt_lt_half_iff {c : Nat} (hc : c ≤ 256) : (paletteAt F c : F) < 1 / 2 ↔ c < 9 := by
  constructor
  · intro h
    by_contra hge
    have h9 : (1 / 2 : F) ≤ paletteAt F 9 := by norm_num [paletteAt]
    exact absurd (h9.trans (paletteAt_mono (not_lt.mp hge) hc)) (not_le.mpr h)
  · intro h
    have h8 : (paletteAt F 8 : F) < 1 / 2 := by norm_num [paletteAt]
    exact (paletteAt_mono (Nat.lt_succ_iff.mp h) (by decide)).trans_lt h8

theorem colormap_paletteColor {c : Nat} (hc : c ≤ 256) : PaletteColor (colormap F c) := by
  rw [colormap_eq hc]
  exact colorAt_paletteColor (paletteAt_mem hc).1 (paletteAt_mem hc).2

theorem colormap_cb_neg_iff {c : Nat} (hc : c ≤ 256) : (colormap F c).cb < 0 ↔ c < 9 := by
  rw [colormap_eq hc, colorAt_cb_neg_iff (paletteAt_mem hc).1, paletteAt_lt_half_iff hc]

theorem colormap_noCooler {c c' : Nat} (h : c ≤ c') (hc : c' ≤ 256) :
    NoCooler (colormap F c) (colormap F c') := by
  rw [colormap_eq (h.trans hc), colormap_eq hc]
  exact colorAt_noCooler (paletteAt_mem (h.trans hc)).1 (paletteAt_mono h hc) (paletteAt_mem hc).2

end Palette

/-- The channels of `smooth_colormap` are bytes. -/
theorem smoothColormap_fits (sqrt : ℝ → ℝ) (nu : ℝ) :
    (smoothColormap sqrt Real.cos nu).Fits := by
  have hchannel : ∀ t phase, 0 ≤ channel Real.cos t phase ∧ channel Real.cos t phase ≤ 255 := by
    intro t phase
    have hlo := Real.neg_one_le_cos (tau * (t + phase))
    have hhi := Real.cos_le_one (tau * (t + phase))
    exact truncate_bounds 0 255 (by push_cast; linarith) (by push_cast; linarith)
  unfold smoothColormap
  split
  · exact ⟨by decide, by decide, by decide⟩
  · exact ⟨hchannel _ _, hchannel _ _, hchannel _ _⟩

/-! ## The pictures -/

section Code

variable (F : Type*) [Field F] [LinearOrder F] [FloorRing F]

/-- The array `colors` of `write_png`. -/
def paletteColors : Lanes 256 Rgb := forLanes 256 (fun i colors => set colors i (colormap F i))
  (splat .black)

theorem paletteColors_apply (i : Fin 256) : paletteColors F i = colormap F i :=
  congrFun (forLanes_set (fun i _ => colormap F (i : Nat)) (splat Rgb.black)) i

/-- `write_png` of an array of counts.  A pixel of the picture is its colour as it was
allocated. -/
def writePngCounts (data : Store UInt8) (nx ny : Nat) (picture : Store Rgb) :
    Option (Store Rgb) :=
  sweepCells nx ny (fun i j =>
    let c := data.cell (ny * (nx - i - 1) + j)
    some (get (paletteColors F) ⟨c.toNat, c.toNat_lt⟩)) picture

/-- `write_png` of an array of colours. -/
def writePngColors (data : Store Color) (nx ny : Nat) (picture : Store Color) :
    Option (Store Color) :=
  sweepCells nx ny (fun i j => some (data.cell (ny * i + j))) picture

end Code

/-- The picture has every pixel painted once. -/
def PaintedOnce {α : Type*} (nx ny : Nat) (picture : Store α) : Prop :=
  ∀ a, picture.log.count a = if a < nx * ny then 1 else 0

/-- A picture has every pixel painted once, in its colour. -/
theorem sweepCells_paint {α : Type*} (nx ny : Nat) (color : Nat → Nat → α) (blank : Nat → α) :
    ∃ picture, sweepCells nx ny (fun i j => some (color i j)) (Store.fresh blank) =
        some picture ∧ PaintedOnce nx ny picture ∧
      ∀ i j, i < nx → j < ny → picture.cell (ny * i + j) = color i j := by
  have hcolor : ∀ i j, i < nx → j < ny → ∃ c, some (color i j) = some c := fun i j _ _ =>
    ⟨_, rfl⟩
  obtain ⟨picture, hrun, hcell⟩ := sweepCells_cell hcolor blank
  obtain ⟨picture', hrun', hcount⟩ := sweepCells_count nx ny color (Store.fresh blank)
  obtain rfl := Option.some.inj (hrun.symm.trans hrun')
  refine ⟨picture, hrun, fun a => ?_, fun i j hi hj => (Option.some.inj (hcell i j hi hj)).symm⟩
  rw [hcount, Store.fresh_log, List.count_nil, Nat.zero_add]

/-- `write_png` of an array of smooth counts paints colours that a picture can hold. -/
theorem writePng_fits (sqrt : ℝ → ℝ) (data : Store ℝ) (nx ny : Nat) (blank : Nat → Rgb) :
    ∃ picture, writePng sqrt Real.cos data nx ny (Store.fresh blank) = some picture ∧
      PaintedOnce nx ny picture ∧
      ∀ i j, i < nx → j < ny → (picture.cell (ny * i + j)).Fits := by
  obtain ⟨picture, hrun, honce, hcell⟩ := sweepCells_paint nx ny
    (fun i j => smoothColormap sqrt Real.cos (data.cell (ny * (nx - i - 1) + j))) blank
  refine ⟨picture, hrun, honce, fun i j hi hj => ?_⟩
  rw [hcell i j hi hj]
  exact smoothColormap_fits sqrt _

section Julia

variable {F : Type*} [Field F] [LinearOrder F] [FloorRing F]

/-- The picture of counts. -/
theorem writePngCounts_paint (data : Store UInt8) (nx ny : Nat) (blank : Nat → Rgb) :
    ∃ picture, writePngCounts F data nx ny (Store.fresh blank) = some picture ∧
      PaintedOnce nx ny picture ∧
      ∀ i j, i < nx → j < ny → picture.cell (ny * (nx - i - 1) + j) =
        colormap F (data.cell (ny * i + j)).toNat := by
  obtain ⟨picture, hrun, honce, hcell⟩ := sweepCells_paint nx ny (fun i j =>
    get (paletteColors F) ⟨(data.cell (ny * (nx - i - 1) + j)).toNat,
      (data.cell (ny * (nx - i - 1) + j)).toNat_lt⟩) blank
  refine ⟨picture, hrun, honce, fun i j hi hj => ?_⟩
  rw [hcell (nx - i - 1) j (by omega) hj, get, paletteColors_apply,
    show nx - (nx - i - 1) - 1 = i by omega]

variable [IsStrictOrderedRing F]

/-- `write_png` paints the images of `julia` and `julia_v` alike: pixel by pixel once, row `i`
of the grid in column `nx - i - 1`, in a colour whose channels are no bytes: red or green is
256, and blue is negative for the counts below 9 modulo 256, otherwise 0.  With a larger count
modulo 256, a colour is no less red and no more green. -/
theorem julia_picture {V : Nat} (hV : 0 < V) {g : Grid F} (hnx : 0 < g.nx) (maxIter : Nat)
    (real im : F) {fuel : Nat} (hfuel : max 1 maxIter ≤ fuel) (init initV : Nat → UInt8)
    (blank : Nat → Rgb) :
    ∃ image imageV picture pictureV,
      julia fuel g maxIter (Store.fresh init) real im = some image ∧
      juliaV V fuel g maxIter (Store.fresh initV) real im = some imageV ∧
      writePngCounts F image g.nx g.ny (Store.fresh blank) = some picture ∧
      writePngCounts F imageV g.nx g.ny (Store.fresh blank) = some pictureV ∧
      PaintedOnce g.nx g.ny picture ∧ PaintedOnce g.nx g.ny pictureV ∧
      (∀ i j, i < g.nx → j < g.ny → ∃ s, juliaPixel fuel g maxIter real im i j = some s ∧
        pictureV.cell (g.ny * (g.nx - i - 1) + j) = picture.cell (g.ny * (g.nx - i - 1) + j) ∧
        PaletteColor (picture.cell (g.ny * (g.nx - i - 1) + j)) ∧
        ¬ (picture.cell (g.ny * (g.nx - i - 1) + j)).Fits ∧
        ((picture.cell (g.ny * (g.nx - i - 1) + j)).cb < 0 ↔ s.k % 256 < 9)) ∧
      ∀ i j i' j' s s', i < g.nx → j < g.ny → i' < g.nx → j' < g.ny →
        juliaPixel fuel g maxIter real im i j = some s →
        juliaPixel fuel g maxIter real im i' j' = some s' → s.k % 256 ≤ s'.k % 256 →
        NoCooler (picture.cell (g.ny * (g.nx - i - 1) + j))
          (picture.cell (g.ny * (g.nx - i' - 1) + j')) := by
  obtain ⟨image, imageV, hrun, hrunV, hcells, -⟩ :=
    juliaV_agrees hV g hnx maxIter real im hfuel init initV
  obtain ⟨picture, hpaint, honce, hpixel⟩ := writePngCounts_paint (F := F) image g.nx g.ny blank
  obtain ⟨pictureV, hpaintV, honceV, hpixelV⟩ :=
    writePngCounts_paint (F := F) imageV g.nx g.ny blank
  have hcell : ∀ i j, i < g.nx → j < g.ny → ∃ s,
      juliaPixel fuel g maxIter real im i j = some s ∧
      image.cell (g.ny * i + j) = UInt8.ofNat s.k ∧
      imageV.cell (g.ny * i + j) = UInt8.ofNat s.k := by
    intro i j hi hj
    obtain ⟨hrow, hcol⟩ := cell_index (i := i) hj
    have h := hcells (g.ny * i + j) (cell_lt hi hj)
    rwa [hrow, hcol] at h
  have hcolor : ∀ i j s, i < g.nx → j < g.ny → juliaPixel fuel g maxIter real im i j = some s →
      picture.cell (g.ny * (g.nx - i - 1) + j) = colormap F (s.k % 256) := by
    intro i j s hi hj hs
    obtain ⟨t, ht, himage, -⟩ := hcell i j hi hj
    obtain rfl := Option.some.inj (hs.symm.trans ht)
    rw [hpixel i j hi hj, himage, UInt8.toNat_ofNat']
  have hmod : ∀ k, k % 256 ≤ 256 := fun k => (Nat.mod_lt k (by decide)).le
  refine ⟨image, imageV, picture, pictureV, hrun, hrunV, hpaint, hpaintV, honce, honceV, ?_, ?_⟩
  · intro i j hi hj
    obtain ⟨s, hs, himage, himageV⟩ := hcell i j hi hj
    have hcolor' := colormap_paletteColor (F := F) (hmod s.k)
    refine ⟨s, hs, ?_, ?_⟩
    · rw [hpixelV i j hi hj, hpixel i j hi hj, himage, himageV]
    · rw [hcolor i j s hi hj hs]
      exact ⟨hcolor', hcolor'.not_fits, colormap_cb_neg_iff (hmod s.k)⟩
  · intro i j i' j' s s' hi hj hi' hj' hs hs' hle
    rw [hcolor i j s hi hj hs, hcolor i' j' s' hi' hj' hs']
    exact colormap_noCooler hle (hmod s'.k)

/-- The pictures of `main`. -/
theorem julia_picture_main :
    ∃ image imageV picture pictureV,
      julia 500 (juliaGrid 1024 1024 : Grid ℚ) 500 (Store.fresh fun _ => 0)
        (-(123 / 1000)) (754 / 1000) = some image ∧
      juliaV 4 500 (juliaGrid 1024 1024 : Grid ℚ) 500 (Store.fresh fun _ => 0)
        (-(123 / 1000)) (754 / 1000) = some imageV ∧
      writePngCounts ℚ image 1024 1024 (Store.fresh fun _ => .black) = some picture ∧
      writePngCounts ℚ imageV 1024 1024 (Store.fresh fun _ => .black) = some pictureV ∧
      PaintedOnce 1024 1024 picture ∧ PaintedOnce 1024 1024 pictureV ∧
      (∀ i j, i < 1024 → j < 1024 → ∃ s,
        juliaPixel 500 (juliaGrid 1024 1024 : Grid ℚ) 500 (-(123 / 1000)) (754 / 1000) i j =
          some s ∧
        pictureV.cell (1024 * (1024 - i - 1) + j) = picture.cell (1024 * (1024 - i - 1) + j) ∧
        PaletteColor (picture.cell (1024 * (1024 - i - 1) + j)) ∧
        ¬ (picture.cell (1024 * (1024 - i - 1) + j)).Fits ∧
        ((picture.cell (1024 * (1024 - i - 1) + j)).cb < 0 ↔ s.k % 256 < 9)) ∧
      ∀ i j i' j' s s', i < 1024 → j < 1024 → i' < 1024 → j' < 1024 →
        juliaPixel 500 (juliaGrid 1024 1024 : Grid ℚ) 500 (-(123 / 1000)) (754 / 1000) i j =
          some s →
        juliaPixel 500 (juliaGrid 1024 1024 : Grid ℚ) 500 (-(123 / 1000)) (754 / 1000) i' j' =
          some s' → s.k % 256 ≤ s'.k % 256 →
        NoCooler (picture.cell (1024 * (1024 - i - 1) + j))
          (picture.cell (1024 * (1024 - i' - 1) + j')) :=
  julia_picture (by decide : 0 < 4) (g := juliaGrid 1024 1024) (Nat.succ_pos 1023) 500
    (-(123 / 1000)) (754 / 1000) (by decide) (fun _ => 0) (fun _ => 0) fun _ => .black

end Julia

section Newton

variable {F : Type} [Field F] [LinearOrder F] [IsStrictOrderedRing F]

/-- The images of `newton` and `newton_v` are painted as they are: row `i` of the grid in
column `i`, where the other pictures have it in column `nx - i - 1`. -/
theorem newton_picture {V : Nat} (hV : 0 < V) (g : Grid (WithNaN F)) {maxIter fuel : Nat}
    (hint : (maxIter : Int) * 10 ≤ IntTy.int.hi) (hfuel : maxIter ≤ fuel)
    (init initV blank : Nat → Color) :
    ∃ image imageV picture pictureV, newton fuel g maxIter (Store.fresh init) = some image ∧
      benchNewtonV V fuel g maxIter (Store.fresh initV) = some imageV ∧
      writePngColors image g.nx g.ny (Store.fresh blank) = some picture ∧
      writePngColors imageV g.nx g.ny (Store.fresh blank) = some pictureV ∧
      PaintedOnce g.nx g.ny picture ∧ PaintedOnce g.nx g.ny pictureV ∧
      ∀ i j, i < g.nx → j < g.ny →
        newtonPixel fuel g maxIter i j = some (picture.cell (g.ny * i + j)) ∧
          pictureV.cell (g.ny * i + j) = picture.cell (g.ny * i + j) := by
  obtain ⟨image, imageV, hrun, hrunV, hcells, -⟩ :=
    sweep_agrees hV g.nx g.ny _ (newtonPixel fuel g maxIter)
      (fun i j _ _ => newtonTile_eq (V := V) g hint hfuel i j) init initV
  obtain ⟨picture, hpaint, honce, hpixel⟩ :=
    sweepCells_paint g.nx g.ny (fun i j => image.cell (g.ny * i + j)) blank
  obtain ⟨pictureV, hpaintV, honceV, hpixelV⟩ :=
    sweepCells_paint g.nx g.ny (fun i j => imageV.cell (g.ny * i + j)) blank
  refine ⟨image, imageV, picture, pictureV, hrun, hrunV, hpaint, hpaintV, honce, honceV, ?_⟩
  intro i j hi hj
  obtain ⟨hrow, hcol⟩ := cell_index (i := i) hj
  obtain ⟨hcell, hcellV⟩ := hcells (g.ny * i + j) (cell_lt hi hj)
  rw [hrow, hcol] at hcell
  rw [hpixel i j hi hj, hpixelV i j hi hj]
  exact ⟨hcell, hcellV⟩

end Newton

end VecCore.Bench
