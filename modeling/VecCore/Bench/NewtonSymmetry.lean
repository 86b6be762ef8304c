/-
  Bench/NewtonSymmetry.lean --- the picture of bench/newton.cc as a whole.

  The iteration commutes with the quarter turn of the plane and with its
  reflection in the diagonal, and both permute the four roots.  On the square
  grid of `main` they carry pixels to pixels: the picture is its own quarter
  turn and its own transpose, up to the colours, and its diagonals are black.
-/
import VecCore.Bench.EscapeImage
import VecCore.Bench.NewtonAgreement

set_option autoImplicit false

namespace VecCore.Bench

open VecCore.Foundation
open VecCore.Foundation.WithNaN

/-! ## Symmetries of the iteration -/

/-- A map of the plane that the iteration commutes with, and what it does to the roots. -/
structure NewtonSymmetry (F : Type) [Field F] where
  point : F × F → F × F
  root : Root → Root
  normSq_point : ∀ z, normSq (point z) = normSq z
  distSq_point : ∀ z w, distSq (point z) (point w) = distSq z w
  newtonMap_point : ∀ z, newtonMap (point z) = point (newtonMap z)
  point_root : ∀ r : Root, point r.point = (root r).point
  root_surjective : Function.Surjective root

/-- The root a quarter turn carries a root to. -/
def Root.turn : Root → Root
  | .one => .i
  | .i => .negOne
  | .negOne => .negI
  | .negI => .one

/-- The root the reflection in the diagonal carries a root to. -/
def Root.transpose : Root → Root
  | .one => .i
  | .i => .one
  | .negOne => .negI
  | .negI => .negOne

/-- The reflection moves every root. -/
theorem Root.transpose_ne (r : Root) : r.transpose ≠ r := by
  cases r <;> decide

section Symmetries

variable (F : Type) [Field F]

/-- Multiplication by `i`. -/
def NewtonSymmetry.turn : NewtonSymmetry F where
  point := mulI
  root := Root.turn
  normSq_point := normSq_mulI
  distSq_point := distSq_mulI
  newtonMap_point := newtonMap_mulI
  point_root := by
    intro r
    cases r <;> simp [mulI, Root.point, Root.turn]
  root_surjective := by
    intro r
    cases r with
    | one => exact ⟨.negI, rfl⟩
    | negOne => exact ⟨.i, rfl⟩
    | i => exact ⟨.one, rfl⟩
    | negI => exact ⟨.negOne, rfl⟩

variable {F} in
/-- Exchanging the coordinates is conjugation followed by multiplication by `i`. -/
theorem mulI_conj (z : F × F) : mulI (conj z) = z.swap := by
  simp [mulI, conj, Prod.swap]

/-- The reflection in the diagonal. -/
def NewtonSymmetry.transpose : NewtonSymmetry F where
  point := Prod.swap
  root := Root.transpose
  normSq_point := fun z => add_comm _ _
  distSq_point := fun z w => add_comm _ _
  newtonMap_point := by
    intro z
    rw [← mulI_conj, ← mulI_conj, newtonMap_mulI, newtonMap_conj]
  point_root := by
    intro r
    cases r <;> rfl
  root_surjective := by
    intro r
    cases r with
    | one => exact ⟨.i, rfl⟩
    | negOne => exact ⟨.negI, rfl⟩
    | i => exact ⟨.one, rfl⟩
    | negI => exact ⟨.negOne, rfl⟩

end Symmetries

/-! ## Orbits -/

section Orbits

variable {F : Type} [Field F] [LinearOrder F] (σ : NewtonSymmetry F)

/-- `w` is where the symmetry carries `z`. -/
inductive Carried : WithNaN F × WithNaN F → WithNaN F × WithNaN F → Prop where
  | num (p : F × F) :
      Carried (num p.1, num p.2) (num (σ.point p).1, num (σ.point p).2)
  | nan : Carried (nan, nan) (nan, nan)

/-- At 0 the update divides by zero. -/
theorem newtonPoint_zero {p : F × F} (hp : normSq p = 0) :
    newtonPoint (num p.1, num p.2) = (nan, nan) := by
  have hden : (p.1 * p.1 + p.2 * p.2) * (p.1 * p.1 + p.2 * p.2) *
      (p.1 * p.1 + p.2 * p.2) = 0 := by
    rw [show p.1 * p.1 + p.2 * p.2 = 0 from hp, mul_zero]
  have hcoeff : (num (1 / 4) : WithNaN F) / num ((p.1 * p.1 + p.2 * p.2) *
      (p.1 * p.1 + p.2 * p.2) * (p.1 * p.1 + p.2 * p.2)) = nan := if_pos hden
  simp only [newtonPoint, newtonUpdate, num_mul, num_add, hcoeff, mul_nan]
  rfl

variable {σ}

/-- The update keeps points in correspondence. -/
theorem Carried.step {z w : WithNaN F × WithNaN F} (h : Carried σ z w) :
    Carried σ (newtonPoint z) (newtonPoint w) := by
  cases h with
  | nan => exact .nan
  | num p =>
    by_cases hp : normSq p = 0
    · rw [newtonPoint_zero hp, newtonPoint_zero ((σ.normSq_point p).trans hp)]
      exact .nan
    · have hp' : normSq (σ.point p) ≠ 0 := by
        rw [σ.normSq_point]
        exact hp
      rw [newtonPoint_num hp, newtonPoint_num hp', σ.newtonMap_point]
      exact .num (newtonMap p)

/-- Corresponding points pass the tests of corresponding roots. -/
theorem Carried.atRoot {z w : WithNaN F × WithNaN F} (h : Carried σ z w) (r : Root) :
    atRoot w (σ.root r) = Bench.atRoot z r := by
  cases h with
  | nan => rfl
  | num p =>
    have hdist := σ.distSq_point p r.point
    rw [σ.point_root] at hdist
    exact decide_eq_decide.mpr (by
      simp only [distSq] at hdist
      rw [hdist])

variable [IsStrictOrderedRing F]

theorem Carried.rootAt {z w : WithNaN F × WithNaN F} (h : Carried σ z w) :
    rootAt w = (Bench.rootAt z).map σ.root := by
  cases hz : Bench.rootAt z with
  | some r =>
    rw [Option.map_some, rootAt_eq_some_iff, h.atRoot, ← rootAt_eq_some_iff, hz]
  | none =>
    cases hw : Bench.rootAt w with
    | none => rfl
    | some s =>
      obtain ⟨r, rfl⟩ := σ.root_surjective s
      have hr := rootAt_eq_some_iff.mp hw
      rw [h.atRoot, atRoot_eq_false_of_none hz] at hr
      exact absurd hr Bool.false_ne_true

/-- Corresponding points converge after the same number of iterations, to corresponding
roots. -/
theorem Carried.foundBy {z w : WithNaN F × WithNaN F} (h : Carried σ z w) (k : Nat) :
    foundBy w k = (Bench.foundBy z k).map (Prod.map id σ.root) :=
  firstHit_related (fun _ _ => Carried.step) (fun _ _ => Carried.rootAt) h k

end Orbits

/-! ## Colours -/

/-- The index into `COLORS` of a root, or of no root. -/
def rootColor (found : Option Root) : UInt8 := UInt8.ofNat (found.elim 0 Root.colorIndex)

/-- The colours of two pixels that have converged together, the second to the root that `τ`
gives for the first. -/
def ColorsCarried (τ : Root → Root) (c c' : Color) : Prop :=
  ∃ found alpha, colorOf (rootColor found) alpha = some c ∧
    colorOf (rootColor (found.map τ)) alpha = some c'

/-- The colour of a pixel that has not converged. -/
def IsBlack (c : Color) : Prop := ∃ alpha, colorOf 0 alpha = some c

/-- The colours of the table differ in more than their `alpha`. -/
theorem rootColor_injective {found found' : Option Root} {alpha alpha' : UInt8}
    (h : colorOf (rootColor found) alpha = colorOf (rootColor found') alpha') :
    found = found' := by
  rcases found with _ | r <;> rcases found' with _ | s
  · rfl
  · cases s <;> simp [colorOf, rootColor, COLORS, Root.colorIndex] at h
  · cases r <;> simp [colorOf, rootColor, COLORS, Root.colorIndex] at h
  · cases r <;> cases s <;> first
      | rfl
      | simp [colorOf, rootColor, COLORS, Root.colorIndex] at h

/-- A colour that a map without fixed points leaves alone is black. -/
theorem ColorsCarried.isBlack {τ : Root → Root} (hτ : ∀ r, τ r ≠ r) {c : Color}
    (h : ColorsCarried τ c c) : IsBlack c := by
  obtain ⟨found, alpha, hc, hc'⟩ := h
  have hfixed := rootColor_injective (hc.trans hc'.symm)
  cases found with
  | none => exact ⟨alpha, hc⟩
  | some r => exact absurd (Option.some.inj hfixed).symm (hτ r)

/-- Black is carried to black. -/
theorem IsBlack.carried {τ : Root → Root} {c c' : Color} (h : IsBlack c)
    (hτ : ColorsCarried τ c c') : IsBlack c' := by
  obtain ⟨found, alpha, hc, hc'⟩ := hτ
  obtain ⟨alpha', hblack⟩ := h
  obtain rfl : none = found := rootColor_injective (hblack.trans hc.symm)
  exact ⟨alpha, hc'⟩

section Pixels

variable {F : Type} [Field F] [LinearOrder F] [IsStrictOrderedRing F] {σ : NewtonSymmetry F}

/-- The colours of corresponding points. -/
theorem Carried.pixelColor {z w : WithNaN F × WithNaN F} (h : Carried σ z w) {maxIter : Nat}
    {c c' : Color} (hc : pixelColor maxIter z = some c)
    (hc' : Bench.pixelColor maxIter w = some c') : ColorsCarried σ.root c c' := by
  refine ⟨(Bench.foundBy z maxIter).map Prod.snd,
    UInt8.ofNat (alphaAfter maxIter (Bench.foundBy z maxIter)), ?_, ?_⟩
  · refine Eq.trans ?_ hc
    unfold Bench.pixelColor
    cases Bench.foundBy z maxIter <;> rfl
  · refine Eq.trans ?_ hc'
    unfold Bench.pixelColor
    rw [h.foundBy]
    cases Bench.foundBy z maxIter <;> rfl

/-! ## The picture -/

/-- The square grid around the origin that `main` uses, of any size and with any number of
rows and columns. -/
def squareGrid (a : F) (n : Nat) : Grid (WithNaN F) :=
  { xmin := num (-a), xmax := num a, nx := n, ymin := num (-a), ymax := num a, ny := n }

/-- A coordinate of the square grid. -/
def squareCoord (a : F) (n i : Nat) : F := -a + i * ((a - -a) / n)

/-- A pixel of the square grid has the colour of its point. -/
theorem newtonPixel_square (a : F) {n maxIter fuel : Nat} (hn : 0 < n)
    (hint : (maxIter : Int) * 10 ≤ IntTy.int.hi) (hfuel : maxIter ≤ fuel) (i j : Nat) :
    newtonPixel fuel (squareGrid a n) maxIter i j =
      Bench.pixelColor maxIter (num (squareCoord a n i), num (squareCoord a n j)) := by
  have hne : (n : F) ≠ 0 := Nat.cast_ne_zero.mpr hn.ne'
  have hstep : (num a - num (-a) : WithNaN F) / num (n : F) = num ((a - -a) / n) :=
    num_div_of_ne _ hne
  rw [newtonPixel_eq _ hint hfuel]
  simp only [squareGrid, hstep]
  rfl

/-- An image of `n` rows and columns that is its own quarter turn and its own transpose, with
the colours of the roots exchanged, and black on its diagonals. -/
structure SquareSymmetric (n : Nat) (image : Nat → Color) : Prop where
  turn : ∀ i j, i < n → 0 < j → j < n →
    ColorsCarried Root.turn (image (n * i + j)) (image (n * (n - j) + i))
  transpose : ∀ i j, i < n → j < n →
    ColorsCarried Root.transpose (image (n * i + j)) (image (n * j + i))
  diagonal : ∀ i, i < n → IsBlack (image (n * i + i))
  antidiagonal : ∀ i, 0 < i → i < n → IsBlack (image (n * (n - i) + i))

/-- Cells with the colours of the pixels make such an image. -/
theorem squareSymmetric_of_cells (a : F) {n maxIter fuel : Nat}
    (hint : (maxIter : Int) * 10 ≤ IntTy.int.hi) (hfuel : maxIter ≤ fuel) {image : Nat → Color}
    (hcell : ∀ i j, i < n → j < n →
      newtonPixel fuel (squareGrid a n) maxIter i j = some (image (n * i + j))) :
    SquareSymmetric n image := by
  have hpixel : ∀ i j, i < n → j < n → Bench.pixelColor maxIter
      (num (squareCoord a n i), num (squareCoord a n j)) = some (image (n * i + j)) := by
    intro i j hi hj
    rw [← newtonPixel_square a (Nat.zero_lt_of_lt hi) hint hfuel]
    exact hcell i j hi hj
  have hturn : ∀ i j, i < n → 0 < j → j < n →
      ColorsCarried Root.turn (image (n * i + j)) (image (n * (n - j) + i)) := by
    intro i j hi hj hjn
    have hpoint : Carried (NewtonSymmetry.turn F)
        (num (squareCoord a n i), num (squareCoord a n j))
        (num (squareCoord a n (n - j)), num (squareCoord a n i)) := by
      rw [show squareCoord a n (n - j) = -squareCoord a n j from
        coordinate_reflect rfl (Nat.zero_lt_of_lt hjn) hjn.le]
      exact .num (squareCoord a n i, squareCoord a n j)
    exact hpoint.pixelColor (hpixel i j hi hjn)
      (hpixel (n - j) i (Nat.sub_lt (Nat.zero_lt_of_lt hjn) hj) hi)
  have htranspose : ∀ i j, i < n → j < n →
      ColorsCarried Root.transpose (image (n * i + j)) (image (n * j + i)) := by
    intro i j hi hj
    have hpoint : Carried (NewtonSymmetry.transpose F)
        (num (squareCoord a n i), num (squareCoord a n j))
        (num (squareCoord a n j), num (squareCoord a n i)) :=
      .num (squareCoord a n i, squareCoord a n j)
    exact hpoint.pixelColor (hpixel i j hi hj) (hpixel j i hj hi)
  have hdiagonal : ∀ i, i < n → IsBlack (image (n * i + i)) := fun i hi =>
    (htranspose i i hi hi).isBlack Root.transpose_ne
  exact ⟨hturn, htranspose, hdiagonal, fun i hi hin =>
    (hdiagonal i hin).carried (hturn i i hin hi hin)⟩

/-- The pictures that `newton` and `newton_v` compute on a square around the origin are
symmetric: a quarter turn or a transposition exchanges the colours of the roots and keeps
`alpha`, and both diagonals are black. -/
theorem newton_symmetric {V : Nat} (hV : 0 < V) (a : F) (n : Nat) {maxIter fuel : Nat}
    (hint : (maxIter : Int) * 10 ≤ IntTy.int.hi) (hfuel : maxIter ≤ fuel)
    (init initV : Nat → Color) :
    ∃ image imageV, newton fuel (squareGrid a n) maxIter (Store.fresh init) = some image ∧
      benchNewtonV V fuel (squareGrid a n) maxIter (Store.fresh initV) = some imageV ∧
      SquareSymmetric n image.cell ∧ SquareSymmetric n imageV.cell := by
  obtain ⟨image, imageV, hrun, hrunV, hcells, -⟩ :=
    sweep_agrees hV n n _ (newtonPixel fuel (squareGrid a n) maxIter)
      (fun i j _ _ => newtonTile_eq (V := V) (squareGrid a n) hint hfuel i j) init initV
  refine ⟨image, imageV, hrun, hrunV, ?_, ?_⟩
  · refine squareSymmetric_of_cells a hint hfuel fun i j hi hj => ?_
    obtain ⟨hrow, hcol⟩ := cell_index (i := i) hj
    have h := (hcells (n * i + j) (cell_lt hi hj)).1
    rwa [hrow, hcol] at h
  · refine squareSymmetric_of_cells a hint hfuel fun i j hi hj => ?_
    obtain ⟨hrow, hcol⟩ := cell_index (i := i) hj
    obtain ⟨h, hV'⟩ := hcells (n * i + j) (cell_lt hi hj)
    rw [hrow, hcol] at h
    exact h.trans (congrArg some hV'.symm)

/-- The picture of `main`. -/
theorem newton_symmetric_main :
    ∃ image imageV, newton 1000 (squareGrid (2 : ℚ) 1024) 1000
        (Store.fresh fun _ => ⟨0, 0, 0, 0⟩) = some image ∧
      benchNewtonV 4 1000 (squareGrid (2 : ℚ) 1024) 1000
        (Store.fresh fun _ => ⟨0, 0, 0, 0⟩) = some imageV ∧
      SquareSymmetric 1024 image.cell ∧ SquareSymmetric 1024 imageV.cell :=
  newton_symmetric (by decide : 0 < 4) 2 1024
    (show ((1000 : Nat) : Int) * 10 ≤ IntTy.int.hi by decide) (Nat.le_refl 1000)
    (fun _ => ⟨0, 0, 0, 0⟩) (fun _ => ⟨0, 0, 0, 0⟩)

end Pixels

end VecCore.Bench
