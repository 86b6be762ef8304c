/-
  Bench/Mandelbrot.lean --- bench/mandelbrot.cc, with exact arithmetic.

  The image is a logged array, so that what the vector version stores beyond it
  can be stated.  `std::log` and `std::log2` are parameters.
-/
import VecCore.Bench.EscapeTime
import VecCore.Foundation.Grid

set_option autoImplicit false

namespace VecCore.Bench

open VecCore.Foundation

variable {F κ : Type*} {V : Nat}

section Code

variable [Field F] [LinearOrder F]

/-- `smooth_value`. -/
def smoothValue (log log2 : F → F) (zr zi : F) (n : Int) : F :=
  let mag2 := zr * zr + zi * zi
  if mag2 < 4 then -1 else n + 1 - log2 (1 / 2 * log mag2)

/-- The do/while loop of `mandelbrot` for the pixel in row `i` and column `j`. -/
def mandelbrotPixel (fuel : Nat) (g : Grid F) (maxIter i j : Nat) :
    Option (EscapeState F) :=
  let dx := (g.xmax - g.xmin) / g.nx
  let dy := (g.ymax - g.ymin) / g.ny
  let x := g.xmin + i * dx
  let y := g.ymin + j * dy
  escape fuel maxIter x y x y

/-- `mandelbrot`. -/
def mandelbrot (log log2 : F → F) (fuel : Nat) (g : Grid F) (maxIter : Nat)
    (image : Store F) : Option (Store F) :=
  sweepCells g.nx g.ny (fun i j => (mandelbrotPixel fuel g maxIter i j).map fun s =>
    smoothValue log log2 s.zr s.zi s.k) image

/-- The do/while loop of `mandelbrot_v` for the tile in row `i` from column `j` on. -/
def mandelbrotTile [Counter κ] (V fuel : Nat) (g : Grid F) (maxIter : κ) (i j : Nat) :
    Option (EscapeVState V F κ) :=
  let dx : Lanes V F := splat (g.xmax - g.xmin) / splat (g.nx : F)
  let dy : Lanes V F := splat (g.ymax - g.ymin) / splat (g.ny : F)
  let dyv := iota * dy
  let x := splat g.xmin + splat (i : F) * dx
  let y := splat g.ymin + splat (j : F) * dy + dyv
  escapeV fuel maxIter x y x y

/-- `mandelbrot_v`. -/
def mandelbrotV [Counter κ] (V : Nat) (log log2 : F → F) (fuel : Nat) (g : Grid F)
    (maxIter : κ) (image : Store F) : Option (Store F) :=
  sweep V g.nx g.ny (fun i j => (mandelbrotTile V fuel g maxIter i j).map fun s k =>
    smoothValue log log2 (get s.zr k) (get s.zi k) (Counter.toNat (get s.kv k))) image

end Code

/-- A swept image whose cells are a function `color` of what the loop of the pixel
ends with, when the loop of a tile ends with that in its lanes. -/
theorem sweep_color {α : Type*} (hV : 0 < V) (nx ny : Nat) (hnx : 0 < nx)
    (color : EscapeState F → α) {pixel : Nat → Nat → Option (EscapeState F)}
    {tile : Nat → Nat → Option (EscapeVState V F Nat)}
    (htile : ∀ i j, ∃ s, tile i j = some s ∧ ∀ k : Fin V,
      pixel i (j + k) = some { k := s.kv k, zr := s.zr k, zi := s.zi k })
    (init initV : Nat → α) :
    ∃ image imageV,
      sweepCells nx ny (fun i j => (pixel i j).map color) (Store.fresh init) = some image ∧
      sweep V nx ny (fun i j => (tile i j).map fun s k =>
        color { k := s.kv k, zr := s.zr k, zi := s.zi k }) (Store.fresh initV) = some imageV ∧
      (∀ p, p < nx * ny → ∃ s, pixel (p / ny) (p % ny) = some s ∧
        image.cell p = color s ∧ imageV.cell p = color s) ∧
      SpillsLastRow V nx ny imageV.log := by
  have hcolor : ∀ i j, i < nx → j < ny → ∃ v : Lanes V α,
      ((tile i j).map fun s k => color { k := s.kv k, zr := s.zr k, zi := s.zi k }) = some v ∧
        ∀ k : Fin V, ∃ s, pixel i (j + k) = some s ∧ v k = color s := by
    intro i j _ _
    obtain ⟨s, hs, hlanes⟩ := htile i j
    exact ⟨_, congrArg _ hs, fun k => ⟨_, hlanes k, rfl⟩⟩
  obtain ⟨image, imageV, hrun, hrunV, hcells, hlog⟩ :=
    sweep_colors hV nx ny color hcolor init initV
  exact ⟨image, imageV, hrun, hrunV, hcells, spillsLastRow_of_log hV hnx hlog⟩

section Agreement

variable [Field F] [LinearOrder F]

/-- Lane `k` of a tile computes the pixel `k` columns further on. -/
theorem mandelbrotTile_lanes (g : Grid F) (maxIter i j : Nat) {fuel : Nat}
    (hfuel : max 1 maxIter ≤ fuel) :
    ∃ s, mandelbrotTile V fuel g maxIter i j = some s ∧ ∀ k : Fin V,
      mandelbrotPixel fuel g maxIter i (j + k) =
        some { k := s.kv k, zr := s.zr k, zi := s.zi k } := by
  obtain ⟨s, hrun, hlanes⟩ := escapeV_eq_escape (F := F) (V := V) maxIter _ _ _ _ hfuel
  refine ⟨s, hrun, ?_⟩
  intro k
  rw [← hlanes k]
  simp only [mandelbrotPixel, Pi.add_apply, Pi.mul_apply, Pi.div_apply, splat_apply,
    iota_apply, column_add]

/-- `mandelbrot_v` computes the pixels of `mandelbrot`. -/
theorem mandelbrotV_agrees (hV : 0 < V) (log log2 : F → F) (g : Grid F)
    (hnx : 0 < g.nx) (maxIter : Nat) {fuel : Nat} (hfuel : max 1 maxIter ≤ fuel)
    (init initV : Nat → F) :
    ∃ image imageV, mandelbrot log log2 fuel g maxIter (Store.fresh init) = some image ∧
      mandelbrotV V log log2 fuel g maxIter (Store.fresh initV) = some imageV ∧
      (∀ p, p < g.nx * g.ny → ∃ s,
        mandelbrotPixel fuel g maxIter (p / g.ny) (p % g.ny) = some s ∧
        image.cell p = smoothValue log log2 s.zr s.zi s.k ∧
        imageV.cell p = smoothValue log log2 s.zr s.zi s.k) ∧
      SpillsLastRow V g.nx g.ny imageV.log :=
  sweep_color hV g.nx g.ny hnx (fun s => smoothValue log log2 s.zr s.zi s.k)
    (fun i j => mandelbrotTile_lanes g maxIter i j hfuel) init initV

end Agreement

end VecCore.Bench
