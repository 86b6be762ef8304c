/-
  Bench/Julia.lean --- bench/julia.cc, with exact arithmetic.

  The image is an array of `unsigned char`: the iteration count is stored
  modulo 256.
-/
import VecCore.Bench.Mandelbrot

set_option autoImplicit false

namespace VecCore.Bench

open VecCore.Foundation

variable {F κ : Type*} {V : Nat}

section Code

variable [Field F] [LinearOrder F]

/-- The do/while loop of `julia` for the pixel in row `i` and column `j`. -/
def juliaPixel (fuel : Nat) (g : Grid F) (maxIter : Nat) (real im : F) (i j : Nat) :
    Option (EscapeState F) :=
  let dx := (g.xmax - g.xmin) / g.nx
  let dy := (g.ymax - g.ymin) / g.ny
  let x := g.xmin + i * dx
  let y := g.ymin + j * dy
  escape fuel maxIter real im x y

/-- `julia`. -/
def julia (fuel : Nat) (g : Grid F) (maxIter : Nat) (image : Store UInt8)
    (real im : F) : Option (Store UInt8) :=
  sweepCells g.nx g.ny (fun i j => (juliaPixel fuel g maxIter real im i j).map fun s =>
    UInt8.ofNat s.k) image

/-- The do/while loop of `julia_v` for the tile in row `i` from column `j` on. -/
def juliaTile [Counter κ] (V fuel : Nat) (g : Grid F) (maxIter : κ) (real im : F)
    (i j : Nat) : Option (EscapeVState V F κ) :=
  let dx : Lanes V F := splat (g.xmax - g.xmin) / splat (g.nx : F)
  let dy : Lanes V F := splat (g.ymax - g.ymin) / splat (g.ny : F)
  let dyv := iota * dy
  let x := splat g.xmin + splat (i : F) * dx
  let y := splat g.ymin + splat (j : F) * dy + dyv
  escapeV fuel maxIter (splat real) (splat im) x y

/-- `julia_v`. -/
def juliaV [Counter κ] (V fuel : Nat) (g : Grid F) (maxIter : κ) (image : Store UInt8)
    (real im : F) : Option (Store UInt8) :=
  sweep V g.nx g.ny (fun i j => (juliaTile V fuel g maxIter real im i j).map fun s k =>
    UInt8.ofNat (Counter.toNat (get s.kv k))) image

end Code

section Agreement

variable [Field F] [LinearOrder F]

/-- Lane `k` of a tile computes the pixel `k` columns further on. -/
theorem juliaTile_lanes (g : Grid F) (maxIter : Nat) (real im : F) (i j : Nat)
    {fuel : Nat} (hfuel : max 1 maxIter ≤ fuel) :
    ∃ s, juliaTile V fuel g maxIter real im i j = some s ∧ ∀ k : Fin V,
      juliaPixel fuel g maxIter real im i (j + k) =
        some { k := s.kv k, zr := s.zr k, zi := s.zi k } := by
  obtain ⟨s, hrun, hlanes⟩ :=
    escapeV_eq_escape (F := F) (V := V) maxIter _ _ _ _ hfuel
  refine ⟨s, hrun, ?_⟩
  intro k
  rw [← hlanes k]
  simp only [juliaPixel, Pi.add_apply, Pi.mul_apply, Pi.div_apply, splat_apply,
    iota_apply, column_add]

/-- `julia_v` stores the counts of `julia`. -/
theorem juliaV_agrees (hV : 0 < V) (g : Grid F) (hnx : 0 < g.nx) (maxIter : Nat)
    (real im : F) {fuel : Nat} (hfuel : max 1 maxIter ≤ fuel)
    (init initV : Nat → UInt8) :
    ∃ image imageV, julia fuel g maxIter (Store.fresh init) real im = some image ∧
      juliaV V fuel g maxIter (Store.fresh initV) real im = some imageV ∧
      (∀ p, p < g.nx * g.ny → ∃ s,
        juliaPixel fuel g maxIter real im (p / g.ny) (p % g.ny) = some s ∧
        image.cell p = UInt8.ofNat s.k ∧ imageV.cell p = UInt8.ofNat s.k) ∧
      SpillsLastRow V g.nx g.ny imageV.log :=
  sweep_color hV g.nx g.ny hnx (fun s => UInt8.ofNat s.k)
    (fun i j => juliaTile_lanes g maxIter real im i j hfuel) init initV

/-- Both vector programs compute the image of their scalar program, and store
beyond it exactly the rest of the last tile of the last row. -/
theorem fractals_agree (hV : 0 < V) (log log2 : F → F) (g : Grid F) (hnx : 0 < g.nx)
    (maxIter : Nat) (real im : F) {fuel : Nat} (hfuel : max 1 maxIter ≤ fuel)
    (init initV : Nat → F) (count countV : Nat → UInt8) :
    (∃ image imageV, mandelbrot log log2 fuel g maxIter (Store.fresh init) = some image ∧
      mandelbrotV V log log2 fuel g maxIter (Store.fresh initV) = some imageV ∧
      (∀ p, p < g.nx * g.ny → ∃ s,
        mandelbrotPixel fuel g maxIter (p / g.ny) (p % g.ny) = some s ∧
        image.cell p = smoothValue log log2 s.zr s.zi s.k ∧
        imageV.cell p = smoothValue log log2 s.zr s.zi s.k) ∧
      SpillsLastRow V g.nx g.ny imageV.log) ∧
    (∃ image imageV, julia fuel g maxIter (Store.fresh count) real im = some image ∧
      juliaV V fuel g maxIter (Store.fresh countV) real im = some imageV ∧
      (∀ p, p < g.nx * g.ny → ∃ s,
        juliaPixel fuel g maxIter real im (p / g.ny) (p % g.ny) = some s ∧
        image.cell p = UInt8.ofNat s.k ∧ imageV.cell p = UInt8.ofNat s.k) ∧
      SpillsLastRow V g.nx g.ny imageV.log) :=
  ⟨mandelbrotV_agrees hV log log2 g hnx maxIter hfuel init initV,
    juliaV_agrees hV g hnx maxIter real im hfuel count countV⟩

end Agreement

/-- Two lanes on a row of three pixels: both programs store the fourth. -/
theorem fractals_agree_two_three :
    (∃ imageV, mandelbrotV 2 id id 2 (⟨-2, 1, 1, -1, 1, 3⟩ : Grid Rat) 2 (Store.fresh fun _ => 0) =
      some imageV ∧ 3 ∈ imageV.log) ∧
    ∃ imageV, juliaV 2 2 (⟨-2, 1, 1, -1, 1, 3⟩ : Grid Rat) 2 (Store.fresh fun _ => 0) 0 0 =
      some imageV ∧ 3 ∈ imageV.log := by
  obtain ⟨⟨-, imageV, -, hrun, -, -, hspill⟩, -, countV, -, hrunJ, -, -, hspillJ⟩ :=
    fractals_agree (V := 2) (by decide) id id (⟨-2, 1, 1, -1, 1, 3⟩ : Grid Rat) (by decide) 2 0 0
      (show max 1 2 ≤ 2 by decide) (fun _ => 0) (fun _ => 0)
      (fun _ => 0) (fun _ => 0)
  exact ⟨⟨imageV, hrun, ((hspill (by decide) 3).mpr (by decide)).1⟩,
    countV, hrunJ, ((hspillJ (by decide) 3).mpr (by decide)).1⟩

end VecCore.Bench
