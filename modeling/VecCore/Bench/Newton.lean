/-
  Bench/Newton.lean --- bench/newton.cc, with exact arithmetic and NaN.

  Numbers are exact or NaN, a division by zero gives NaN, and NaN fails every
  comparison.  The `int` arithmetic of `converged` and the `uint8_t` results are
  those of the source; index vectors hold unbounded counters.

  `newton_v` neither freezes a lane that has converged nor keeps its mask: it
  goes on stepping and testing every lane.  Both programs nevertheless compute
  the first success of the test along the orbit of the pixel, because the
  tolerance discs are stable and disjoint.
-/
import VecCore.Bench.NewtonStep
import VecCore.Bench.EscapeTime
import VecCore.Foundation.CInt
import VecCore.Foundation.FirstHit
import VecCore.Foundation.Grid
import VecCore.Foundation.NaN

set_option autoImplicit false

namespace VecCore.Bench

open VecCore.Foundation
open VecCore.Foundation.WithNaN

variable {F : Type} {V : Nat}

/-! ## The scalar program -/

/-- `Color`. -/
structure Color where
  alpha : UInt8
  red : UInt8
  green : UInt8
  blue : UInt8
  deriving DecidableEq, Repr

/-- `COLORS`: black, yellow, red, green, blue. -/
def COLORS : List Color :=
  [⟨0, 0, 0, 0⟩, ⟨0, 255, 255, 0⟩, ⟨0, 255, 0, 0⟩, ⟨0, 0, 255, 0⟩, ⟨0, 0, 0, 255⟩]

/-- `Color color = COLORS[color_index]; color.alpha = alpha`; reading outside the
table is undefined. -/
def colorOf (colorIndex alpha : UInt8) : Option Color :=
  COLORS[colorIndex.toNat]?.map fun color => { color with alpha := alpha }

section Scalar

variable [Field F] [LinearOrder F]

/-- `is_equal`. -/
def isEqual (re1 im1 re2 im2 : WithNaN F) : Bool :=
  lt ((re1 - re2) * (re1 - re2) + (im1 - im2) * (im1 - im2)) (num tol2)

/-- `converged`: its result and the values it leaves in `color_index` and `alpha`.
The product `iters * 10` is undefined when it overflows `int`. -/
def converged (re im : WithNaN F) (iters : Int) (colorIndex : UInt8) :
    Option (Bool × UInt8 × UInt8) := do
  let product ← IntTy.int.result (iters * 10)
  let alpha := UInt8.ofInt (min product 100)
  if isEqual re im (num 1) (num 0) then
    some (true, 1, alpha)
  else if isEqual re im (num (-1)) (num 0) then
    some (true, 2, alpha)
  else if isEqual re im (num 0) (num 1) then
    some (true, 3, alpha)
  else if isEqual re im (num 0) (num (-1)) then
    some (true, 4, alpha)
  else
    some (false, colorIndex, alpha)

/-- The variables of the loop of `newton`. -/
structure NewtonState (F : Type) where
  re : WithNaN F
  im : WithNaN F
  colorIndex : UInt8
  alpha : UInt8
  hasConverged : Bool
  k : Nat

/-- The body of the loop of `newton`. -/
def newtonBody (s : NewtonState F) : Option (NewtonState F) := do
  let z := newtonUpdate (num (1 / 4)) (num 3) s.re s.im
  let (hasConverged, colorIndex, alpha) ←
    converged z.1 z.2 (IntTy.int.narrow s.k) s.colorIndex
  some { re := z.1, im := z.2, colorIndex, alpha, hasConverged, k := s.k + 1 }

/-- `!has_converged && (k < max_iter)`. -/
def newtonCond (maxIter : Nat) (s : NewtonState F) : Bool :=
  !s.hasConverged && decide (s.k < maxIter)

/-- The colour `newton` stores for the pixel in row `i` and column `j`. -/
def newtonPixel (fuel : Nat) (g : Grid (WithNaN F)) (maxIter i j : Nat) :
    Option Color := do
  let dx := (g.xmax - g.xmin) / num (g.nx : F)
  let dy := (g.ymax - g.ymin) / num (g.ny : F)
  let re := g.xmin + num (i : F) * dx
  let im := g.ymin + num (j : F) * dy
  let s ← whileLoop (newtonCond maxIter) newtonBody fuel
    { re, im, colorIndex := 0, alpha := 0, hasConverged := false, k := 0 }
  colorOf s.colorIndex s.alpha

/-- `newton`. -/
def newton (fuel : Nat) (g : Grid (WithNaN F)) (maxIter : Nat) (image : Store Color) :
    Option (Store Color) :=
  sweepCells g.nx g.ny (newtonPixel fuel g maxIter) image

end Scalar

/-! ## The vector program -/

section Vector

variable [Field F] [LinearOrder F]

/-- `is_equal_v`. -/
def isEqualV (re1 im1 re2 im2 : Lanes V (WithNaN F)) : Mask V :=
  lanewise lt ((re1 - re2) * (re1 - re2) + (im1 - im2) * (im1 - im2))
    (splat (num tol2))

/-- `converged_v`: its result and the values it leaves in `color_index` and
`alphas`. -/
def convergedV (re im : Lanes V (WithNaN F)) (iters colorIndex : Lanes V Nat) :
    Mask V × Lanes V Nat × Lanes V Nat :=
  let alphas := iters * splat 10
  let alphas := maskedAssign alphas (lanewise (fun a b => decide (a > b)) alphas (splat 100))
    (splat 100)
  let m0 := isEqualV re im (splat (num 1)) (splat (num 0))
  let colorIndex := maskedAssign colorIndex m0 (splat 1)
  let m1 := isEqualV re im (splat (num (-1))) (splat (num 0))
  let colorIndex := maskedAssign colorIndex m1 (splat 2)
  let m2 := isEqualV re im (splat (num 0)) (splat (num 1))
  let colorIndex := maskedAssign colorIndex m2 (splat 3)
  let m3 := isEqualV re im (splat (num 0)) (splat (num (-1)))
  let colorIndex := maskedAssign colorIndex m3 (splat 4)
  (fun i => m0 i || m1 i || m2 i || m3 i, colorIndex, alphas)

/-- The variables of the loop of `newton_v`. -/
structure NewtonVState (V : Nat) (F : Type) where
  re : Lanes V (WithNaN F)
  im : Lanes V (WithNaN F)
  kv : Lanes V Nat
  colorIndex : Lanes V Nat
  alphas : Lanes V Nat
  m : Mask V
  k : Nat

/-- The body of the loop of `newton_v`. -/
def newtonVBody (s : NewtonVState V F) : NewtonVState V F :=
  let z := newtonUpdate (splat (num (1 / 4))) (splat (num 3)) s.re s.im
  let (m, colorIndex, alphas) := convergedV z.1 z.2 s.kv s.colorIndex
  let notm : Mask V := fun i => !m i
  let k := s.k + 1
  { re := z.1, im := z.2, kv := maskedAssign s.kv notm (splat k), colorIndex, alphas, m, k }

/-- `!MaskFull(m) && (k < max_iter)`. -/
def newtonVCond (maxIter : Nat) (s : NewtonVState V F) : Bool :=
  !maskFull s.m && decide (s.k < maxIter)

/-- The colours `newton_v` stores for the tile in row `i` from column `j` on. -/
def newtonTile (fuel : Nat) (g : Grid (Lanes V (WithNaN F))) (maxIter i j : Nat) :
    Option (Lanes V Color) := do
  let dx := (g.xmax - g.xmin) / splat (num (g.nx : F))
  let dy := (g.ymax - g.ymin) / splat (num (g.ny : F))
  let dyv := (fun k => num (iota k) : Lanes V (WithNaN F)) * dy
  let re := g.xmin + splat (num (i : F)) * dx
  let im := g.ymin + splat (num (j : F)) * dy + dyv
  let s ← whileLoop (newtonVCond maxIter) (fun s => some (newtonVBody s)) fuel
    { re, im, kv := splat 0, colorIndex := splat 0, alphas := splat 0, m := splat false,
      k := 0 }
  sequenceLanes fun k =>
    colorOf (UInt8.ofNat (get s.colorIndex k)) (UInt8.ofNat (get s.alphas k))

/-- `newton_v`. -/
def newtonV (fuel : Nat) (g : Grid (Lanes V (WithNaN F))) (maxIter : Nat)
    (image : Store Color) : Option (Store Color) :=
  sweep V g.nx g.ny (newtonTile fuel g maxIter) image

/-- `bench_newton_v`, whose scalar bounds become vectors. -/
def benchNewtonV (V fuel : Nat) (g : Grid (WithNaN F)) (maxIter : Nat)
    (image : Store Color) : Option (Store Color) :=
  newtonV (V := V) fuel
    { xmin := splat g.xmin, xmax := splat g.xmax, nx := g.nx
      ymin := splat g.ymin, ymax := splat g.ymax, ny := g.ny } maxIter image

end Vector

/-! ## The orbit of a pixel -/

section Orbit

variable [Field F] [LinearOrder F]

/-- One iteration on a point. -/
def newtonPoint (z : WithNaN F × WithNaN F) : WithNaN F × WithNaN F :=
  newtonUpdate (num (1 / 4)) (num 3) z.1 z.2

/-- The test for one root. -/
def atRoot (z : WithNaN F × WithNaN F) (r : Root) : Bool :=
  isEqual z.1 z.2 (num r.point.1) (num r.point.2)

/-- The index into `COLORS` that `converged` gives to a root. -/
def Root.colorIndex : Root → Nat
  | .one => 1
  | .negOne => 2
  | .i => 3
  | .negI => 4

/-- The first root whose test succeeds, in the order of `converged`. -/
def rootAt (z : WithNaN F × WithNaN F) : Option Root :=
  if atRoot z .one then some .one
  else if atRoot z .negOne then some .negOne
  else if atRoot z .i then some .i
  else if atRoot z .negI then some .negI
  else none

/-- The roots in the order of `converged`. -/
def Root.all : List Root := [.one, .negOne, .i, .negI]

theorem Root.mem_all (r : Root) : r ∈ Root.all := by
  cases r <;> simp [Root.all]

theorem rootAt_eq_find (z : WithNaN F × WithNaN F) : rootAt z = Root.all.find? (atRoot z) := by
  unfold rootAt
  simp only [Root.all, List.find?_cons, List.find?_nil]
  split_ifs with h1 h2 h3 h4 <;> simp only [*]

/-- No test succeeds where no root is found. -/
theorem atRoot_eq_false_of_none {z : WithNaN F × WithNaN F} (h : rootAt z = none) (r : Root) :
    atRoot z r = false := by
  rw [rootAt_eq_find, List.find?_eq_none] at h
  exact Bool.eq_false_iff.mpr (h r r.mem_all)

/-- The test fails on NaN, and compares squared distances otherwise. -/
theorem atRoot_eq_true_iff {z : WithNaN F × WithNaN F} {r : Root} :
    atRoot z r = true ↔
      ∃ p : F × F, z = (num p.1, num p.2) ∧ distSq p r.point < tol2 := by
  constructor
  · intro h
    obtain ⟨re, im⟩ := z
    cases re with
    | nan => simp [atRoot, isEqual] at h
    | num a =>
      cases im with
      | nan => simp [atRoot, isEqual] at h
      | num b => exact ⟨(a, b), rfl, of_decide_eq_true h⟩
  · rintro ⟨p, rfl, h⟩
    exact decide_eq_true h

/-- Away from 0 the update of a point is the Newton map. -/
theorem newtonPoint_num {p : F × F} (hp : normSq p ≠ 0) :
    newtonPoint (num p.1, num p.2) = (num (newtonMap p).1, num (newtonMap p).2) := by
  have hden : (p.1 * p.1 + p.2 * p.2) * (p.1 * p.1 + p.2 * p.2) *
      (p.1 * p.1 + p.2 * p.2) ≠ 0 := mul_ne_zero (mul_ne_zero hp hp) hp
  simp only [newtonPoint, newtonMap, newtonUpdate, num_mul, num_add, num_sub,
    num_div_of_ne _ hden]

variable [IsStrictOrderedRing F]

theorem atRoot_unique {z : WithNaN F × WithNaN F} {r s : Root}
    (hr : atRoot z r = true) (hs : atRoot z s = true) : r = s := by
  obtain ⟨p, rfl, hp⟩ := atRoot_eq_true_iff.mp hr
  obtain ⟨q, hq, hq'⟩ := atRoot_eq_true_iff.mp hs
  obtain rfl : p = q := by
    obtain ⟨h1, h2⟩ := Prod.mk.inj hq
    exact Prod.ext (WithNaN.num.inj h1) (WithNaN.num.inj h2)
  exact root_unique hp hq'

/-- The order of the tests is irrelevant. -/
theorem rootAt_eq_some_iff {z : WithNaN F × WithNaN F} {r : Root} :
    rootAt z = some r ↔ atRoot z r = true := by
  have hfound : ∀ s, rootAt z = some s → atRoot z s = true := by
    intro s hs
    rw [rootAt_eq_find] at hs
    exact List.find?_some hs
  constructor
  · exact hfound r
  · intro h
    cases hroot : rootAt z with
    | none => exact absurd ((atRoot_eq_false_of_none hroot r).symm.trans h) Bool.false_ne_true
    | some s => rw [atRoot_unique (hfound s hroot) h]

/-- The other tests fail where a root is found. -/
theorem atRoot_eq_false_of_ne {z : WithNaN F × WithNaN F} {r s : Root} (h : rootAt z = some r)
    (hne : s ≠ r) : atRoot z s = false :=
  Bool.eq_false_iff.mpr fun hs => hne (atRoot_unique hs (rootAt_eq_some_iff.mp h))

/-- A point that has converged stays converged, to the same root. -/
theorem rootAt_absorbing : Absorbing newtonPoint (rootAt (F := F)) := by
  intro z r h
  obtain ⟨p, rfl, hp⟩ := atRoot_eq_true_iff.mp (rootAt_eq_some_iff.mp h)
  obtain ⟨hne, hnext⟩ := stableDisc_root r p hp
  rw [newtonPoint_num hne]
  exact rootAt_eq_some_iff.mpr (atRoot_eq_true_iff.mpr ⟨newtonMap p, rfl, hnext⟩)

end Orbit

end VecCore.Bench
