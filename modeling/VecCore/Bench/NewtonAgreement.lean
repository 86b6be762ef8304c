/-
  Bench/NewtonAgreement.lean --- newton_v stores the colours of newton.

  Both loops maintain `foundBy`, the first success of the convergence test along
  the orbit of the pixel: the scalar loop because it stops there, a lane of the
  vector loop because its iteration count is no longer updated and its test
  keeps succeeding for the same root.
-/
import VecCore.Bench.Newton

set_option autoImplicit false

namespace VecCore.Bench

open VecCore.Foundation
open VecCore.Foundation.WithNaN

variable {F : Type} {V : Nat} [Field F]

/-- Column `j + k` of the grid, as `newton` and as lane `k` of `newton_v` compute
it; both are NaN when the grid has no columns. -/
theorem column_add_num (lo d : WithNaN F) (j k : Nat) :
    lo + num ((j + k : Nat) : F) * d = lo + num (j : F) * d + num (k : F) * d := by
  cases lo with
  | nan => simp
  | num lo =>
    cases d with
    | nan => simp
    | num d => simp only [num_mul, num_add, column_add]

variable [LinearOrder F]

/-! ## What both programs compute -/

/-- The first success among the first `k` iterations: the number of iterations
before it, and the root. -/
def foundBy (z : WithNaN F × WithNaN F) (k : Nat) : Option (Nat × Root) :=
  firstHit newtonPoint rootAt z k

/-- The index into `COLORS` after a search. -/
def colorAfter (found : Option (Nat × Root)) : Nat :=
  found.elim 0 fun hit => hit.2.colorIndex

/-- The `alpha` after `k` iterations, with the outcome of the search. -/
def alphaAfter (k : Nat) (found : Option (Nat × Root)) : Nat :=
  min (found.elim (k - 1) Prod.fst * 10) 100

/-- The colour of a pixel whose iteration starts at `z`. -/
def pixelColor (maxIter : Nat) (z : WithNaN F × WithNaN F) : Option Color :=
  colorOf (UInt8.ofNat (colorAfter (foundBy z maxIter)))
    (UInt8.ofNat (alphaAfter maxIter (foundBy z maxIter)))

/-- The index of a colour is within the table. -/
theorem exists_pixelColor (maxIter : Nat) (z : WithNaN F × WithNaN F) :
    ∃ color, pixelColor maxIter z = some color := by
  unfold pixelColor colorAfter
  cases foundBy z maxIter with
  | none => exact ⟨_, rfl⟩
  | some hit =>
    obtain ⟨n, r⟩ := hit
    cases r <;> exact ⟨_, rfl⟩

/-- `alpha` depends on the number of iterations only while nothing is found. -/
theorem alphaAfter_some (k k' : Nat) (hit : Nat × Root) :
    alphaAfter k (some hit) = alphaAfter k' (some hit) := rfl

/-- The state of the search at a loop that has stopped is its final state. -/
theorem foundBy_of_stop {z : WithNaN F × WithNaN F} {k maxIter : Nat} (hle : k ≤ maxIter)
    (hstop : (foundBy z k).isSome = true ∨ maxIter ≤ k) :
    foundBy z maxIter = foundBy z k ∧
      alphaAfter maxIter (foundBy z maxIter) = alphaAfter k (foundBy z k) := by
  rcases hstop with hsome | hend
  · obtain ⟨hit, hk⟩ := Option.isSome_iff_exists.mp hsome
    have hmax : foundBy z maxIter = some hit := firstHit_mono hle hk
    rw [hk, hmax]
    exact ⟨rfl, alphaAfter_some _ _ _⟩
  · obtain rfl : k = maxIter := by omega
    exact ⟨rfl, rfl⟩

/-! ## The scalar loop -/

/-- The conversion to `uint8_t` of a natural number. -/
theorem ofInt_natCast (n : Nat) : UInt8.ofInt (n : Int) = UInt8.ofNat n := by
  apply UInt8.toNat_inj.mp
  simp only [UInt8.ofInt, UInt8.toNat_ofNat']
  omega

/-- `converged` tests the four roots in turn. -/
theorem converged_eq {re im : WithNaN F} {iters : Int} (hfits : IntTy.int.Fits (iters * 10))
    (colorIndex : UInt8) :
    converged re im iters colorIndex =
      some ((rootAt (re, im)).isSome,
        (rootAt (re, im)).elim colorIndex (fun r => UInt8.ofNat r.colorIndex),
        UInt8.ofInt (min (iters * 10) 100)) := by
  have hone : isEqual re im (num 1) (num 0) = atRoot (re, im) .one := rfl
  have hnegOne : isEqual re im (num (-1)) (num 0) = atRoot (re, im) .negOne := rfl
  have hi : isEqual re im (num 0) (num 1) = atRoot (re, im) .i := rfl
  have hnegI : isEqual re im (num 0) (num (-1)) = atRoot (re, im) .negI := rfl
  simp only [converged, IntTy.result_of_fits _ hfits, Option.bind_eq_bind, Option.bind_some,
    hone, hnegOne, hi, hnegI, rootAt]
  split_ifs <;> rfl

/-- The assertion at the test of the scalar loop. -/
structure NewtonInv (z : WithNaN F × WithNaN F) (maxIter : Nat) (s : NewtonState F) :
    Prop where
  le : s.k ≤ maxIter
  point : (s.re, s.im) = newtonPoint^[s.k] z
  hasConverged : s.hasConverged = (foundBy z s.k).isSome
  colorIndex : s.colorIndex = UInt8.ofNat (colorAfter (foundBy z s.k))
  alpha : s.alpha = UInt8.ofNat (alphaAfter s.k (foundBy z s.k))

/-- An iteration of the scalar loop extends the search. -/
theorem newtonBody_spec {z : WithNaN F × WithNaN F} {maxIter : Nat}
    (hint : (maxIter : Int) * 10 ≤ IntTy.int.hi) {s : NewtonState F}
    (hinv : NewtonInv z maxIter s) (hcond : newtonCond maxIter s = true) :
    ∃ s', newtonBody s = some s' ∧ NewtonInv z maxIter s' ∧ s'.k = s.k + 1 := by
  simp only [newtonCond, Bool.and_eq_true, Bool.not_eq_true', decide_eq_true_eq] at hcond
  obtain ⟨hgoing, hlt⟩ := hcond
  have hlo : IntTy.int.lo ≤ 0 := IntTy.int.lo_nonpos
  have hnarrow : IntTy.int.narrow s.k = s.k := IntTy.int.narrow_of_fits ⟨by omega, by omega⟩
  have hfits : IntTy.int.Fits (s.k * 10 : Int) := ⟨by omega, by omega⟩
  have hnone : foundBy z s.k = none := by
    rw [hinv.hasConverged] at hgoing
    exact Option.isSome_eq_false_iff.mp hgoing |> Option.isNone_iff_eq_none.mp
  have hpoint : newtonPoint (s.re, s.im) = newtonPoint^[s.k + 1] z := by
    rw [hinv.point, Function.iterate_succ_apply']
  have hfound : foundBy z (s.k + 1) =
      (rootAt (newtonPoint (s.re, s.im))).map fun r => (s.k, r) := by
    rw [hpoint]
    exact firstHit_succ_of_none hnone
  have halpha : UInt8.ofInt (min ((s.k : Int) * 10) 100) = UInt8.ofNat (min (s.k * 10) 100) := by
    have hcast : min ((s.k : Int) * 10) 100 = ((min (s.k * 10) 100 : Nat) : Int) := by omega
    rw [hcast, ofInt_natCast]
  have hcolor : s.colorIndex = 0 := by
    rw [hinv.colorIndex, hnone]
    rfl
  have hbody : newtonBody s = some
      { re := (newtonPoint (s.re, s.im)).1
        im := (newtonPoint (s.re, s.im)).2
        colorIndex := (rootAt (newtonPoint (s.re, s.im))).elim s.colorIndex
          fun r => UInt8.ofNat r.colorIndex
        alpha := UInt8.ofNat (min (s.k * 10) 100)
        hasConverged := (rootAt (newtonPoint (s.re, s.im))).isSome
        k := s.k + 1 } := by
    simp only [newtonBody, hnarrow, converged_eq hfits, halpha]
    rfl
  refine ⟨_, hbody, ⟨hlt, hpoint, ?_, ?_, ?_⟩, rfl⟩
  all_goals
    simp only [hfound, hcolor]
    cases rootAt (newtonPoint (s.re, s.im)) <;> rfl

/-- The scalar program computes `pixelColor`. -/
theorem newtonLoop_spec (z : WithNaN F × WithNaN F) {maxIter fuel : Nat}
    (hint : (maxIter : Int) * 10 ≤ IntTy.int.hi) (hfuel : maxIter ≤ fuel) :
    ∃ s : NewtonState F, whileLoop (newtonCond maxIter) newtonBody fuel
        { re := z.1, im := z.2, colorIndex := 0, alpha := 0, hasConverged := false, k := 0 } =
          some s ∧ colorOf s.colorIndex s.alpha = pixelColor maxIter z := by
  have hstep : ∀ s, NewtonInv z maxIter s → newtonCond maxIter s = true → ∃ s',
      newtonBody s = some s' ∧ NewtonInv z maxIter s' ∧ maxIter - s'.k < maxIter - s.k := by
    intro s hinv hcond
    obtain ⟨s', hs', hinv', hk⟩ := newtonBody_spec hint hinv hcond
    have := hinv'.le
    exact ⟨s', hs', hinv', by omega⟩
  obtain ⟨s, hrun, hinv, hend⟩ :=
    whileLoop_total (NewtonInv z maxIter) (fun s => maxIter - s.k) hstep
      (s := { re := z.1, im := z.2, colorIndex := 0, alpha := 0, hasConverged := false, k := 0 })
      ⟨Nat.zero_le _, rfl, rfl, rfl, rfl⟩ hfuel
  have hstop : (foundBy z s.k).isSome = true ∨ maxIter ≤ s.k := by
    rw [← hinv.hasConverged]
    cases hconv : s.hasConverged with
    | true => exact .inl rfl
    | false =>
      right
      simpa [newtonCond, hconv] using hend
  obtain ⟨hfound, halpha⟩ := foundBy_of_stop hinv.le hstop
  refine ⟨s, hrun, ?_⟩
  rw [hinv.colorIndex, hinv.alpha, pixelColor, halpha, hfound]

/-- The colour of the pixel in row `i` and column `j`. -/
theorem newtonPixel_eq (g : Grid (WithNaN F)) {maxIter fuel : Nat}
    (hint : (maxIter : Int) * 10 ≤ IntTy.int.hi) (hfuel : maxIter ≤ fuel) (i j : Nat) :
    newtonPixel fuel g maxIter i j = pixelColor maxIter
      (g.xmin + num (i : F) * ((g.xmax - g.xmin) / num (g.nx : F)),
        g.ymin + num (j : F) * ((g.ymax - g.ymin) / num (g.ny : F))) := by
  obtain ⟨s, hrun, hcolor⟩ := newtonLoop_spec
    (g.xmin + num (i : F) * ((g.xmax - g.xmin) / num (g.nx : F)),
      g.ymin + num (j : F) * ((g.ymax - g.ymin) / num (g.ny : F))) hint hfuel
  rw [newtonPixel, ← hcolor]
  exact (congrArg (fun r => Option.bind r fun s : NewtonState F => colorOf s.colorIndex s.alpha)
    hrun)

/-! ## The vector loop -/

section Vector

variable [IsStrictOrderedRing F]

/-- A lane of `converged_v`: the assignments under the four masks, in order,
leave the colour of the only root whose test succeeds. -/
theorem convergedV_apply (re im : Lanes V (WithNaN F)) (iters colorIndex : Lanes V Nat)
    (i : Fin V) :
    (convergedV re im iters colorIndex).1 i = (rootAt (re i, im i)).isSome ∧
      (convergedV re im iters colorIndex).2.1 i =
        (rootAt (re i, im i)).elim (colorIndex i) Root.colorIndex ∧
      (convergedV re im iters colorIndex).2.2 i = min (iters i * 10) 100 := by
  have hone : isEqualV re im (splat (num 1)) (splat (num 0)) i = atRoot (re i, im i) .one := rfl
  have hnegOne : isEqualV re im (splat (num (-1))) (splat (num 0)) i =
      atRoot (re i, im i) .negOne := rfl
  have hi : isEqualV re im (splat (num 0)) (splat (num 1)) i = atRoot (re i, im i) .i := rfl
  have hnegI : isEqualV re im (splat (num 0)) (splat (num (-1))) i =
      atRoot (re i, im i) .negI := rfl
  refine ⟨?_, ?_, ?_⟩
  · simp only [convergedV, hone, hnegOne, hi, hnegI, rootAt]
    cases atRoot (re i, im i) .one <;> cases atRoot (re i, im i) .negOne <;>
      cases atRoot (re i, im i) .i <;> cases atRoot (re i, im i) .negI <;> rfl
  · simp only [convergedV, maskedAssign_apply, splat_apply, hone, hnegOne, hi, hnegI]
    cases hroot : rootAt (re i, im i) with
    | some r =>
      have hr := rootAt_eq_some_iff.mp hroot
      have hother : ∀ s, s ≠ r → atRoot (re i, im i) s = false := fun s =>
        atRoot_eq_false_of_ne hroot
      cases r <;> simp [hr, hother, Root.colorIndex]
    | none => simp [atRoot_eq_false_of_none hroot]
  · have halphas : (convergedV re im iters colorIndex).2.2 i =
        if decide (iters i * 10 > 100) then 100 else iters i * 10 := maskedAssign_apply _ _ _ i
    rw [halphas]
    simp only [decide_eq_true_eq]
    split <;> omega

/-- What the body of the vector loop leaves in a lane. -/
theorem newtonVBody_lane (s : NewtonVState V F) (i : Fin V) :
    (newtonVBody s).m i = (rootAt (newtonPoint (s.re i, s.im i))).isSome ∧
      (newtonVBody s).colorIndex i =
        (rootAt (newtonPoint (s.re i, s.im i))).elim (s.colorIndex i) Root.colorIndex ∧
      (newtonVBody s).alphas i = min (s.kv i * 10) 100 :=
  convergedV_apply _ _ s.kv s.colorIndex i

omit [IsStrictOrderedRing F] in
/-- The iteration count goes on in the lanes that have not converged. -/
theorem newtonVBody_kv (s : NewtonVState V F) (i : Fin V) :
    (newtonVBody s).kv i = if (newtonVBody s).m i = false then s.k + 1 else s.kv i := by
  simp [newtonVBody]

/-- The assertion at the test of the vector loop. -/
structure NewtonVInv (z : Lanes V (WithNaN F × WithNaN F)) (maxIter : Nat)
    (s : NewtonVState V F) : Prop where
  le : s.k ≤ maxIter
  point : ∀ i, (s.re i, s.im i) = newtonPoint^[s.k] (z i)
  mask : ∀ i, s.m i = (foundBy (z i) s.k).isSome
  iters : ∀ i, s.kv i = (foundBy (z i) s.k).elim s.k Prod.fst
  colorIndex : ∀ i, s.colorIndex i = colorAfter (foundBy (z i) s.k)
  alphas : ∀ i, s.alphas i = alphaAfter s.k (foundBy (z i) s.k)

/-- An iteration of the vector loop extends the search of every lane, whether
the lane has converged or not. -/
theorem newtonVBody_spec {z : Lanes V (WithNaN F × WithNaN F)} {maxIter : Nat}
    {s : NewtonVState V F} (hinv : NewtonVInv z maxIter s) (hlt : s.k < maxIter) :
    NewtonVInv z maxIter (newtonVBody s) := by
  have hpoint : ∀ i, newtonPoint (s.re i, s.im i) = newtonPoint^[s.k + 1] (z i) := by
    intro i
    rw [hinv.point, Function.iterate_succ_apply']
  have hfound : ∀ i,
      (newtonVBody s).m i = (foundBy (z i) (s.k + 1)).isSome ∧
      (newtonVBody s).kv i = (foundBy (z i) (s.k + 1)).elim (s.k + 1) Prod.fst ∧
      (newtonVBody s).colorIndex i = colorAfter (foundBy (z i) (s.k + 1)) ∧
      (newtonVBody s).alphas i = alphaAfter (s.k + 1) (foundBy (z i) (s.k + 1)) := by
    intro i
    obtain ⟨hm, hc, ha⟩ := newtonVBody_lane s i
    have hkvi := newtonVBody_kv s i
    rw [hm] at hkvi
    rw [hinv.iters] at ha hkvi
    rw [hinv.colorIndex] at hc
    rw [hm, hkvi, hc, ha, hpoint]
    cases hk : foundBy (z i) s.k with
    | some hit =>
      -- The lane converged earlier: its test goes on succeeding.
      obtain ⟨n, r⟩ := hit
      have hsucc : foundBy (z i) (s.k + 1) = some (n, r) := firstHit_succ_of_some hk
      rw [hsucc, rootAt_absorbing.hit_of_firstHit hsucc]
      exact ⟨rfl, rfl, rfl, rfl⟩
    | none =>
      have hsucc : foundBy (z i) (s.k + 1) =
          (rootAt (newtonPoint^[s.k + 1] (z i))).map fun r => (s.k, r) :=
        firstHit_succ_of_none hk
      rw [hsucc]
      cases rootAt (newtonPoint^[s.k + 1] (z i)) <;> exact ⟨rfl, rfl, rfl, rfl⟩
  exact
    { le := hlt
      point := hpoint
      mask := fun i => (hfound i).1
      iters := fun i => (hfound i).2.1
      colorIndex := fun i => (hfound i).2.2.1
      alphas := fun i => (hfound i).2.2.2 }

/-- Each lane of the vector loop computes `pixelColor`. -/
theorem newtonVLoop_spec (re im : Lanes V (WithNaN F)) {maxIter fuel : Nat}
    (hfuel : maxIter ≤ fuel) :
    ∃ s, whileLoop (newtonVCond maxIter) (fun s => some (newtonVBody s)) fuel
        { re, im, kv := splat 0, colorIndex := splat 0, alphas := splat 0, m := splat false,
          k := 0 } = some s ∧
      ∀ i, colorOf (UInt8.ofNat (get s.colorIndex i)) (UInt8.ofNat (get s.alphas i)) =
        pixelColor maxIter (re i, im i) := by
  have hstep : ∀ s, NewtonVInv (fun i => (re i, im i)) maxIter s →
      newtonVCond maxIter s = true → ∃ s', some (newtonVBody s) = some s' ∧
        NewtonVInv (fun i => (re i, im i)) maxIter s' ∧ maxIter - s'.k < maxIter - s.k := by
    intro s hinv hcond
    have hlt : s.k < maxIter := by
      simp only [newtonVCond, Bool.and_eq_true, decide_eq_true_eq] at hcond
      exact hcond.2
    have hk : (newtonVBody s).k = s.k + 1 := rfl
    exact ⟨_, rfl, newtonVBody_spec hinv hlt, by omega⟩
  obtain ⟨s, hrun, hinv, hend⟩ :=
    whileLoop_total (NewtonVInv (fun i => (re i, im i)) maxIter) (fun s => maxIter - s.k) hstep
      (s := { re, im, kv := splat 0, colorIndex := splat 0, alphas := splat 0,
              m := splat false, k := 0 })
      ⟨Nat.zero_le _, fun _ => rfl, fun _ => rfl, fun _ => rfl, fun _ => rfl, fun _ => rfl⟩
      hfuel
  refine ⟨s, hrun, ?_⟩
  intro i
  have hstop : (foundBy (re i, im i) s.k).isSome = true ∨ maxIter ≤ s.k := by
    rw [← hinv.mask i]
    cases hfull : maskFull s.m with
    | true => exact .inl ((maskFull_iff _).mp hfull i)
    | false =>
      right
      simpa [newtonVCond, hfull] using hend
  obtain ⟨hfound, halpha⟩ := foundBy_of_stop hinv.le hstop
  rw [get_eq, get_eq, hinv.colorIndex, hinv.alphas, pixelColor, halpha, hfound]

/-- The tile of `newton_v` holds the colours of `newton`. -/
theorem newtonTile_eq (g : Grid (WithNaN F)) {maxIter fuel : Nat}
    (hint : (maxIter : Int) * 10 ≤ IntTy.int.hi) (hfuel : maxIter ≤ fuel) (i j : Nat) :
    ∃ v, newtonTile (V := V) fuel
        { xmin := splat g.xmin, xmax := splat g.xmax, nx := g.nx
          ymin := splat g.ymin, ymax := splat g.ymax, ny := g.ny } maxIter i j = some v ∧
      ∀ k : Fin V, newtonPixel fuel g maxIter i (j + k) = some (v k) := by
  have hpixel : ∀ k : Fin V, ∃ color,
      newtonPixel fuel g maxIter i (j + k) = some color := by
    intro k
    rw [newtonPixel_eq g hint hfuel]
    exact exists_pixelColor _ _
  choose v hv using hpixel
  refine ⟨v, ?_, hv⟩
  obtain ⟨s, hrun, hlanes⟩ := newtonVLoop_spec (V := V)
    (splat g.xmin + splat (num (i : F)) * ((splat g.xmax - splat g.xmin) / splat (num (g.nx : F))))
    (splat g.ymin + splat (num (j : F)) *
        ((splat g.ymax - splat g.ymin) / splat (num (g.ny : F))) +
      (fun k => num (iota k) : Lanes V (WithNaN F)) *
        ((splat g.ymax - splat g.ymin) / splat (num (g.ny : F)))) hfuel
  have hcolors : sequenceLanes (fun k => colorOf (UInt8.ofNat (get s.colorIndex k))
      (UInt8.ofNat (get s.alphas k))) = some v := sequenceLanes_eq_some fun k => by
    rw [hlanes, ← hv k, newtonPixel_eq g hint hfuel, column_add_num]
    simp only [Pi.add_apply, Pi.mul_apply, Pi.sub_apply, Pi.div_apply, splat_apply, iota_apply]
  simp only [newtonTile, hrun]
  exact hcolors

/-- For every grid and every number of lanes, whether or not the lanes of a tile
converge together, `newton_v` stores the colours of `newton`. -/
theorem newtonV_agrees (hV : 0 < V) (g : Grid (WithNaN F)) {maxIter : Nat}
    (hint : (maxIter : Int) * 10 ≤ IntTy.int.hi) {fuel : Nat} (hfuel : maxIter ≤ fuel)
    (init initV : Nat → Color) :
    ∃ image imageV, newton fuel g maxIter (Store.fresh init) = some image ∧
      benchNewtonV V fuel g maxIter (Store.fresh initV) = some imageV ∧
      ∀ p, p < g.nx * g.ny →
        newtonPixel fuel g maxIter (p / g.ny) (p % g.ny) = some (image.cell p) ∧
        imageV.cell p = image.cell p := by
  obtain ⟨image, imageV, hrun, hrunV, hcells, -⟩ :=
    sweep_eq_sweepCells hV g.nx g.ny _ (newtonPixel fuel g maxIter)
      (fun i j _ _ => newtonTile_eq (V := V) g hint hfuel i j) init initV
  exact ⟨image, imageV, hrun, hrunV, hcells⟩

end Vector

/-- Two lanes on a row of two pixels: one ends black, the other at a root. -/
theorem newtonV_agrees_two :
    ∃ image imageV,
      newton 3 (⟨num 0, num 1, 1, num 0, num 2, 2⟩ : Grid (WithNaN Rat)) 3
        (Store.fresh fun _ => ⟨0, 0, 0, 0⟩) = some image ∧
      benchNewtonV 2 3 (⟨num 0, num 1, 1, num 0, num 2, 2⟩ : Grid (WithNaN Rat)) 3
        (Store.fresh fun _ => ⟨0, 0, 0, 0⟩) = some imageV ∧
      imageV.cell 0 = image.cell 0 ∧ imageV.cell 1 = image.cell 1 := by
  obtain ⟨image, imageV, hrun, hrunV, hcells⟩ :=
    newtonV_agrees (V := 2) (by decide)
      (⟨num 0, num 1, 1, num 0, num 2, 2⟩ : Grid (WithNaN Rat))
      (show ((3 : Nat) : Int) * 10 ≤ IntTy.int.hi by decide) (Nat.le_refl 3)
      (fun _ => ⟨0, 0, 0, 0⟩) (fun _ => ⟨0, 0, 0, 0⟩)
  exact ⟨image, imageV, hrun, hrunV, (hcells 0 (by decide)).2, (hcells 1 (by decide)).2⟩

end VecCore.Bench
