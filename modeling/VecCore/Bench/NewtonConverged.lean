/-
  Bench/NewtonConverged.lean --- what `converged` has answered, it goes on
  answering.

  `newton` stops at the first iterate its test accepts; `newton_v` does not, and
  tests the iterates of a lane that has converged until its whole tile has.  It
  relies on the test: an accepted point is moved to a point that is accepted for
  the same root, and no other root would have accepted it.
-/
import VecCore.Bench.NewtonAgreement
import Mathlib.Data.List.Find

set_option autoImplicit false

namespace VecCore.Bench

open VecCore.Foundation
open VecCore.Foundation.WithNaN

variable {F : Type} {V : Nat} [Field F] [LinearOrder F]

/-! ## The tests in another order -/

/-- `converged` with its tests made in the given order. -/
def convergedIn (order : List Root) (re im : WithNaN F) (iters : Int) (colorIndex : UInt8) :
    Option (Bool × UInt8 × UInt8) := do
  let product ← IntTy.int.result (iters * 10)
  let alpha := UInt8.ofInt (min product 100)
  match order.find? (atRoot (re, im)) with
  | some r => some (true, UInt8.ofNat r.colorIndex, alpha)
  | none => some (false, colorIndex, alpha)

/-- `converged` is defined when its product is. -/
theorem fits_of_converged {re im : WithNaN F} {iters : Int} {colorIndex : UInt8}
    {out : Bool × UInt8 × UInt8} (h : converged re im iters colorIndex = some out) :
    IntTy.int.Fits (iters * 10) := by
  by_contra hfits
  rw [converged, IntTy.int.result_of_not_fits rfl hfits] at h
  cases h

/-- The colour `converged` returns is that of a root whose test succeeds. -/
theorem rootAt_of_converged {re im : WithNaN F} {iters : Int} {colorIndex q alpha : UInt8}
    (h : converged re im iters colorIndex = some (true, q, alpha)) :
    ∃ r, rootAt (re, im) = some r ∧ q = UInt8.ofNat r.colorIndex := by
  rw [converged_eq (fits_of_converged h), Option.some.injEq, Prod.mk.injEq, Prod.mk.injEq] at h
  obtain ⟨hsome, hcolor, -⟩ := h
  obtain ⟨r, hr⟩ := Option.isSome_iff_exists.mp hsome
  rw [hr] at hcolor
  exact ⟨r, hr, hcolor.symm⟩

/-- A root whose test succeeds gives its colour, whenever it is asked for. -/
theorem converged_of_rootAt {re im : WithNaN F} {r : Root} (hr : rootAt (re, im) = some r)
    {iters : Int} (hfits : IntTy.int.Fits (iters * 10)) (colorIndex : UInt8) :
    converged re im iters colorIndex =
      some (true, UInt8.ofNat r.colorIndex, UInt8.ofInt (min (iters * 10) 100)) := by
  rw [converged_eq hfits, hr]
  rfl

section Orbit

variable [IsStrictOrderedRing F]

/-- The order of the tests does not matter, as at most one of them succeeds. -/
theorem convergedIn_eq_converged {order : List Root} (horder : order.Perm Root.all)
    (re im : WithNaN F) (iters : Int) (colorIndex : UInt8) :
    convergedIn order re im iters colorIndex = converged re im iters colorIndex := by
  have hfind : order.find? (atRoot (re, im)) = rootAt (re, im) := by
    rw [rootAt_eq_find]
    exact List.find?_eq_find?_of_perm horder fun r hr s hs => atRoot_unique hr.2 hs.2
  by_cases hfits : IntTy.int.Fits (iters * 10)
  · rw [converged_eq hfits, convergedIn, IntTy.result_of_fits _ hfits, hfind]
    cases rootAt (re, im) <;> rfl
  · rw [converged, convergedIn, IntTy.int.result_of_not_fits rfl hfits]
    rfl

/-- The test of a root goes on succeeding along the orbit. -/
theorem rootAt_iterate {z : WithNaN F × WithNaN F} {r : Root} (h : rootAt z = some r) (n : Nat) :
    rootAt (newtonPoint^[n] z) = some r := by
  induction n with
  | zero => exact h
  | succ n ih =>
    rw [Function.iterate_succ_apply']
    exact rootAt_absorbing _ _ ih

/-- The update of a point at a root is defined. -/
theorem normSq_ne_zero_of_rootAt {z : WithNaN F × WithNaN F} {r : Root}
    (h : rootAt z = some r) : ∃ p : F × F, z = (num p.1, num p.2) ∧ normSq p ≠ 0 := by
  obtain ⟨p, hz, hp⟩ := atRoot_eq_true_iff.mp (rootAt_eq_some_iff.mp h)
  exact ⟨p, hz, (stableDisc_root r p hp).1⟩

/-- Once `converged` holds, every further iteration is defined and ends at a point at
which it holds with the same colour.  No point passes the tests of two roots, and the
tests could be made in any order. -/
theorem converged_stable :
    (∀ (re im : WithNaN F) (iters : Int) (colorIndex q alpha : UInt8),
      converged re im iters colorIndex = some (true, q, alpha) →
        ∀ n, ∃ p : F × F, newtonPoint^[n] (re, im) = (num p.1, num p.2) ∧ normSq p ≠ 0 ∧
          ∀ (iters' : Int) (colorIndex' : UInt8), IntTy.int.Fits (iters' * 10) →
            converged (num p.1) (num p.2) iters' colorIndex' =
              some (true, q, UInt8.ofInt (min (iters' * 10) 100))) ∧
      (∀ (z : WithNaN F × WithNaN F) (r s : Root),
        atRoot z r = true → atRoot z s = true → r = s) ∧
      ∀ order : List Root, order.Perm Root.all →
        ∀ (re im : WithNaN F) (iters : Int) (colorIndex : UInt8),
          convergedIn order re im iters colorIndex = converged re im iters colorIndex := by
  refine ⟨?_, fun z r s => atRoot_unique, fun order horder => convergedIn_eq_converged horder⟩
  intro re im iters colorIndex q alpha h n
  obtain ⟨r, hr, rfl⟩ := rootAt_of_converged h
  have hn := rootAt_iterate hr n
  obtain ⟨p, hp, hne⟩ := normSq_ne_zero_of_rootAt hn
  refine ⟨p, hp, hne, ?_⟩
  intro iters' colorIndex' hfits
  rw [hp] at hn
  exact converged_of_rootAt hn hfits colorIndex'

/-- From a point of the disc around 1. -/
theorem converged_stable_disc :
    converged (num (201 / 200 : Rat)) (num (1 / 200)) 3 0 = some (true, 1, 30) ∧
      ∀ n, ∃ p : Rat × Rat, newtonPoint^[n] (num (201 / 200), num (1 / 200)) =
          (num p.1, num p.2) ∧ normSq p ≠ 0 ∧
        ∀ (iters' : Int) (colorIndex' : UInt8), IntTy.int.Fits (iters' * 10) →
          converged (num p.1) (num p.2) iters' colorIndex' =
            some (true, 1, UInt8.ofInt (min (iters' * 10) 100)) := by
  have hdisc : converged (num (201 / 200 : Rat)) (num (1 / 200)) 3 0 = some (true, 1, 30) := by
    decide +kernel
  exact ⟨hdisc, converged_stable.1 _ _ 3 0 1 30 hdisc⟩

end Orbit

/-! ## The lanes that have converged -/

section Lanes

variable [IsStrictOrderedRing F]

/-- Lane `i` of the vector loop has converged to a root, and says so. -/
structure LaneAt (s : NewtonVState V F) (i : Fin V) (r : Root) : Prop where
  root : rootAt (s.re i, s.im i) = some r
  mask : s.m i = true
  colorIndex : s.colorIndex i = r.colorIndex

/-- A body that sets the mask of a lane leaves it at a root. -/
theorem laneAt_of_mask {s : NewtonVState V F} {i : Fin V} (h : (newtonVBody s).m i = true) :
    ∃ r, LaneAt (newtonVBody s) i r := by
  obtain ⟨hm, hc, -⟩ := newtonVBody_lane s i
  obtain ⟨r, hr⟩ := Option.isSome_iff_exists.mp (hm.symm.trans h)
  rw [hr] at hc
  exact ⟨r, hr, h, hc⟩

/-- A further body moves the lane, and changes nothing else in it. -/
theorem LaneAt.step {s : NewtonVState V F} {i : Fin V} {r : Root} (h : LaneAt s i r) :
    LaneAt (newtonVBody s) i r ∧ (newtonVBody s).kv i = s.kv i := by
  have hroot : rootAt (newtonPoint (s.re i, s.im i)) = some r := rootAt_absorbing _ _ h.root
  obtain ⟨hm, hc, -⟩ := newtonVBody_lane s i
  rw [hroot] at hm hc
  refine ⟨⟨hroot, hm, hc⟩, ?_⟩
  rw [newtonVBody_kv, if_neg]
  exact fun hoff => Bool.false_ne_true (hoff.symm.trans hm)

/-- `newton_v` may go on with a lane that has converged: its mask, its colour and its
iteration count stay what they are. -/
theorem newtonVBody_iterate {s : NewtonVState V F} {i : Fin V}
    (h : (newtonVBody s).m i = true) (n : Nat) :
    (newtonVBody^[n] (newtonVBody s)).m i = true ∧
      (newtonVBody^[n] (newtonVBody s)).colorIndex i = (newtonVBody s).colorIndex i ∧
      (newtonVBody^[n] (newtonVBody s)).kv i = (newtonVBody s).kv i := by
  obtain ⟨r, hlane⟩ := laneAt_of_mask h
  have hrun : ∀ n, LaneAt (newtonVBody^[n] (newtonVBody s)) i r ∧
      (newtonVBody^[n] (newtonVBody s)).kv i = (newtonVBody s).kv i := by
    intro n
    induction n with
    | zero => exact ⟨hlane, rfl⟩
    | succ n ih =>
      obtain ⟨hat, hkv⟩ := ih.1.step
      rw [Function.iterate_succ_apply']
      exact ⟨hat, hkv.trans ih.2⟩
  obtain ⟨hat, hkv⟩ := hrun n
  exact ⟨hat.mask, hat.colorIndex.trans hlane.colorIndex.symm, hkv⟩

end Lanes

end VecCore.Bench
