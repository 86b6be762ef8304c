/-
  Backend/ReduceAdd.lean --- sums of integer arrays, tile by tile.

  An array is summed by adding the Loads of its tiles into a vector and then
  reducing the vector with ReduceAdd.  Every `+=` is done in the promoted type
  and converted back, so that each partial sum wraps on its own; what is left is
  the sum of the elements modulo the size of the lane type, whatever the number
  of lanes and whatever the order of the elements.
-/
import VecCore.Backend.Implementation
import VecCore.Foundation.CInt
import VecCore.Foundation.Loop
import Mathlib.Algebra.BigOperators.Fin
import Mathlib.Algebra.BigOperators.ModEq

set_option autoImplicit false

namespace VecCore

open VecCore.Foundation

variable {t : IntTy} {V : Nat}

/-! ## The program -/

/-- `ReduceAdd`, for an integer lane type. -/
def reduceAddInt (v : Lanes V t.Value) : Option t.Value :=
  forLanes? V (fun i result => t.opAssign .add result (get v i)) ⟨0, t.fits_zero⟩

/-- `acc += v`, lane by lane. -/
def addAssign (acc v : Lanes V t.Value) : Option (Lanes V t.Value) :=
  sequenceLanes fun i => t.opAssign .add (acc i) (v i)

/-- `Load<T>(ptr)`. -/
def loadTile (V : Nat) (ptr : Nat → t.Value) (offset : Nat) : Lanes V t.Value :=
  load (splat ⟨0, t.fits_zero⟩) ptr offset

/-- `for (j = 0; j < n; j += VectorSize<T>()) acc += Load<T>(ptr + j)`, from zero. -/
def accumulate (V n : Nat) (ptr : Nat → t.Value) : Option (Lanes V t.Value) :=
  forLoop V n (fun j acc => addAssign acc (loadTile V ptr j)) 0 (splat ⟨0, t.fits_zero⟩)

/-- `ReduceAdd` of the accumulated vector. -/
def sumArray (V n : Nat) (ptr : Nat → t.Value) : Option t.Value :=
  (accumulate V n ptr).bind reduceAddInt

/-! ## One vector -/

theorem reduceAddInt_eq (ht : t.AddsModularly) (v : Lanes V t.Value) :
    reduceAddInt v = some (t.convert (∑ i, (v i : Int))) := by
  unfold reduceAddInt
  induction V with
  | zero =>
    have hzero : (⟨0, t.fits_zero⟩ : t.Value) = t.convert 0 :=
      Subtype.ext (t.narrow_of_fits t.fits_zero).symm
    simp only [forLanes?, Finset.univ_eq_empty, Finset.sum_empty, hzero]
  | succ V ih =>
    have hrest := ih fun i => v i.castSucc
    simp only [get_eq] at hrest ⊢
    rw [forLanes?, hrest, Option.bind_some, t.opAssign_add ht, Fin.sum_univ_castSucc]
    exact congrArg some (t.convert_eq_convert_iff.mpr ((t.narrow_modEq _).add_right _))

theorem addAssign_eq (ht : t.AddsModularly) (acc v : Lanes V t.Value) :
    addAssign acc v = some fun i => t.convert (acc i + v i) :=
  sequenceLanes_eq_some fun i => t.opAssign_add ht (acc i) (v i)

@[simp] theorem loadTile_apply (ptr : Nat → t.Value) (offset : Nat) (i : Fin V) :
    loadTile V ptr offset i = ptr (offset + i) := load_apply _ ptr offset i

/-! ## All tiles -/

/-- The sum up to the end of a tile. -/
theorem sum_range_tile (ptr : Nat → t.Value) (j : Nat) :
    ∑ k ∈ Finset.range (j + V), (ptr k : Int) =
      ∑ k ∈ Finset.range j, (ptr k : Int) + ∑ i, (loadTile V ptr j i : Int) := by
  simp only [loadTile_apply]
  rw [Finset.sum_range_add, Fin.sum_univ_eq_sum_range (fun i => (ptr (j + i) : Int))]

/-- The lanes of the accumulator together hold the sum of the elements read. -/
theorem accumulate_spec (ht : t.AddsModularly) (hV : 0 < V) {n : Nat} (hn : V ∣ n)
    (ptr : Nat → t.Value) :
    ∃ acc, accumulate V n ptr = some acc ∧
      ∑ i, (acc i : Int) ≡ ∑ k ∈ Finset.range n, (ptr k : Int) [ZMOD t.modulus] := by
  let Inv : Nat → Lanes V t.Value → Prop := fun j acc =>
    ∑ i, (acc i : Int) ≡ ∑ k ∈ Finset.range j, (ptr k : Int) [ZMOD t.modulus]
  have hbody : ∀ j acc, V ∣ j → j + V ≤ n → Inv j acc → ∃ acc',
      addAssign acc (loadTile V ptr j) = some acc' ∧ Inv (j + V) acc' := by
    intro j acc _ _ hinv
    refine ⟨_, addAssign_eq ht acc _, ?_⟩
    have hlanes : ∑ i, (t.convert (acc i + loadTile V ptr j i) : Int) ≡
        ∑ i, ((acc i : Int) + loadTile V ptr j i) [ZMOD t.modulus] :=
      Int.ModEq.sum fun i _ => t.narrow_modEq _
    have hsum := hinv.add_right (∑ i, (loadTile V ptr j i : Int))
    rw [← sum_range_tile, ← Finset.sum_add_distrib] at hsum
    exact hlanes.trans hsum
  have hinit : Inv 0 (splat ⟨0, t.fits_zero⟩) := by
    simp only [Inv, splat_apply, Finset.sum_const_zero, Finset.range_zero, Finset.sum_empty]
    exact Int.ModEq.refl 0
  exact forLoop_of_dvd Inv hV hn hbody hinit

/-- What `ReduceAdd` of the accumulated vector is: the modular sum of the array. -/
theorem sumArray_eq (ht : t.AddsModularly) (hV : 0 < V) {n : Nat} (hn : V ∣ n)
    (ptr : Nat → t.Value) :
    sumArray V n ptr = some (t.convert (∑ k ∈ Finset.range n, (ptr k : Int))) := by
  obtain ⟨acc, hacc, hsum⟩ := accumulate_spec ht hV hn ptr
  unfold sumArray
  rw [hacc, Option.bind_some, reduceAddInt_eq ht]
  exact congrArg some (t.convert_eq_convert_iff.mpr hsum)

/-- The tiles' own sums add up to the same. -/
theorem sum_tiles_modEq (ptr : Nat → t.Value) (q : Nat) :
    ∑ k ∈ Finset.range q, (t.convert (∑ i, (loadTile V ptr (V * k) i : Int)) : Int) ≡
      ∑ k ∈ Finset.range (V * q), (ptr k : Int) [ZMOD t.modulus] := by
  induction q with
  | zero => exact Int.ModEq.refl 0
  | succ q ih =>
    rw [Finset.sum_range_succ, Nat.mul_succ, sum_range_tile]
    exact ih.add (t.narrow_modEq _)

/-- A permutation of the array has the same sum. -/
theorem sumArray_perm (ht : t.AddsModularly) (hV : 0 < V) {n : Nat} (hn : V ∣ n)
    {ptr ptr' : Nat → t.Value} (σ : Equiv.Perm (Fin n))
    (hσ : ∀ k : Fin n, ptr' k = ptr (σ k)) : sumArray V n ptr' = sumArray V n ptr := by
  have hsum : ∑ k ∈ Finset.range n, (ptr' k : Int) = ∑ k ∈ Finset.range n, (ptr k : Int) := by
    rw [← Fin.sum_univ_eq_sum_range (fun k => (ptr' k : Int)),
      ← Fin.sum_univ_eq_sum_range (fun k => (ptr k : Int))]
    simp only [hσ]
    exact Equiv.sum_comp σ fun k => (ptr k : Int)
  rw [sumArray_eq ht hV hn, sumArray_eq ht hV hn, hsum]

/-- Unsigned types add modularly, with the exception of a width just below that of
`int`, which no type has; so does `int16_t`. -/
theorem addsModularly_of_unsigned (h : (t.signed = false ∧ t.bits ≠ 31) ∨ t = .int16) :
    t.AddsModularly := by
  rcases h with ⟨hs, hbits⟩ | rfl
  · rcases Nat.lt_or_ge (t.bits + 1) 32 with hlt | hge
    · exact .inl hlt
    · exact .inr ⟨by omega, hs⟩
  · exact .inl (by decide)

/-- The sum of an array through vectors: it is the modular sum of the elements, and
of the `ReduceAdd`s of the tiles, for every number of lanes that divides the length
and every order of the elements. -/
theorem sumArray_laws (ht : (t.signed = false ∧ t.bits ≠ 31) ∨ t = .int16) (hV : 0 < V)
    {n : Nat} (hn : V ∣ n) (ptr : Nat → t.Value) :
    sumArray V n ptr = some (t.convert (∑ k ∈ Finset.range n, (ptr k : Int))) ∧
    (∃ r : Nat → t.Value, (∀ k, reduceAddInt (loadTile V ptr (V * k)) = some (r k)) ∧
      sumArray V n ptr = some (t.convert (∑ k ∈ Finset.range (n / V), (r k : Int)))) ∧
    (∀ V', 0 < V' → V' ∣ n → sumArray V' n ptr = sumArray V n ptr) ∧
    ∀ (σ : Equiv.Perm (Fin n)) (ptr' : Nat → t.Value), (∀ k : Fin n, ptr' k = ptr (σ k)) →
      sumArray V n ptr' = sumArray V n ptr := by
  have ht := addsModularly_of_unsigned ht
  have hsum := sumArray_eq ht hV hn ptr
  refine ⟨hsum, ⟨_, fun k => reduceAddInt_eq ht _, ?_⟩, ?_, ?_⟩
  · have htiles := sum_tiles_modEq (V := V) ptr (n / V)
    rw [Nat.mul_div_cancel' hn] at htiles
    rw [hsum]
    exact congrArg some (t.convert_eq_convert_iff.mpr htiles.symm)
  · intro V' hV' hn'
    rw [hsum, sumArray_eq ht hV' hn']
  · intro σ ptr' hσ
    exact sumArray_perm ht hV hn σ hσ

/-- Four lanes of `int16_t` whose sum wraps, in two tiles. -/
theorem sumArray_laws_int16 :
    sumArray 2 4 (fun _ => (⟨32767, by decide⟩ : IntTy.int16.Value)) =
      some (IntTy.int16.convert (∑ _k ∈ Finset.range 4, 32767)) :=
  (sumArray_laws (.inr rfl) (by decide) (by decide) _).1

end VecCore
