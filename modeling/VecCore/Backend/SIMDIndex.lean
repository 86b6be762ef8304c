/-
  Backend/SIMDIndex.lean --- positions in the index vectors of std::simd.

  `Index<T>` is the vector type itself, so that a position is converted to the
  lane type and, for `float` and `double`, from there to an integer type.  The
  Scalar backend keeps positions in `size_t`.
-/
import VecCore.Backend.SIMD
import VecCore.Backend.Scalar
import VecCore.Foundation.RoundNat

set_option autoImplicit false

namespace VecCore.Simd

open VecCore.Foundation

variable {V : Nat} {α : Type}

/-- `Scalar<Index<T>>(p)`: modular for an integer type, the nearest representable
integer for a floating-point type. -/
def toIndexLane : ScalarType → Nat → Int
  | .integer t, p => t.narrow p
  | .float, p => roundNat FloatFormat.single.precision p
  | .double, p => roundNat FloatFormat.double.precision p

/-- `for (i = 0; i < VectorSize<T>(); ++i) Set(idx, i, Scalar<Index<T>>(p_i))`. -/
def indexVector (T : ScalarType) (p : Lanes V Nat) : Lanes V Int :=
  forLanes V (fun i idx => set idx i (toIndexLane T (p i))) (splat 0)

/-- The positions that a lane type keeps: those that it represents and, for a
floating-point type, that the integer type of the subscripts represents. -/
def KeepsPosition : ScalarType → Nat → Prop
  | .integer t, p => (p : Int) ≤ t.hi
  | .float, p => HasSignificand 24 p ∧ p < 2 ^ 31
  | .double, p => HasSignificand 53 p ∧ p < 2 ^ 63

/-- The subscript that comes out of the index lane of a position. -/
def subscript (T : ScalarType) (p : Nat) : Option Int :=
  match castType T with
  | some t => castTo t (toIndexLane T p)
  | none => some (toIndexLane T p)

theorem indexVector_apply (T : ScalarType) (p : Lanes V Nat) (i : Fin V) :
    indexVector T p i = toIndexLane T (p i) :=
  congrFun (forLanes_update (fun i _ => toIndexLane T (p i)) (splat 0)) i

theorem castTo_eq_some_iff {t : IntTy} {a b : Int} :
    castTo t a = some b ↔ a = b ∧ t.Fits b := by
  unfold castTo
  by_cases h : t.Fits a
  · rw [if_pos h, Option.some_inj]
    exact ⟨fun hab => ⟨hab, hab ▸ h⟩, fun hab => hab.1⟩
  · rw [if_neg h]
    exact iff_of_false (by simp) fun hab => h (hab.1 ▸ hab.2)

/-- The subscript is the position exactly for the positions that are kept. -/
theorem subscript_eq_iff (T : ScalarType) (p : Nat) :
    subscript T p = some (p : Int) ↔ KeepsPosition T p := by
  have hint : IntTy.int.Fits p ↔ p < 2 ^ 31 := by
    have hlo : IntTy.int.lo = -2 ^ 31 := rfl
    have hhi : IntTy.int.hi = 2 ^ 31 - 1 := rfl
    rw [IntTy.Fits, hlo, hhi]
    omega
  have hint64 : IntTy.int64.Fits p ↔ p < 2 ^ 63 := by
    have hlo : IntTy.int64.lo = -2 ^ 63 := rfl
    have hhi : IntTy.int64.hi = 2 ^ 63 - 1 := rfl
    rw [IntTy.Fits, hlo, hhi]
    omega
  cases T with
  | integer t =>
    refine (Option.some_inj (a := t.narrow p) (b := (p : Int))).trans ⟨?_, ?_⟩
    · intro h
      have hhi := (t.narrow_fits p).2
      rwa [h] at hhi
    · intro h
      exact t.narrow_of_fits ⟨t.lo_nonpos.trans (Int.natCast_nonneg p), h⟩
  | float =>
    refine castTo_eq_some_iff.trans ?_
    rw [hint, toIndexLane, Int.natCast_inj, roundNat_eq_self_iff]
    rfl
  | double =>
    refine castTo_eq_some_iff.trans ?_
    rw [hint64, toIndexLane, Int.natCast_inj, roundNat_eq_self_iff]
    rfl

/-- A kept position is an index that fits. -/
theorem indexFits_of_keepsPosition {T : ScalarType} {p : Nat} (h : KeepsPosition T p) :
    toIndexLane T p = p ∧ IndexFits T some (toIndexLane T p) := by
  have hsub := (subscript_eq_iff T p).mpr h
  unfold subscript at hsub
  cases ht : castType T with
  | none =>
    rw [ht] at hsub
    exact ⟨Option.some_inj.mp hsub, _, rfl, fun t h' => by simp [ht] at h'⟩
  | some t =>
    rw [ht] at hsub
    obtain ⟨hlane, hfits⟩ := castTo_eq_some_iff.mp hsub
    refine ⟨hlane, _, rfl, ?_⟩
    intro t' h'
    rw [ht, Option.some_inj] at h'
    exact h' ▸ hlane ▸ hfits

/-- For kept positions within the table, `Gather` reads and `Scatter` writes what
the Scalar backend does lane by lane. -/
theorem gather_scatter_eq_scalar [Zero α] (T : ScalarType) (table : Region α)
    (v : Lanes V α) (w : α) {p : Lanes V Nat} (hp : ∀ i, p i < table.size)
    (hkeep : ∀ i, KeepsPosition T (p i)) :
    (gather T table 0 some (indexVector T p) = some (fun i => table.cell (p i)) ∧
      ∀ i, Scalar.gatherInto w table (p i) = some (table.cell (p i))) ∧
    (scatter T v table 0 some (indexVector T p) = some { table with
        cell := forLanes V (fun i cell => Function.update cell (p i) (v i)) table.cell } ∧
      forLanes? V (fun i table => Scalar.scatter (v i) table (p i)) table =
        some { table with
          cell := forLanes V (fun i cell => Function.update cell (p i) (v i)) table.cell }) := by
  have hfits : ∀ i, IndexFits T some (indexVector T p i) := by
    intro i
    rw [indexVector_apply]
    exact (indexFits_of_keepsPosition (hkeep i)).2
  have hidx : ∀ i, ∃ a, some (indexVector T p i) = some a ∧ ((0 : Nat) : Int) + a = p i :=
    fun i => ⟨_, rfl, by
      rw [indexVector_apply, (indexFits_of_keepsPosition (hkeep i)).1, Nat.cast_zero, zero_add]⟩
  refine ⟨⟨?_, fun i => Scalar.gatherInto_eq w (hp i)⟩, ?_, ?_⟩
  · rw [gather, gatherInto_eq_generic _ _ _ hfits, gatherInto_eq _ hidx hp]
  · rw [scatter_eq_generic _ _ _ hfits, scatter_eq _ hidx hp]
  · exact forLanes?_write_eq v p fun i r hr => Scalar.scatter_eq (v i) (hr ▸ hp i)

/-- A table of `uint16_t`: 1 from cell 65535 on, and 0 before. -/
def lateOnes : Region Int := ⟨65537, fun a => if a < 65535 then 0 else 1⟩

/-- A `uint16_t` vector at the positions 3 and 65535 of the table. -/
theorem gather_scatter_eq_scalar_uint16 :
    gather (.integer .uint16) lateOnes 0 some
        (indexVector (.integer .uint16) fun i : Fin 2 => if i = 0 then 3 else 65535) =
      some fun i => if i = 0 then 0 else 1 := by
  have hkeep : ∀ i : Fin 2, KeepsPosition (.integer .uint16) (if i = 0 then 3 else 65535) :=
    fun i => by
      show ((if i = 0 then 3 else 65535 : Nat) : Int) ≤ 65535
      split <;> decide
  rw [(gather_scatter_eq_scalar (.integer .uint16) lateOnes (splat 0) 0
    (p := fun i : Fin 2 => if i = 0 then 3 else 65535) (by decide) hkeep).1.1]
  exact congrArg some (funext fun i => by split <;> rfl)

/-- Through the same vector, position 65536 is position 0. -/
theorem gather_uint16_wraps :
    gather (.integer .uint16) lateOnes 0 some
        (indexVector (.integer .uint16) (splat 65536 : Lanes 1 Nat)) ≠
      some fun _ => lateOnes.cell 65536 := by
  have hlane : ∀ i : Fin 1, indexVector (.integer .uint16) (splat 65536) i = 0 := by
    intro i
    rw [indexVector_apply, splat_apply]
    decide
  have hwrap : VecCore.gatherInto (splat 0) lateOnes 0 some
      (indexVector (.integer .uint16) (splat 65536 : Lanes 1 Nat)) = some fun _ => 0 :=
    gatherInto_eq _ (q := splat 0) (fun i => ⟨0, by rw [hlane], rfl⟩) (by decide)
  intro h
  exact absurd (congrFun (Option.some_inj.mp (hwrap.symm.trans h)) 0) (by decide)

end VecCore.Simd
