/-
  Backend/ScalarWrapper.lean --- integer expressions in the ScalarWrapper and in
  the Scalar backend.

  `WrappedScalar<T>` converts the result of every operator back to `T`; plain
  scalars keep the promoted type up to the final store.  The two are the same for
  types that are not promoted.  For narrower types they agree modulo the size of
  the type, which division, remainder and comparison do not respect.
-/
import VecCore.Foundation.CInt

set_option autoImplicit false

namespace VecCore

open VecCore.Foundation

variable {t : IntTy}

/-- Expressions over variables and constants of an integer type. -/
inductive IntExpr (t : IntTy) where
  | var (x : Nat)
  | const (c : t.Value)
  | op (o : IntTy.Op) (a b : IntExpr t)

/-! ## The two evaluations -/

/-- `WrappedScalar<T>`. -/
structure WrappedScalar (t : IntTy) where
  fVal : t.Value

/-- `operator OP`: the operation in the promoted type, converted to `T` by the
constructor. -/
def WrappedScalar.operator (o : IntTy.Op) (x y : WrappedScalar t) :
    Option (WrappedScalar t) :=
  (t.promoted.arith o x.fVal y.fVal).map fun r => { fVal := t.convert r }

/-- Evaluation with the ScalarWrapper backend. -/
def IntExpr.evalWrapped (env : Nat → t.Value) : IntExpr t → Option (WrappedScalar t)
  | .var x => some { fVal := env x }
  | .const c => some { fVal := c }
  | .op o a b => do
    let x ← a.evalWrapped env
    let y ← b.evalWrapped env
    WrappedScalar.operator o x y

/-- Evaluation with the Scalar backend: a value of `T`, or of its promoted type. -/
def IntExpr.evalScalar (env : Nat → t.Value) : IntExpr t → Option Int
  | .var x => some (env x)
  | .const c => some c
  | .op o a b => do
    let x ← a.evalScalar env
    let y ← b.evalScalar env
    t.promoted.arith o x y

/-- The operands of divisions and remainders are values of `T`, in the evaluation
with the Scalar backend. -/
def IntExpr.DividesInRange (env : Nat → t.Value) : IntExpr t → Prop
  | .var _ => True
  | .const _ => True
  | .op o a b =>
      a.DividesInRange env ∧ b.DividesInRange env ∧
        (o = .div ∨ o = .mod → ∀ x y, a.evalScalar env = some x →
          b.evalScalar env = some y → t.Fits x ∧ t.Fits y)

/-! ## Agreement -/

/-- Without promotion, every value is one of `T`. -/
theorem evalScalar_fits (ht : 32 ≤ t.bits) {env : Nat → t.Value} {e : IntExpr t} {s : Int}
    (h : e.evalScalar env = some s) : t.Fits s := by
  cases e with
  | var x => exact Option.some_inj.mp h ▸ (env x).property
  | const c => exact Option.some_inj.mp h ▸ c.property
  | op o a b =>
    obtain ⟨x, -, hx⟩ := Option.bind_eq_some_iff.mp h
    obtain ⟨y, -, hy⟩ := Option.bind_eq_some_iff.mp hx
    exact t.promoted_of_le ht ▸ t.promoted.arith_fits hy

theorem dividesInRange_of_le (ht : 32 ≤ t.bits) (env : Nat → t.Value) (e : IntExpr t) :
    e.DividesInRange env := by
  induction e with
  | var x => trivial
  | const c => trivial
  | op o a b iha ihb =>
    exact ⟨iha, ihb, fun _ x y hx hy => ⟨evalScalar_fits ht hx, evalScalar_fits ht hy⟩⟩

/-- The wrapped value is the scalar value converted to `T`. -/
theorem evalWrapped_eq_narrow {env : Nat → t.Value} {e : IntExpr t}
    (hrange : e.DividesInRange env) {w : WrappedScalar t} {s : Int}
    (hw : e.evalWrapped env = some w) (hs : e.evalScalar env = some s) :
    (w.fVal : Int) = t.narrow s := by
  induction e generalizing w s with
  | var x =>
    obtain rfl := Option.some_inj.mp hw
    obtain rfl := Option.some_inj.mp hs
    exact (t.narrow_of_fits (env x).property).symm
  | const c =>
    obtain rfl := Option.some_inj.mp hw
    obtain rfl := Option.some_inj.mp hs
    exact (t.narrow_of_fits c.property).symm
  | op o a b iha ihb =>
    obtain ⟨hra, hrb, hdiv⟩ := hrange
    obtain ⟨x, hx, hw⟩ := Option.bind_eq_some_iff.mp hw
    obtain ⟨y, hy, hw⟩ := Option.bind_eq_some_iff.mp hw
    obtain ⟨r, hr, rfl⟩ := Option.map_eq_some_iff.mp hw
    obtain ⟨u, hu, hs⟩ := Option.bind_eq_some_iff.mp hs
    obtain ⟨v, hv, hs⟩ := Option.bind_eq_some_iff.mp hs
    have hxu := iha hra hx hu
    have hyv := ihb hrb hy hv
    apply t.narrow_eq_narrow_iff.mpr
    by_cases ho : o = .div ∨ o = .mod
    · -- The operands are in range, so that both evaluations have the same ones.
      obtain ⟨hfu, hfv⟩ := hdiv ho u v hu hv
      rw [hxu, hyv, t.narrow_of_fits hfu, t.narrow_of_fits hfv, hs] at hr
      rw [Option.some_inj.mp hr]
    · rw [not_or] at ho
      exact t.promoted.arith_modEq ho t.modulus_dvd_promoted (hxu ▸ t.narrow_modEq u)
        (hyv ▸ t.narrow_modEq v) hr hs

/-- Where both evaluations are defined, the two backends store the same value and
compare with the same result, for types that are not narrower than `int`, and for
narrower ones if the operands of divisions, remainders and the comparison are in
the range of the type. -/
theorem scalarWrapper_agrees (env : Nat → t.Value) :
    (∀ (e : IntExpr t) (w : WrappedScalar t) (s : Int),
      e.evalWrapped env = some w → e.evalScalar env = some s →
      32 ≤ t.bits ∨ e.DividesInRange env → (w.fVal : Int) = t.narrow s) ∧
    ∀ (op : CmpOp) (a b : IntExpr t) (wa wb : WrappedScalar t) (sa sb : Int),
      a.evalWrapped env = some wa → b.evalWrapped env = some wb →
      a.evalScalar env = some sa → b.evalScalar env = some sb →
      32 ≤ t.bits ∨ ((a.DividesInRange env ∧ b.DividesInRange env) ∧ t.Fits sa ∧ t.Fits sb) →
      op.holds wa.fVal wb.fVal = op.holds sa sb := by
  refine ⟨?_, ?_⟩
  · intro e w s hw hs hrange
    exact evalWrapped_eq_narrow
      (hrange.elim (fun ht => dividesInRange_of_le ht env e) id) hw hs
  · intro op a b wa wb sa sb hwa hwb hsa hsb hrange
    obtain ⟨⟨hra, hrb⟩, hfa, hfb⟩ : (a.DividesInRange env ∧ b.DividesInRange env) ∧
        t.Fits sa ∧ t.Fits sb := hrange.elim (fun ht =>
      ⟨⟨dividesInRange_of_le ht env a, dividesInRange_of_le ht env b⟩,
        evalScalar_fits ht hsa, evalScalar_fits ht hsb⟩) id
    rw [evalWrapped_eq_narrow hra hwa hsa, evalWrapped_eq_narrow hrb hwb hsb,
      t.narrow_of_fits hfa, t.narrow_of_fits hfb]

/-- `(x + x) / 2`. -/
def IntExpr.doubledAndHalved (t : IntTy) (two : t.Value) : IntExpr t :=
  .op .div (.op .add (.var 0) (.var 0)) (.const two)

/-- For `int16_t` and 100, both backends give 100. -/
theorem scalarWrapper_agrees_int16 :
    ∃ w s, (IntExpr.doubledAndHalved .int16 ⟨2, by decide⟩).evalWrapped
        (fun _ => ⟨100, by decide⟩) = some w ∧
      (IntExpr.doubledAndHalved .int16 ⟨2, by decide⟩).evalScalar
        (fun _ => ⟨100, by decide⟩) = some s ∧
      (w.fVal : Int) = IntTy.int16.narrow s :=
  ⟨{ fVal := ⟨100, by decide⟩ }, 100, rfl, rfl,
    (scalarWrapper_agrees (t := .int16) (fun _ => ⟨100, by decide⟩)).1
      (.doubledAndHalved .int16 ⟨2, by decide⟩) _ 100 rfl rfl
      (.inr ⟨⟨trivial, trivial, fun h => absurd h (by decide)⟩, trivial, fun _ x y hx hy => by
        obtain rfl := Option.some_inj.mp hx
        obtain rfl := Option.some_inj.mp hy
        exact ⟨by decide, by decide⟩⟩)⟩

/-- For `int16_t` and 20000, the ScalarWrapper backend gives -12768. -/
theorem scalarWrapper_differs_int16 :
    ∃ w s, (IntExpr.doubledAndHalved .int16 ⟨2, by decide⟩).evalWrapped
        (fun _ => ⟨20000, by decide⟩) = some w ∧
      (IntExpr.doubledAndHalved .int16 ⟨2, by decide⟩).evalScalar
        (fun _ => ⟨20000, by decide⟩) = some s ∧
      (w.fVal : Int) ≠ IntTy.int16.narrow s :=
  ⟨{ fVal := ⟨-12768, by decide⟩ }, 20000, rfl, rfl, by decide⟩

end VecCore
