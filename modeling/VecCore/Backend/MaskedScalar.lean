/-
  Backend/MaskedScalar.lean --- programs over variables and masks in the
  ScalarWrapper and in the Scalar backend.

  `v(m) OP= x` assigns under a mask.  Plain scalars have no such operator: there
  one writes `MaskedAssign(v, m, v OP x)`, which computes the new value whether
  or not the mask is set, and is undefined where that is.
-/
import VecCore.Backend.ScalarWrapper
import Mathlib.Data.Int.Bitwise

set_option autoImplicit false

namespace VecCore

open VecCore.Foundation

/-! ## Compound assignment operators -/

/-- The operators on bits. -/
inductive BitOp where
  | and | xor | or | shl | shr
  deriving DecidableEq, Repr

/-- An operation on the bits of two values of a type.  A shift by a negative number or by
the width is undefined, and so is shifting a negative number to the left, or a value
beyond the width. -/
def bitwise (t : IntTy) : BitOp → Int → Int → Option Int
  | .and, x, y => some (t.narrow (Int.land x y))
  | .xor, x, y => some (t.narrow (Int.xor x y))
  | .or, x, y => some (t.narrow (Int.lor x y))
  | .shl, x, y =>
      if y < 0 ∨ t.bits ≤ y then none
      else if t.signed ∧ (x < 0 ∨ t.modulus ≤ x * 2 ^ y.toNat) then none
      else some (t.narrow (x * 2 ^ y.toNat))
  | .shr, x, y => if y < 0 ∨ t.bits ≤ y then none else some (t.narrow (x / 2 ^ y.toNat))

/-- The operators that `MASK_ASSIGN_OPERATOR` is used for: `=`, the compound assignments
with the operators of WrappedScalar, and those on bits. -/
inductive AssignOp where
  | assign
  | arith (o : IntTy.Op)
  | bits (o : BitOp)

/-- The value of `x OP y` in the promoted type, and of `y` for `=`. -/
def AssignOp.value (t : IntTy) : AssignOp → Int → Int → Option Int
  | .assign, _, y => some y
  | .arith o, x, y => t.promoted.arith o x y
  | .bits o, x, y => bitwise t.promoted o x y

variable {t : IntTy}

/-! ## Programs -/

/-- `WrappedBool`. -/
structure WrappedBool where
  fBool : Bool

/-- `MaskedScalar::operator OP`: what it leaves in the referenced value. -/
def MaskedScalar.operator (o : AssignOp) (fRef : t.Value) (fMask : WrappedBool)
    (ref : t.Value) : Option t.Value :=
  if fMask.fBool then (o.value t fRef ref).map t.convert else some fRef

/-- Programs over numbered variables and masks. -/
inductive Prog (t : IntTy) where
  | skip
  | seq (p q : Prog t)
  /-- `x = e` -/
  | assign (x : Nat) (e : IntExpr t)
  /-- `m = a op b` -/
  | compare (m : Nat) (op : CmpOp) (a b : IntExpr t)
  /-- `MaskedAssign(x, m, x OP e)`, and `MaskedAssign(x, m, e)` for `=` -/
  | maskedAssign (x m : Nat) (o : AssignOp) (e : IntExpr t)
  /-- `x = Blend(m, a, b)` -/
  | blend (x m : Nat) (a b : IntExpr t)
  /-- `if (!MaskEmpty(m)) p` -/
  | ifNotEmpty (m : Nat) (p : Prog t)
  /-- `x(m) OP= e` -/
  | maskedOp (x m : Nat) (o : AssignOp) (e : IntExpr t)

/-- The variables of a program with the Scalar backend. -/
structure ScalarState (t : IntTy) where
  vars : Nat → t.Value
  masks : Nat → Bool

/-- The variables of a program with the ScalarWrapper backend. -/
structure WrappedState (t : IntTy) where
  vars : Nat → WrappedScalar t
  masks : Nat → WrappedBool

/-- Assigns a variable. -/
def ScalarState.set (s : ScalarState t) (x : Nat) (v : t.Value) : ScalarState t :=
  { s with vars := Function.update s.vars x v }

/-- Assigns a variable. -/
def WrappedState.set (s : WrappedState t) (x : Nat) (v : WrappedScalar t) : WrappedState t :=
  { s with vars := Function.update s.vars x v }

/-- The values of the variables. -/
def WrappedState.env (s : WrappedState t) (x : Nat) : t.Value := (s.vars x).fVal

/-- A program with the ScalarWrapper backend. -/
def Prog.runWrapped : Prog t → WrappedState t → Option (WrappedState t)
  | .skip, s => some s
  | .seq p q, s => (p.runWrapped s).bind q.runWrapped
  | .assign x e, s => (e.evalWrapped s.env).map (s.set x)
  | .compare m op a b, s => do
    let v ← a.evalWrapped s.env
    let w ← b.evalWrapped s.env
    some { s with masks := Function.update s.masks m { fBool := op.holds v.fVal w.fVal } }
  | .maskedAssign x m o e, s => do
    let v ← e.evalWrapped s.env
    let r ← o.value t (s.env x) v.fVal
    some (if (s.masks m).fBool then s.set x { fVal := t.convert r } else s)
  | .blend x m a b, s => do
    let v ← a.evalWrapped s.env
    let w ← b.evalWrapped s.env
    some (s.set x (if (s.masks m).fBool then v else w))
  | .ifNotEmpty m p, s => if (s.masks m).fBool then p.runWrapped s else some s
  | .maskedOp x m o e, s => do
    let v ← e.evalWrapped s.env
    let r ← MaskedScalar.operator o (s.env x) (s.masks m) v.fVal
    some (s.set x { fVal := r })

/-- A program with the Scalar backend, which has no `x(m)`. -/
def Prog.runScalar : Prog t → ScalarState t → Option (ScalarState t)
  | .skip, s => some s
  | .seq p q, s => (p.runScalar s).bind q.runScalar
  | .assign x e, s => (e.evalScalar s.vars).map fun v => s.set x (t.convert v)
  | .compare m op a b, s => do
    let v ← a.evalScalar s.vars
    let w ← b.evalScalar s.vars
    some { s with masks := Function.update s.masks m (op.holds v w) }
  | .maskedAssign x m o e, s => do
    let v ← e.evalScalar s.vars
    let r ← o.value t (s.vars x) v
    some (if s.masks m then s.set x (t.convert r) else s)
  | .blend x m a b, s => do
    let v ← a.evalScalar s.vars
    let w ← b.evalScalar s.vars
    some (s.set x (t.convert (if s.masks m then v else w)))
  | .ifNotEmpty m p, s => if s.masks m then p.runScalar s else some s
  | .maskedOp _ _ _ _, _ => none

/-- The program without `x(m)`, for any backend. -/
def Prog.ported : Prog t → Prog t
  | .seq p q => .seq p.ported q.ported
  | .ifNotEmpty m p => .ifNotEmpty m p.ported
  | .maskedOp x m o e => .maskedAssign x m o e
  | p => p

/-- The program does not use `x(m)`. -/
def Prog.Portable : Prog t → Prop
  | .seq p q => p.Portable ∧ q.Portable
  | .ifNotEmpty _ p => p.Portable
  | .maskedOp _ _ _ _ => False
  | _ => True

theorem Prog.portable_ported (p : Prog t) : p.ported.Portable := by
  induction p with
  | seq p q ihp ihq => exact ⟨ihp, ihq⟩
  | ifNotEmpty m p ih => exact ih
  | _ => trivial

/-! ## Without the wrappers -/

/-- The values in the wrappers. -/
def WrappedState.scalars (s : WrappedState t) : ScalarState t where
  vars := s.env
  masks m := (s.masks m).fBool

theorem WrappedState.scalars_set (s : WrappedState t) (x : Nat) (v : WrappedScalar t) :
    (s.set x v).scalars = s.scalars.set x v.fVal := by
  refine congrArg (fun vars => (⟨vars, _⟩ : ScalarState t)) (funext fun y => ?_)
  exact Function.apply_update (fun _ (w : WrappedScalar t) => w.fVal) s.vars x v y

/-- Without promotion, an expression has the same value with both backends, or none. -/
theorem evalWrapped_eq_evalScalar (ht : 32 ≤ t.bits) (env : Nat → t.Value) (e : IntExpr t) :
    (e.evalWrapped env).map (fun w => (w.fVal : Int)) = e.evalScalar env := by
  induction e with
  | var x => rfl
  | const c => rfl
  | op o a b iha ihb =>
    rw [IntExpr.evalWrapped, IntExpr.evalScalar, ← iha, ← ihb]
    cases a.evalWrapped env with
    | none => rfl
    | some x =>
      cases b.evalWrapped env with
      | none => rfl
      | some y =>
        show ((t.promoted.arith o x.fVal y.fVal).map _).map _ = t.promoted.arith o x.fVal y.fVal
        rw [t.promoted_of_le ht, Option.map_map]
        cases h : t.arith o x.fVal y.fVal with
        | none => rfl
        | some r => exact congrArg some (t.narrow_of_fits (t.arith_fits h))

/-- Continuations that agree on a value agree on an expression. -/
theorem bind_evalWrapped (ht : 32 ≤ t.bits) {env : Nat → t.Value} {e : IntExpr t}
    {f : WrappedScalar t → Option (WrappedState t)} {g : Int → Option (ScalarState t)}
    (h : ∀ w, (f w).map WrappedState.scalars = g w.fVal) :
    ((e.evalWrapped env).bind f).map WrappedState.scalars = (e.evalScalar env).bind g := by
  rw [← evalWrapped_eq_evalScalar ht, Option.map_bind, Option.bind_map]
  exact congrArg _ (funext h)

theorem convert_fVal (v : t.Value) : t.convert v = v :=
  Subtype.ext (t.narrow_of_fits v.property)

/-- A portable program runs with the wrappers as it does without. -/
theorem runWrapped_scalars (ht : 32 ≤ t.bits) {p : Prog t} (hp : p.Portable)
    (s : WrappedState t) :
    (p.runWrapped s).map WrappedState.scalars = p.runScalar s.scalars := by
  induction p generalizing s with
  | skip => rfl
  | seq p q ihp ihq =>
    rw [Prog.runWrapped, Prog.runScalar, ← ihp hp.1, Option.map_bind, Option.bind_map]
    exact congrArg _ (funext fun s' => ihq hp.2 s')
  | assign x e =>
    have hvars : s.scalars.vars = s.env := rfl
    rw [Prog.runWrapped, Prog.runScalar, hvars, ← evalWrapped_eq_evalScalar ht, Option.map_map,
      Option.map_map]
    refine congrArg (fun f => (e.evalWrapped s.env).map f) (funext fun w => ?_)
    rw [Function.comp_apply, Function.comp_apply, s.scalars_set, convert_fVal]
  | compare m op a b =>
    refine bind_evalWrapped ht fun v => bind_evalWrapped ht fun w => ?_
    rw [Option.map_some]
    refine congrArg (fun masks => some (⟨_, masks⟩ : ScalarState t)) (funext fun i => ?_)
    exact Function.apply_update (fun _ (w : WrappedBool) => w.fBool) s.masks m _ i
  | maskedAssign x m o e =>
    refine bind_evalWrapped ht fun v => ?_
    show (Option.bind _ _).map _ = Option.bind _ _
    rw [Option.map_bind]
    refine congrArg _ (funext fun r => ?_)
    rw [Function.comp_apply, Option.map_some, apply_ite WrappedState.scalars, s.scalars_set]
    rfl
  | blend x m a b =>
    refine bind_evalWrapped ht fun v => bind_evalWrapped ht fun w => ?_
    rw [Option.map_some, s.scalars_set]
    cases hm : (s.masks m).fBool <;> simp [WrappedState.scalars, hm, convert_fVal]
  | ifNotEmpty m p ih =>
    rw [Prog.runWrapped, Prog.runScalar, apply_ite (Option.map WrappedState.scalars), ih hp]
    rfl
  | maskedOp x m o e => exact absurd hp id

/-! ## Assignments under a mask -/

/-- Where the value is defined, an assignment under a mask is a masked assignment of it. -/
theorem operator_eq {o : AssignOp} {x y : t.Value} {r : Int} (h : o.value t x y = some r)
    (mask : WrappedBool) :
    MaskedScalar.operator o x mask y = some (if mask.fBool then t.convert r else x) := by
  rw [MaskedScalar.operator, h, Option.map_some]
  split <;> rfl

/-- Assigning a variable its own value. -/
theorem WrappedState.set_env (s : WrappedState t) (x : Nat) :
    s.set x { fVal := s.env x } = s :=
  congrArg (fun vars => (⟨vars, s.masks⟩ : WrappedState t)) (Function.update_eq_self x s.vars)

/-- Where the ported program is defined, the program does the same. -/
theorem runWrapped_of_ported {p : Prog t} {s s' : WrappedState t}
    (h : p.ported.runWrapped s = some s') : p.runWrapped s = some s' := by
  induction p generalizing s s' with
  | seq p q ihp ihq =>
    obtain ⟨u, hp, hq⟩ := Option.bind_eq_some_iff.mp h
    rw [Prog.runWrapped, ihp hp, Option.bind_some, ihq hq]
  | ifNotEmpty m p ih =>
    rw [Prog.ported, Prog.runWrapped] at h
    rw [Prog.runWrapped]
    split
    · rename_i hm
      rw [if_pos hm] at h
      exact ih h
    · rename_i hm
      rwa [if_neg hm] at h
  | maskedOp x m o e =>
    obtain ⟨v, hv, h⟩ := Option.bind_eq_some_iff.mp h
    obtain ⟨r, hr, h⟩ := Option.bind_eq_some_iff.mp h
    show ((e.evalWrapped s.env).bind fun v => _) = _
    rw [hv, Option.bind_some, operator_eq hr]
    refine Eq.trans ?_ h
    cases hm : (s.masks m).fBool with
    | true => simp
    | false => simp [s.set_env]
  | _ => exact h

/-- For types that are not promoted, a program with `x(m) OP= e` written as
`MaskedAssign(x, m, x OP e)` runs with both backends alike, defined or not; and where it
is defined, the program as it was leaves the same values. -/
theorem runWrapped_ported (ht : 32 ≤ t.bits) (p : Prog t) (s : WrappedState t) :
    (p.Portable → (p.runWrapped s).map WrappedState.scalars = p.runScalar s.scalars) ∧
      (p.ported.runWrapped s).map WrappedState.scalars = p.ported.runScalar s.scalars ∧
      ∀ s', p.ported.runScalar s.scalars = some s' →
        (p.runWrapped s).map WrappedState.scalars = some s' := by
  have hported := runWrapped_scalars ht p.portable_ported s
  refine ⟨fun hp => runWrapped_scalars ht hp s, hported, ?_⟩
  intro s' hs'
  rw [← hported] at hs'
  obtain ⟨w, hw, rfl⟩ := Option.map_eq_some_iff.mp hs'
  rw [runWrapped_of_ported hw, Option.map_some]

/-- `m = x != 0; y(m) /= x`. -/
def Prog.divideUnlessZero (t : IntTy) : Prog t :=
  .seq (.compare 0 .ne (.var 0) (.const ⟨0, t.fits_zero⟩)) (.maskedOp 1 0 (.arith .div) (.var 0))

/-- 7 divided by 2 with both backends. -/
theorem runWrapped_ported_int :
    ∃ s', (Prog.divideUnlessZero .int).ported.runScalar
        ⟨fun x => if x = 0 then ⟨2, by decide⟩ else ⟨7, by decide⟩, fun _ => false⟩ = some s' ∧
      ((Prog.divideUnlessZero .int).runWrapped
        ⟨fun x => { fVal := if x = 0 then ⟨2, by decide⟩ else ⟨7, by decide⟩ },
          fun _ => { fBool := false }⟩).map WrappedState.scalars = some s' :=
  ⟨_, rfl, (runWrapped_ported (t := .int) (by decide) (.divideUnlessZero .int)
    ⟨fun x => { fVal := if x = 0 then ⟨2, by decide⟩ else ⟨7, by decide⟩ },
      fun _ => { fBool := false }⟩).2.2 _ rfl⟩

/-- Divided by 0, the ported program is undefined. -/
example : ((Prog.divideUnlessZero .int).runWrapped
    ⟨fun _ => { fVal := ⟨0, by decide⟩ }, fun _ => { fBool := true }⟩).isSome = true ∧
    (Prog.divideUnlessZero .int).ported.runScalar
      ⟨fun _ => ⟨0, by decide⟩, fun _ => true⟩ = none :=
  ⟨rfl, rfl⟩

end VecCore
