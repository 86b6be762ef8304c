/-
  Foundation/Lanes.lean --- fixed-length vectors of lanes and loops over them.

  A vector of `V` lanes is a function on `Fin V`, so that the pointwise
  instances of functions are exactly lanewise arithmetic.  `forLanes` is the
  loop `for (i = 0; i < V; ++i)`; its main rule says what is left when every
  iteration writes one cell and no two iterations write the same one.
-/
import Mathlib.Logic.Function.Basic
import Mathlib.Order.Fin.Basic
import Mathlib.Tactic.Common

set_option autoImplicit false

namespace VecCore.Foundation

variable {σ τ α β γ ι : Type*}

/-- `V` lanes of type `α`. -/
abbrev Lanes (V : Nat) (α : Type*) := Fin V → α

/-- The vector holding `x` in every lane. -/
def splat {V : Nat} (x : α) : Lanes V α := fun _ => x

/-- A binary operation applied lane by lane. -/
def lanewise {V : Nat} (f : α → β → γ) (a : Lanes V α) (b : Lanes V β) : Lanes V γ :=
  fun i => f (a i) (b i)

@[simp] theorem splat_apply {V : Nat} (x : α) (i : Fin V) : splat x i = x := rfl

@[simp] theorem lanewise_apply {V : Nat} (f : α → β → γ) (a : Lanes V α)
    (b : Lanes V β) (i : Fin V) : lanewise f a b i = f (a i) (b i) := rfl

/-! ## Comparisons

The lanes of a comparison are read as propositions, so that rewriting its
operands leaves no decision procedure behind. -/

section Comparisons

variable [LT α] [DecidableLT α] {V : Nat}

/-- `a < b`, lane by lane. -/
def ltLanes (a b : Lanes V α) : Lanes V Bool := fun i => decide (a i < b i)

@[simp] theorem ltLanes_iff (a b : Lanes V α) (i : Fin V) :
    ltLanes a b i = true ↔ a i < b i := decide_eq_true_iff

@[simp] theorem ltLanes_eq_false_iff (a b : Lanes V α) (i : Fin V) :
    ltLanes a b i = false ↔ ¬ a i < b i := decide_eq_false_iff_not

end Comparisons

section Comparisons

variable [LE α] [DecidableLE α] {V : Nat}

/-- `a >= b`, lane by lane. -/
def geLanes (a b : Lanes V α) : Lanes V Bool := fun i => decide (a i ≥ b i)

@[simp] theorem geLanes_iff (a b : Lanes V α) (i : Fin V) :
    geLanes a b i = true ↔ b i ≤ a i := decide_eq_true_iff

@[simp] theorem geLanes_eq_false_iff (a b : Lanes V α) (i : Fin V) :
    geLanes a b i = false ↔ ¬ b i ≤ a i := decide_eq_false_iff_not

end Comparisons

/-! ## Loops over the lanes -/

/-- `for (i = 0; i < V; ++i) body(i)`. -/
def forLanes : (V : Nat) → (Fin V → σ → σ) → σ → σ
  | 0, _, s => s
  | V + 1, body, s => body (Fin.last V) (forLanes V (fun i => body i.castSucc) s)

/-- The same loop with a body that can fail. -/
def forLanes? : (V : Nat) → (Fin V → σ → Option σ) → σ → Option σ
  | 0, _, s => some s
  | V + 1, body, s =>
      (forLanes? V (fun i => body i.castSucc) s).bind (body (Fin.last V))

/-- `for (i = 0; i < V; ++i) if (!p(i)) return false; return true`. -/
def allLanes : (V : Nat) → (Fin V → Bool) → Bool
  | 0, _ => true
  | V + 1, p => if p 0 then allLanes V (fun i => p i.succ) else false

theorem allLanes_iff : ∀ (V : Nat) (p : Fin V → Bool),
    allLanes V p = true ↔ ∀ i, p i = true
  | 0, p => by simp [allLanes]
  | V + 1, p => by
      rw [Fin.forall_fin_succ, ← allLanes_iff V]
      cases h : p 0 <;> simp [allLanes, h]

/-- The vector of the values of `f`, if all of them are defined. -/
def sequenceLanes {V : Nat} (f : Fin V → Option α) : Option (Lanes V α) :=
  if h : ∀ i, (f i).isSome = true then some fun i => (f i).get (h i) else none

theorem sequenceLanes_eq_some {V : Nat} {f : Fin V → Option α} {v : Lanes V α}
    (h : ∀ i, f i = some (v i)) : sequenceLanes f = some v := by
  have hsome : ∀ i, (f i).isSome = true := fun i => by rw [h i]; rfl
  rw [sequenceLanes, dif_pos hsome]
  exact congrArg some (funext fun i => by simp [h i])

theorem sequenceLanes_eq_none {V : Nat} {f : Fin V → Option α} {i : Fin V}
    (h : f i = none) : sequenceLanes f = none :=
  dif_neg fun hsome => by simpa [h] using hsome i

/-- The invariant rule.  `Inv i s` is the assertion before iteration `i`. -/
theorem forLanes_invariant (Inv : Nat → σ → Prop) : ∀ (V : Nat) {body : Fin V → σ → σ},
    (∀ (i : Fin V) s, Inv i s → Inv (i + 1) (body i s)) →
    ∀ {s : σ}, Inv 0 s → Inv V (forLanes V body s)
  | 0, _, _, _, h0 => h0
  | V + 1, _, hbody, _, h0 =>
      hbody (Fin.last V) _ (forLanes_invariant Inv V (fun i s => hbody i.castSucc s) h0)

/-- Loops with related bodies end in related states. -/
theorem forLanes_rel (R : σ → τ → Prop) :
    ∀ (V : Nat) {body : Fin V → σ → σ} {body' : Fin V → τ → τ},
      (∀ i s t, R s t → R (body i s) (body' i t)) →
      ∀ {s : σ} {t : τ}, R s t → R (forLanes V body s) (forLanes V body' t)
  | 0, _, _, _, _, _, h0 => h0
  | V + 1, _, _, hbody, _, _, h0 =>
      hbody _ _ _ (forLanes_rel R V (fun i s t => hbody i.castSucc s t) h0)

/-- A loop whose bodies do not fail under an invariant is the loop of the results. -/
theorem forLanes?_eq_some (Inv : σ → Prop) : ∀ (V : Nat) {body? : Fin V → σ → Option σ}
    {body : Fin V → σ → σ},
    (∀ i s, Inv s → body? i s = some (body i s) ∧ Inv (body i s)) →
    ∀ {s : σ}, Inv s →
      forLanes? V body? s = some (forLanes V body s) ∧ Inv (forLanes V body s)
  | 0, _, _, _, _, h0 => ⟨rfl, h0⟩
  | V + 1, _, _, hbody, _, h0 => by
      obtain ⟨hrun, hinv⟩ := forLanes?_eq_some Inv V (fun i s => hbody i.castSucc s) h0
      obtain ⟨hlast, hend⟩ := hbody (Fin.last V) _ hinv
      exact ⟨by rw [forLanes?, hrun]; exact hlast, hend⟩

/-! ## Iterations that write one cell each -/

section Writes

variable [DecidableEq ι]

/-- Cells that no iteration writes keep their value. -/
theorem forLanes_update_of_ne {x : ι} : ∀ (V : Nat) {e : Fin V → ι}
    (g : Fin V → α → α) (w : ι → α), (∀ i, e i ≠ x) →
    forLanes V (fun i w => Function.update w (e i) (g i (w (e i)))) w x = w x
  | 0, _, _, _, _ => rfl
  | V + 1, e, g, w, hx => by
      rw [forLanes, Function.update_of_ne (hx _).symm]
      exact forLanes_update_of_ne V (fun i => g i.castSucc) w fun i => hx i.castSucc

/-- When the iterations write different cells, each cell ends with the value its
own iteration computes from the cell's first content. -/
theorem forLanes_update_apply : ∀ (V : Nat) {e : Fin V → ι}, Function.Injective e →
    ∀ (g : Fin V → α → α) (w : ι → α) (i : Fin V),
    forLanes V (fun i w => Function.update w (e i) (g i (w (e i)))) w (e i) =
      g i (w (e i))
  | 0, _, _, _, _, i => i.elim0
  | V + 1, e, he, g, w, i => by
      have hne : ∀ j : Fin V, e j.castSucc ≠ e (Fin.last V) := fun j h =>
        absurd (he h) (Fin.castSucc_lt_last j).ne
      rw [forLanes]
      cases i using Fin.lastCases with
      | last =>
        rw [Function.update_self]
        exact congrArg _ (forLanes_update_of_ne V (fun i => g i.castSucc) w hne)
      | cast j =>
        rw [Function.update_of_ne (hne j)]
        exact forLanes_update_apply V (fun a b h => Fin.castSucc_injective V (he h))
          (fun i => g i.castSucc) w j

/-- When several iterations write one cell, the last of them decides. -/
theorem forLanes_update_of_last : ∀ (V : Nat) {e : Fin V → ι} (v : Fin V → α) (w : ι → α)
    {i : Fin V}, (∀ j, e j = e i → j ≤ i) →
    forLanes V (fun i w => Function.update w (e i) (v i)) w (e i) = v i
  | 0, _, _, _, i, _ => i.elim0
  | V + 1, e, v, w, i, hlast => by
      rw [forLanes]
      cases i using Fin.lastCases with
      | last => exact Function.update_self _ _ _
      | cast j =>
        have hne : e j.castSucc ≠ e (Fin.last V) := fun h =>
          absurd (hlast (Fin.last V) h.symm) (Fin.castSucc_lt_last j).not_ge
        rw [Function.update_of_ne hne]
        exact forLanes_update_of_last V (fun i => v i.castSucc) w
          fun k hk => Fin.castSucc_le_castSucc_iff.mp (hlast k.castSucc hk)

end Writes

/-- The loop that writes the lanes of a vector to the cells from `base` on. -/
theorem forLanes_update_add {V : Nat} (base : Nat) (v : Lanes V α) (w : Nat → α)
    (i : Fin V) :
    forLanes V (fun i w => Function.update w (base + i) (v i)) w (base + i) = v i := by
  have hinj : Function.Injective fun i : Fin V => base + (i : Nat) := by
    intro a b h
    exact Fin.ext (Nat.add_left_cancel h)
  exact forLanes_update_apply V hinj (fun i _ => v i) w i

/-- It leaves the cells below and above them unchanged. -/
theorem forLanes_update_add_of_not_mem {V : Nat} (base : Nat) (v : Lanes V α) (w : Nat → α)
    {a : Nat} (ha : a < base ∨ base + V ≤ a) :
    forLanes V (fun i w => Function.update w (base + i) (v i)) w a = w a := by
  apply forLanes_update_of_ne V (e := fun i => base + (i : Nat)) (fun i _ => v i) w
  intro i
  have := i.isLt
  omega

/-- The loop that rewrites every lane of a vector in turn. -/
theorem forLanes_update {V : Nat} (g : Fin V → α → α) (v : Lanes V α) :
    forLanes V (fun i w => Function.update w i (g i (w i))) v = fun i => g i (v i) :=
  funext fun i => forLanes_update_apply V (e := id) Function.injective_id g v i

/-- The loop that overwrites the lanes under a mask. -/
theorem forLanes_update_if {V : Nat} (c : Fin V → Bool) (x v : Lanes V α) :
    forLanes V (fun i w => if c i then Function.update w i (x i) else w) v =
      fun i => if c i then x i else v i := by
  have hbody : (fun (i : Fin V) (w : Lanes V α) =>
        if c i then Function.update w i (x i) else w) =
      fun i w => Function.update w i (if c i then x i else w i) := by
    funext i w
    split
    · rfl
    · exact (Function.update_eq_self i w).symm
  rw [hbody]
  exact forLanes_update (fun i y => if c i then x i else y) v

end VecCore.Foundation
