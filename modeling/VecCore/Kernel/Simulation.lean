/-
  Kernel/Simulation.lean --- a lane of a vector run is a scalar run.

  The two runs agree on the variables whose value is still used.  A block under
  `if (!MaskEmpty(m))` is run by every lane as soon as one lane of `m` is set;
  the lanes outside `m` still agree afterwards because the block writes the
  variables used after it only under masks contained in `m`.
-/
import VecCore.Kernel.Semantics

set_option autoImplicit false

namespace VecCore.Kernel

open VecCore.Foundation

variable {V : Nat} {α : Type} [Zero α] (ops : ScalarOps α)

/-! ## The condition on guarded blocks -/

/-- Run from `σ`, every write to a variable of `used` is a `MaskedAssign` under
a mask contained in `guard`. -/
def WritesUnder (guard : Mask V) (used : Set Name) :
    Block α → Locals (vectorBackend V α) → Prop
  | .done, _ => True
  | .assign k x e rest, σ =>
      (⟨k, x⟩ : Name) ∉ used ∧
        WritesUnder guard used rest (afterAssign (vectorBackend V α) ops σ k x e)
  | .maskedAssign x m e rest, σ =>
      ((⟨.vec, x⟩ : Name) ∈ used →
        ∀ i : Fin V, (m.eval (vectorBackend V α) ops σ : Mask V) i = true → guard i = true) ∧
        WritesUnder guard used rest (afterMaskedAssign (vectorBackend V α) ops σ x m e)
  | .ifNotEmpty m body rest, σ =>
      (maskEmpty (m.eval (vectorBackend V α) ops σ : Mask V) = false →
        WritesUnder guard used body σ) ∧
        WritesUnder guard used rest
          (afterGuarded (vectorBackend V α) ops σ m (body.exec (vectorBackend V α) ops))

/-- Run from `σ`, every guarded block that is entered writes the variables used
after it only under masks contained in its guard; `after` are used after the
whole. -/
def GuardsRespected (after : Set Name) : Block α → Locals (vectorBackend V α) → Prop
  | .done, _ => True
  | .assign k x e rest, σ =>
      GuardsRespected after rest (afterAssign (vectorBackend V α) ops σ k x e)
  | .maskedAssign x m e rest, σ =>
      GuardsRespected after rest (afterMaskedAssign (vectorBackend V α) ops σ x m e)
  | .ifNotEmpty m body rest, σ =>
      (maskEmpty (m.eval (vectorBackend V α) ops σ : Mask V) = false →
        WritesUnder ops (m.eval (vectorBackend V α) ops σ : Mask V) (rest.live after) body σ ∧
          GuardsRespected (rest.live after) body σ) ∧
        GuardsRespected after rest
          (afterGuarded (vectorBackend V α) ops σ m (body.exec (vectorBackend V α) ops))

/-! ## Lanes -/

/-- Lane `i` of a value. -/
def lane : (k : Kind) → (vectorBackend V α).Val k → Fin V → (scalarBackend α).Val k
  | .vec, v, i => v i
  | .mask, m, i => m i

/-- Lane `i` of the vector variables and the scalar variables agree on `used`. -/
def AgreeOn (used : Set Name) (i : Fin V) (σ : Locals (vectorBackend V α))
    (τ : Locals (scalarBackend α)) : Prop :=
  ∀ n ∈ used, lane n.kind (σ n) i = τ n

theorem AgreeOn.mono {used used' : Set Name} {i : Fin V} {σ : Locals (vectorBackend V α)}
    {τ : Locals (scalarBackend α)} (h : AgreeOn used i σ τ) (hsub : used' ⊆ used) :
    AgreeOn used' i σ τ := fun n hn => h n (hsub hn)

/-- Agreement survives an update with values that agree, if they are used. -/
theorem AgreeOn.update {used : Set Name} {i : Fin V} {σ : Locals (vectorBackend V α)}
    {τ : Locals (scalarBackend α)} {n : Name} (h : AgreeOn (used \ {n}) i σ τ)
    {v : (vectorBackend V α).Val n.kind} {s : (scalarBackend α).Val n.kind}
    (hv : n ∈ used → lane n.kind v i = s) :
    AgreeOn used i (Function.update σ n v) (Function.update τ n s) := by
  intro n' hn'
  by_cases hne : n' = n
  · subst hne
    rw [Function.update_self, Function.update_self]
    exact hv hn'
  · rw [Function.update_of_ne hne, Function.update_of_ne hne]
    exact h n' ⟨hn', hne⟩

/-- An expression computes in lane `i` what it computes on scalars. -/
theorem eval_lane {used : Set Name} {i : Fin V} {σ : Locals (vectorBackend V α)}
    {τ : Locals (scalarBackend α)} {k : Kind} (e : Expr α k) (hreads : e.reads ⊆ used)
    (h : AgreeOn used i σ τ) :
    lane k (e.eval (vectorBackend V α) ops σ) i = e.eval (scalarBackend α) ops τ := by
  induction e with
  | var k x => exact h ⟨k, x⟩ (hreads rfl)
  | const c => rfl
  | neg a iha =>
    exact congrArg ops.neg (iha hreads)
  | arith op a b iha ihb =>
    obtain ⟨ha, hb⟩ := Set.union_subset_iff.mp hreads
    exact congrArg₂ (ops.arith op) (iha ha) (ihb hb)
  | cmp op a b iha ihb =>
    obtain ⟨ha, hb⟩ := Set.union_subset_iff.mp hreads
    exact congrArg₂ (ops.cmp op) (iha ha) (ihb hb)
  | unary f a iha =>
    exact (mathUnary_apply (ops.unary f) _ i).trans (congrArg (ops.unary f) (iha hreads))
  | binary f a b iha ihb =>
    obtain ⟨ha, hb⟩ := Set.union_subset_iff.mp hreads
    exact (mathBinary_apply (ops.binary f) _ _ i).trans
      (congrArg₂ (ops.binary f) (iha ha) (ihb hb))
  | blend m a b ihm iha ihb =>
    obtain ⟨hm, hab⟩ := Set.union_subset_iff.mp hreads
    obtain ⟨ha, hb⟩ := Set.union_subset_iff.mp hab
    exact (blend_apply (α := α) _ _ _ i).trans
      (congr (congrArg₂ (Scalar.blend (α := α)) (ihm hm) (iha ha)) (ihb hb))
  | not m ihm => exact congrArg Bool.not (ihm hreads)
  | and m₁ m₂ ih₁ ih₂ =>
    obtain ⟨h1, h2⟩ := Set.union_subset_iff.mp hreads
    exact congrArg₂ Bool.and (ih₁ h1) (ih₂ h2)
  | or m₁ m₂ ih₁ ih₂ =>
    obtain ⟨h1, h2⟩ := Set.union_subset_iff.mp hreads
    exact congrArg₂ Bool.or (ih₁ h1) (ih₂ h2)

/-! ## Blocks -/

/-- A lane outside the guard keeps the variables used after the block. -/
theorem exec_frame {guard : Mask V} {used : Set Name} {i : Fin V} (hi : guard i = false)
    (c : Block α) (σ : Locals (vectorBackend V α)) (h : WritesUnder ops guard used c σ) :
    ∀ n ∈ used, lane n.kind (c.exec (vectorBackend V α) ops σ n) i = lane n.kind (σ n) i := by
  induction c generalizing σ with
  | done => exact fun _ _ => rfl
  | assign k x e rest ih =>
    obtain ⟨hx, hrest⟩ := h
    intro n hn
    refine (ih _ hrest n hn).trans ?_
    rw [afterAssign, Function.update_of_ne fun heq : n = ⟨k, x⟩ => hx (heq ▸ hn)]
  | maskedAssign x m e rest ih =>
    obtain ⟨hm, hrest⟩ := h
    intro n hn
    refine (ih _ hrest n hn).trans ?_
    by_cases hne : n = ⟨.vec, x⟩
    · subst hne
      have hoff : ¬ (m.eval (vectorBackend V α) ops σ : Mask V) i = true := fun hon =>
        absurd (hm hn i hon) (by simp [hi])
      rw [afterMaskedAssign, Function.update_self]
      exact (maskedAssign_apply (α := α) _ _ _ i).trans (if_neg hoff)
    · rw [afterMaskedAssign, Function.update_of_ne hne]
  | ifNotEmpty m body rest ihBody ih =>
    obtain ⟨hbody, hrest⟩ := h
    intro n hn
    refine (ih _ hrest n hn).trans ?_
    cases hm : (vectorBackend V α).maskEmpty (m.eval (vectorBackend V α) ops σ) with
    | true => rw [afterGuarded_of_empty _ ops hm]
    | false =>
      rw [afterGuarded_of_not_empty _ ops hm]
      exact ihBody σ (hbody hm) n hn

/-- A block computes in lane `i` what it computes on scalars. -/
theorem exec_lane {after : Set Name} {i : Fin V} (c : Block α)
    (σ : Locals (vectorBackend V α)) (τ : Locals (scalarBackend α))
    (h : AgreeOn (c.live after) i σ τ) (hguard : GuardsRespected ops after c σ) :
    AgreeOn after i (c.exec (vectorBackend V α) ops σ) (c.exec (scalarBackend α) ops τ) := by
  induction c generalizing σ τ after with
  | done => exact h
  | assign k x e rest ih =>
    have hval := eval_lane ops e Set.subset_union_right h
    exact ih _ _ ((h.mono Set.subset_union_left).update fun _ => hval) hguard
  | maskedAssign x m e rest ih =>
    have hm := eval_lane ops m (fun _ hn => .inr (.inl hn)) h
    have he := eval_lane ops e (fun _ hn => .inr (.inr hn)) h
    have hrest := h.mono (Set.subset_union_left (t := m.reads ∪ e.reads))
    refine ih _ _ ((hrest.mono Set.sdiff_subset).update ?_) hguard
    intro hused
    have hx := hrest _ hused
    calc lane .vec ((vectorBackend V α).maskedAssign _ _ _) i
        = Scalar.maskedAssign (lane .vec (σ ⟨.vec, x⟩) i)
            (lane .mask (m.eval (vectorBackend V α) ops σ) i)
            (lane .vec (e.eval (vectorBackend V α) ops σ) i) :=
          maskedAssign_apply (α := α) _ _ _ i
      _ = (scalarBackend α).maskedAssign (τ ⟨.vec, x⟩) (m.eval (scalarBackend α) ops τ)
            (e.eval (scalarBackend α) ops τ) := by
          rw [hx, hm, he]
          rfl
  | ifNotEmpty m body rest ihBody ih =>
    obtain ⟨hbody, hrestGuard⟩ := hguard
    have hm := eval_lane ops m (fun _ hn => .inr (.inl hn)) h
    have hrest : AgreeOn (rest.live after) i σ τ := h.mono Set.subset_union_left
    have hin : AgreeOn (body.live (rest.live after)) i σ τ :=
      h.mono fun _ hn => .inr (.inr hn)
    refine ih _ _ ?_ hrestGuard
    cases hempty : (vectorBackend V α).maskEmpty (m.eval (vectorBackend V α) ops σ) with
    | true =>
      -- No lane enters the block.
      have hoff : (m.eval (vectorBackend V α) ops σ : Mask V) i = false :=
        (maskEmpty_iff _).mp hempty i
      have hskip : (scalarBackend α).maskEmpty (m.eval (scalarBackend α) ops τ) = true := by
        rw [← hm]
        exact congrArg Bool.not hoff
      rw [afterGuarded_of_empty _ ops hempty, afterGuarded_of_empty _ ops hskip]
      exact hrest
    | false =>
      obtain ⟨hwrites, hinner⟩ := hbody hempty
      rw [afterGuarded_of_not_empty _ ops hempty]
      cases hlane : (m.eval (vectorBackend V α) ops σ : Mask V) i with
      | true =>
        have henter : (scalarBackend α).maskEmpty (m.eval (scalarBackend α) ops τ) = false := by
          rw [← hm]
          exact congrArg Bool.not hlane
        rw [afterGuarded_of_not_empty _ ops henter]
        exact ihBody σ τ hin hinner
      | false =>
        -- The lane runs the block without being in its guard.
        have hskip : (scalarBackend α).maskEmpty (m.eval (scalarBackend α) ops τ) = true := by
          rw [← hm]
          exact congrArg Bool.not hlane
        rw [afterGuarded_of_empty _ ops hskip]
        exact fun n hn => (exec_frame ops hlane body σ hwrites n hn).trans (hrest n hn)

end VecCore.Kernel
