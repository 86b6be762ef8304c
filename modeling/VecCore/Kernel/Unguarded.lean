/-
  Kernel/Unguarded.lean --- omitting `if (!MaskEmpty(m))`.

  The condition saves work and nothing else: a block that is only entered when
  some lane of `m` is set may be run in any case, if what it writes for later is
  written under masks that are empty when `m` is.
-/
import VecCore.Kernel.Tiles
import VecCore.Foundation.TileMap

set_option autoImplicit false

namespace VecCore.Kernel

open VecCore.Foundation

variable {α : Type}

/-! ## Blocks without conditions -/

/-- One block after the other. -/
def Block.append : Block α → Block α → Block α
  | .done, d => d
  | .assign k x e rest, d => .assign k x e (rest.append d)
  | .maskedAssign x m e rest, d => .maskedAssign x m e (rest.append d)
  | .ifNotEmpty m body rest, d => .ifNotEmpty m body (rest.append d)

/-- A block with its conditions omitted. -/
def Block.unguard : Block α → Block α
  | .done => .done
  | .assign k x e rest => .assign k x e rest.unguard
  | .maskedAssign x m e rest => .maskedAssign x m e rest.unguard
  | .ifNotEmpty _ body rest => body.unguard.append rest.unguard

theorem Block.live_append (c d : Block α) (after : Set Name) :
    (c.append d).live after = c.live (d.live after) := by
  induction c with
  | done => rfl
  | assign k x e rest ih => rw [Block.append, Block.live, Block.live, ih]
  | maskedAssign x m e rest ih => rw [Block.append, Block.live, Block.live, ih]
  | ifNotEmpty m body rest _ ih => rw [Block.append, Block.live, Block.live, ih]

/-- Without its conditions a block uses no variable more. -/
theorem Block.live_unguard (c : Block α) (after : Set Name) :
    c.unguard.live after ⊆ c.live after := by
  induction c generalizing after with
  | done => exact Set.Subset.rfl
  | assign k x e rest ih =>
    exact Set.union_subset_union_left _ (Set.sdiff_subset_sdiff_left (ih after))
  | maskedAssign x m e rest ih => exact Set.union_subset_union_left _ (ih after)
  | ifNotEmpty m body rest ihBody ih =>
    rw [Block.unguard, Block.live_append]
    refine ((body.unguard.live_mono (ih after)).trans (ihBody _)).trans ?_
    exact fun n hn => .inr (.inr hn)

theorem Block.exec_append (B : Backend α) (ops : ScalarOps α) (c d : Block α) (σ : Locals B) :
    (c.append d).exec B ops σ = d.exec B ops (c.exec B ops σ) := by
  induction c generalizing σ with
  | done => rfl
  | assign k x e rest ih => exact ih _
  | maskedAssign x m e rest ih => exact ih _
  | ifNotEmpty m body rest _ ih => exact ih _

/-! ## Runs that agree -/

section Agree

variable {B : Backend α} (ops : ScalarOps α)

/-- The same content in the variables `used`. -/
def SameOn (used : Set Name) (σ σ' : Locals B) : Prop := ∀ n ∈ used, σ n = σ' n

theorem SameOn.mono {used used' : Set Name} {σ σ' : Locals B} (h : SameOn used σ σ')
    (hsub : used' ⊆ used) : SameOn used' σ σ' := fun n hn => h n (hsub hn)

theorem SameOn.trans {used : Set Name} {σ σ' σ'' : Locals B} (h : SameOn used σ σ')
    (h' : SameOn used σ' σ'') : SameOn used σ σ'' := fun n hn => (h n hn).trans (h' n hn)

/-- The same content survives an update with one value. -/
theorem SameOn.update {used : Set Name} {σ σ' : Locals B} {n : Name}
    (h : SameOn (used \ {n}) σ σ') (v : B.Val n.kind) :
    SameOn used (Function.update σ n v) (Function.update σ' n v) := by
  intro n' hn'
  by_cases hne : n' = n
  · subst hne
    rw [Function.update_self, Function.update_self]
  · rw [Function.update_of_ne hne, Function.update_of_ne hne]
    exact h n' ⟨hn', hne⟩

/-- An expression depends on the variables it reads. -/
theorem eval_same {used : Set Name} {σ σ' : Locals B} {k : Kind} (e : Expr α k)
    (hreads : e.reads ⊆ used) (h : SameOn used σ σ') : e.eval B ops σ = e.eval B ops σ' := by
  induction e with
  | var k x => exact h ⟨k, x⟩ (hreads rfl)
  | const c => rfl
  | neg a iha => rw [Expr.eval, Expr.eval, iha hreads]
  | arith op a b iha ihb =>
    obtain ⟨ha, hb⟩ := Set.union_subset_iff.mp hreads
    rw [Expr.eval, Expr.eval, iha ha, ihb hb]
  | cmp op a b iha ihb =>
    obtain ⟨ha, hb⟩ := Set.union_subset_iff.mp hreads
    rw [Expr.eval, Expr.eval, iha ha, ihb hb]
  | unary f a iha => rw [Expr.eval, Expr.eval, iha hreads]
  | binary f a b iha ihb =>
    obtain ⟨ha, hb⟩ := Set.union_subset_iff.mp hreads
    rw [Expr.eval, Expr.eval, iha ha, ihb hb]
  | blend m a b ihm iha ihb =>
    obtain ⟨hm, hab⟩ := Set.union_subset_iff.mp hreads
    obtain ⟨ha, hb⟩ := Set.union_subset_iff.mp hab
    rw [Expr.eval, Expr.eval, ihm hm, iha ha, ihb hb]
  | not m ihm => rw [Expr.eval, Expr.eval, ihm hreads]
  | and m₁ m₂ ih₁ ih₂ =>
    obtain ⟨h1, h2⟩ := Set.union_subset_iff.mp hreads
    rw [Expr.eval, Expr.eval, ih₁ h1, ih₂ h2]
  | or m₁ m₂ ih₁ ih₂ =>
    obtain ⟨h1, h2⟩ := Set.union_subset_iff.mp hreads
    rw [Expr.eval, Expr.eval, ih₁ h1, ih₂ h2]

/-! ## The condition on guarded blocks -/

/-- Under an empty mask `MaskedAssign` does nothing. -/
def Backend.EmptyMaskIdle (B : Backend α) : Prop :=
  ∀ dst m src, B.maskEmpty m = true → B.maskedAssign dst m src = dst

theorem vectorBackend_emptyMaskIdle (V : Nat) [Zero α] : (vectorBackend V α).EmptyMaskIdle := by
  intro dst m src hm
  funext i
  refine (maskedAssign_apply (α := α) dst m src i).trans (if_neg ?_)
  rw [(maskEmpty_iff (V := V) m).mp hm i]
  exact Bool.false_ne_true

theorem scalarBackend_emptyMaskIdle : (scalarBackend α).EmptyMaskIdle := by
  intro dst m src hm
  have hoff : m = false := by
    cases m with
    | false => rfl
    | true => exact absurd hm Bool.false_ne_true
  exact if_neg (hoff ▸ Bool.false_ne_true)

/-- Run from `σ`, every write to a variable of `used` is a `MaskedAssign` under an
empty mask. -/
def Idle (used : Set Name) : Block α → Locals B → Prop
  | .done, _ => True
  | .assign k x e rest, σ =>
      (⟨k, x⟩ : Name) ∉ used ∧ Idle used rest (afterAssign B ops σ k x e)
  | .maskedAssign x m e rest, σ =>
      ((⟨.vec, x⟩ : Name) ∈ used → B.maskEmpty (m.eval B ops σ) = true) ∧
        Idle used rest (afterMaskedAssign B ops σ x m e)
  | .ifNotEmpty m body rest, σ =>
      (B.maskEmpty (m.eval B ops σ) = false → Idle used body σ) ∧
        Idle used rest (afterGuarded B ops σ m (body.exec B ops))

/-- Run from `σ`, every guarded block whose guard is empty would change no variable
used after it; `after` are used after the whole. -/
def GuardsOptional (after : Set Name) : Block α → Locals B → Prop
  | .done, _ => True
  | .assign k x e rest, σ => GuardsOptional after rest (afterAssign B ops σ k x e)
  | .maskedAssign x m e rest, σ => GuardsOptional after rest (afterMaskedAssign B ops σ x m e)
  | .ifNotEmpty m body rest, σ =>
      ((B.maskEmpty (m.eval B ops σ) = true → Idle ops (rest.live after) body σ) ∧
        GuardsOptional (rest.live after) body σ) ∧
        GuardsOptional after rest (afterGuarded B ops σ m (body.exec B ops))

/-- Such a block keeps the variables used after it. -/
theorem exec_idle (hB : B.EmptyMaskIdle) {used : Set Name} (c : Block α) (σ : Locals B)
    (h : Idle ops used c σ) : SameOn used (c.exec B ops σ) σ := by
  induction c generalizing σ with
  | done => exact fun _ _ => rfl
  | assign k x e rest ih =>
    obtain ⟨hx, hrest⟩ := h
    intro n hn
    refine (ih _ hrest n hn).trans ?_
    exact Function.update_of_ne (fun heq : n = ⟨k, x⟩ => hx (heq ▸ hn)) _ _
  | maskedAssign x m e rest ih =>
    obtain ⟨hm, hrest⟩ := h
    intro n hn
    refine (ih _ hrest n hn).trans ?_
    by_cases hne : n = ⟨.vec, x⟩
    · subst hne
      rw [afterMaskedAssign, Function.update_self, hB _ _ _ (hm hn)]
    · exact Function.update_of_ne hne _ _
  | ifNotEmpty m body rest ihBody ih =>
    obtain ⟨hbody, hrest⟩ := h
    intro n hn
    refine (ih _ hrest n hn).trans ?_
    cases hm : B.maskEmpty (m.eval B ops σ) with
    | true => rw [afterGuarded_of_empty B ops hm]
    | false =>
      rw [afterGuarded_of_not_empty B ops hm]
      exact ihBody σ (hbody hm) n hn

/-- A block and the block without its conditions leave the same in the variables used
after them. -/
theorem exec_unguard (hB : B.EmptyMaskIdle) {after : Set Name} (c : Block α)
    (σ σ' : Locals B) (h : SameOn (c.live after) σ σ') (hguard : GuardsOptional ops after c σ) :
    SameOn after (c.exec B ops σ) (c.unguard.exec B ops σ') := by
  induction c generalizing σ σ' after with
  | done => exact h
  | assign k x e rest ih =>
    have he := eval_same ops e Set.subset_union_right h
    refine ih _ _ ?_ hguard
    rw [afterAssign, afterAssign, ← he]
    exact (h.mono Set.subset_union_left).update _
  | maskedAssign x m e rest ih =>
    have hm := eval_same ops m (fun _ hn => .inr (.inl hn)) h
    have he := eval_same ops e (fun _ hn => .inr (.inr hn)) h
    refine ih _ _ ?_ hguard
    intro n hn
    have hlive : SameOn (rest.live after) σ σ' := h.mono Set.subset_union_left
    rw [afterMaskedAssign, afterMaskedAssign]
    by_cases hne : n = ⟨.vec, x⟩
    · subst hne
      rw [Function.update_self, Function.update_self, ← hm, ← he, hlive _ hn]
    · rw [Function.update_of_ne hne, Function.update_of_ne hne]
      exact hlive n hn
  | ifNotEmpty m body rest ihBody ih =>
    obtain ⟨⟨hidle, hbody⟩, hrest⟩ := hguard
    rw [Block.unguard, Block.exec_append]
    refine ih _ _ ?_ hrest
    have hrun : SameOn (rest.live after) (body.exec B ops σ) (body.unguard.exec B ops σ') :=
      ihBody σ σ' (h.mono fun _ hn => .inr (.inr hn)) hbody
    cases hm : B.maskEmpty (m.eval B ops σ) with
    | true =>
      rw [afterGuarded_of_empty B ops hm]
      exact SameOn.trans (fun n hn => (exec_idle ops hB body σ (hidle hm) n hn).symm) hrun
    | false =>
      rw [afterGuarded_of_not_empty B ops hm]
      exact hrun

end Agree

/-! ## Kernels -/

/-- A kernel with its conditions omitted. -/
def unguarded (K : Kernel α) : Kernel α where
  inputs := K.inputs
  body := K.body.unguard
  outputs := K.outputs
  initialised := (K.body.live_unguard _).trans K.initialised

theorem storeOutputs_same {B : Backend α} (outputs : List (Nat × Nat)) {σ σ' : Locals B}
    (h : SameOn (names outputs) σ σ') (j : Nat) (mem : Arrays α) :
    storeOutputs B σ j outputs mem = storeOutputs B σ' j outputs mem := by
  induction outputs generalizing mem with
  | nil => rfl
  | cons io outputs ih =>
    rw [storeOutputs, storeOutputs, h _ ⟨io, List.mem_cons_self, rfl⟩]
    exact ih (h.mono fun n ⟨io', hio', hn⟩ => ⟨io', List.mem_cons_of_mem _ hio', hn⟩) _

/-- Omitting the conditions changes no array, for any backend whose loads and stores stay
within the tile and whose `MaskedAssign` does nothing under an empty mask. -/
theorem run_unguarded {B : Backend α} (hlocal : B.Local) (hidle : B.EmptyMaskIdle)
    (ops : ScalarOps α) (hsize : 0 < B.size) (K : Kernel α) (garbage : Nat → Locals B)
    {N : Nat} (hdvd : B.size ∣ N) (mem : Arrays α)
    (hguard : ∀ j, B.size ∣ j → j < N → GuardsOptional ops (names K.outputs) K.body
      (loadInputs B mem j K.inputs (garbage j))) :
    ∃ result, run B ops K garbage N mem = some result ∧
      run B ops (unguarded K) garbage N mem = some result := by
  have htile : ∀ j, B.size ∣ j → j < N →
      runTile B ops (unguarded K) (garbage j) j mem = runTile B ops K (garbage j) j mem := by
    intro j hj hlt
    exact (storeOutputs_same K.outputs
      (exec_unguard ops hidle K.body _ _ (fun _ _ => rfl) (hguard j hj hlt)) j mem).symm
  have hrun := run_eq hlocal ops hsize K garbage hdvd mem
  have hrun' := run_eq hlocal ops hsize (unguarded K) garbage hdvd mem
  let result : Arrays α := fun a p =>
    runTile B ops K (garbage (p / B.size * B.size)) (p / B.size * B.size) mem a p
  refine ⟨doneBelow result mem N, hrun result ?_, hrun' result ?_⟩
  · intro j hj _ a p hle hlt
    simp only [result, tile_start hj hle hlt]
  · intro j hj hN a p hle hlt
    simp only [result, tile_start hj hle hlt]
    rw [htile j hj (by omega)]

/-- The condition of `Clamp` may be omitted. -/
theorem Clamp_guardsOptional {B : Backend Int} (σ : Locals B) :
    GuardsOptional intOps (names Clamp.outputs) Clamp.body σ :=
  ⟨⟨fun hempty => ⟨fun _ => hempty, trivial⟩, trivial⟩, trivial⟩

theorem run_unguarded_Clamp :
    ∃ result,
      run (vectorBackend 2 Int) intOps Clamp (fun _ => zeroLocals _ (splat false)) 4
        (fun _ p => (p : Int) - 2) = some result ∧
      run (vectorBackend 2 Int) intOps (unguarded Clamp) (fun _ => zeroLocals _ (splat false)) 4
        (fun _ p => (p : Int) - 2) = some result :=
  run_unguarded (vectorBackend_local 2) (vectorBackend_emptyMaskIdle 2) intOps (by decide) Clamp
    (fun _ => zeroLocals _ (splat false)) (by decide) (fun _ p => (p : Int) - 2)
    fun _ _ _ => Clamp_guardsOptional _

end VecCore.Kernel
