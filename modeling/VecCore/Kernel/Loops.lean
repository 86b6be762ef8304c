/-
  Kernel/Loops.lean --- kernels with the do/while loops of the vector programs.

      do { body } while (k < max_iter && !MaskEmpty(m));

  With the Scalar backend the loop is an ordinary one.  With vectors it goes on
  for a lane that has left as long as any lane stays, so that the lane has to be
  protected by its mask: from then on the body writes the variables used after
  the loop only under the mask, and the mask stays off.
-/
import VecCore.Kernel.Simulation
import VecCore.Foundation.MaskedLoop

set_option autoImplicit false

namespace VecCore.Kernel

open VecCore.Foundation

variable {α : Type}

/-! ## Programs -/

/-- Sequences of statements and loops. -/
inductive Program (α : Type) where
  | done
  | block (c : Block α) (rest : Program α)
  /-- `k = 0; do { body } while (++k < bound && !MaskEmpty(m)); rest` -/
  | doWhile (bound : Nat) (body : Program α) (m : Expr α .mask) (rest : Program α)

/-- The variables whose value before a program is used, by the program or after
it.  What a loop uses in its later iterations is among what its first one uses or
its test and the rest do. -/
def Program.live : Program α → Set Name → Set Name
  | .done, after => after
  | .block c rest, after => c.live (rest.live after)
  | .doWhile _ body m rest, after => body.live (rest.live after ∪ m.reads)

section Exec

variable (B : Backend α) (ops : ScalarOps α)

/-- Whether a loop goes on: `!MaskEmpty(m)`. -/
def goesOn (m : Expr α .mask) (σ : Locals B) : Bool := !B.maskEmpty (m.eval B ops σ)

/-- The variables after a program. -/
def Program.exec : Program α → Locals B → Locals B
  | .done, σ => σ
  | .block c rest, σ => rest.exec (c.exec B ops σ)
  | .doWhile bound body m rest, σ =>
      rest.exec (doWhileBelow bound body.exec (goesOn B ops m) σ)

end Exec

/-! ## Variables used later -/

/-- What more is used after a block adds nothing else to what is used before it. -/
theorem Block.live_union (c : Block α) (s t : Set Name) : c.live (s ∪ t) ⊆ c.live s ∪ t := by
  induction c generalizing s with
  | done => exact Set.Subset.rfl
  | assign k x e rest ih =>
    rintro n (⟨hn, hne⟩ | hn)
    · exact (ih s hn).imp_left fun h => .inl ⟨h, hne⟩
    · exact .inl (.inr hn)
  | maskedAssign x m e rest ih =>
    rintro n (hn | hn)
    · exact (ih s hn).imp_left .inl
    · exact .inl (.inr hn)
  | ifNotEmpty m body rest ihBody ih =>
    rintro n (hn | hn | hn)
    · exact (ih s hn).imp_left .inl
    · exact .inl (.inr (.inl hn))
    · exact (ihBody _ (body.live_mono (ih s) hn)).imp_left fun h => .inr (.inr h)

theorem Program.live_mono (P : Program α) {s t : Set Name} (h : s ⊆ t) :
    P.live s ⊆ P.live t := by
  induction P generalizing s t with
  | done => exact h
  | block c rest ih => exact c.live_mono (ih h)
  | doWhile bound body m rest ihBody ih =>
    exact ihBody (Set.union_subset_union_left _ (ih h))

theorem Program.live_union (P : Program α) (s t : Set Name) :
    P.live (s ∪ t) ⊆ P.live s ∪ t := by
  induction P generalizing s with
  | done => exact Set.Subset.rfl
  | block c rest ih => exact (c.live_mono (ih s)).trans (c.live_union _ t)
  | doWhile bound body m rest ihBody ih =>
    have hafter : rest.live (s ∪ t) ∪ m.reads ⊆ rest.live s ∪ m.reads ∪ t := by
      rintro n (hn | hn)
      · exact (ih s hn).imp_left .inl
      · exact .inl (.inr hn)
    exact (body.live_mono hafter).trans (ihBody _)

/-- What the rest and the next iteration use after the body is what they use before it. -/
theorem Program.live_loop (body : Program α) (s : Set Name) :
    body.live (s ∪ body.live s) = body.live s :=
  Set.Subset.antisymm ((body.live_union s _).trans (Set.union_self _).subset)
    (body.live_mono Set.subset_union_left)

/-! ## The condition on loops -/

section Vector

variable {V : Nat} [Zero α] (ops : ScalarOps α)

/-- The value of a mask in the vector variables. -/
def maskOf (m : Expr α .mask) (σ : Locals (vectorBackend V α)) : Mask V :=
  m.eval (vectorBackend V α) ops σ

/-- Run from `σ`, every write of the program to a variable of `used` is a
`MaskedAssign` under a mask contained in `guard`. -/
def Program.Frames (guard : Mask V) (used : Set Name) :
    Program α → Locals (vectorBackend V α) → Prop
  | .done, _ => True
  | .block c rest, σ =>
      WritesUnder ops guard used c σ ∧
        Program.Frames guard used rest (c.exec (vectorBackend V α) ops σ)
  | .doWhile bound body m rest, σ =>
      (Program.Frames guard used body σ ∧
        AgainAll (body.exec (vectorBackend V α) ops) (goesOn (vectorBackend V α) ops m)
          (Program.Frames guard used body) (bound - 1)
          (body.exec (vectorBackend V α) ops σ)) ∧
        Program.Frames guard used rest
          (doWhileBelow bound (body.exec (vectorBackend V α) ops)
            (goesOn (vectorBackend V α) ops m) σ)

/-- An iteration from `σ` leaves the lanes outside the mask alone: it writes the
variables of `used` only under the mask, and the mask stays off in these lanes. -/
def Program.KeepsLeft (used : Set Name) (body : Program α) (m : Expr α .mask)
    (σ : Locals (vectorBackend V α)) : Prop :=
  body.Frames ops (maskOf ops m σ) used σ ∧
    ∀ i, maskOf ops m σ i = false →
      maskOf ops m (body.exec (vectorBackend V α) ops σ) i = false

/-- Run from `σ`, every guarded block respects its guard, and every iteration of a
loop after the first leaves the lanes that have left the loop alone. -/
def Program.Respected : Set Name → Program α → Locals (vectorBackend V α) → Prop
  | _, .done, _ => True
  | after, .block c rest, σ =>
      GuardsRespected ops (rest.live after) c σ ∧
        Program.Respected after rest (c.exec (vectorBackend V α) ops σ)
  | after, .doWhile bound body m rest, σ =>
      (Program.Respected (rest.live after ∪ m.reads ∪ body.live (rest.live after ∪ m.reads))
          body σ ∧
        AgainAll (body.exec (vectorBackend V α) ops) (goesOn (vectorBackend V α) ops m)
          (fun s => Program.KeepsLeft ops (rest.live after) body m s ∧
            Program.Respected
              (rest.live after ∪ m.reads ∪ body.live (rest.live after ∪ m.reads)) body s)
          (bound - 1) (body.exec (vectorBackend V α) ops σ)) ∧
        Program.Respected after rest
          (doWhileBelow bound (body.exec (vectorBackend V α) ops)
            (goesOn (vectorBackend V α) ops m) σ)

/-! ## Lanes -/

/-- Lane `i` has the same `used` variables in two states. -/
def SameLane (used : Set Name) (i : Fin V) (σ σ' : Locals (vectorBackend V α)) : Prop :=
  ∀ n ∈ used, lane n.kind (σ' n) i = lane n.kind (σ n) i

/-- A lane outside the guard keeps the variables used after the program. -/
theorem Program.exec_frame {guard : Mask V} {used : Set Name} {i : Fin V}
    (hi : guard i = false) (P : Program α) (σ : Locals (vectorBackend V α))
    (h : P.Frames ops guard used σ) :
    SameLane used i σ (P.exec (vectorBackend V α) ops σ) := by
  induction P generalizing σ with
  | done => exact fun _ _ => rfl
  | block c rest ih =>
    intro n hn
    exact (ih _ h.2 n hn).trans (Kernel.exec_frame ops hi c σ h.1 n hn)
  | doWhile bound body m rest ihBody ih =>
    obtain ⟨⟨hfirst, hagain⟩, hrest⟩ := h
    have hstep : ∀ s, body.Frames ops guard used s → SameLane used i σ s →
        SameLane used i σ (body.exec (vectorBackend V α) ops s) := by
      intro s hs hsame n hn
      exact (ihBody s hs n hn).trans (hsame n hn)
    have hloop := hagain.again (SameLane used i σ) hstep (ihBody σ hfirst)
    intro n hn
    exact (ih _ hrest n hn).trans (hloop n hn)

/-- A mask that is on somewhere keeps the vector loop going. -/
theorem goesOn_of_lane {m : Expr α .mask} {σ : Locals (vectorBackend V α)} {i : Fin V}
    (h : maskOf ops m σ i = true) : goesOn (vectorBackend V α) ops m σ = true := by
  have hne : maskEmpty (maskOf ops m σ) = false := by
    rw [Bool.eq_false_iff, ne_eq, maskEmpty_iff]
    intro hall
    exact absurd ((hall i).symm.trans h) Bool.false_ne_true
  exact congrArg Bool.not hne

/-- The scalar loop tests the lane's mask. -/
theorem goesOn_scalar {used : Set Name} {m : Expr α .mask} {i : Fin V}
    {σ : Locals (vectorBackend V α)} {τ : Locals (scalarBackend α)} (hreads : m.reads ⊆ used)
    (h : AgreeOn used i σ τ) : goesOn (scalarBackend α) ops m τ = maskOf ops m σ i := by
  have hm : maskOf ops m σ i = m.eval (scalarBackend α) ops τ := eval_lane ops m hreads h
  rw [hm]
  exact Bool.not_not _

/-- A program computes in lane `i` what it computes on scalars. -/
theorem Program.exec_lane {after : Set Name} {i : Fin V} (P : Program α)
    (σ : Locals (vectorBackend V α)) (τ : Locals (scalarBackend α))
    (h : AgreeOn (P.live after) i σ τ) (hmask : P.Respected ops after σ) :
    AgreeOn after i (P.exec (vectorBackend V α) ops σ) (P.exec (scalarBackend α) ops τ) := by
  induction P generalizing σ τ after with
  | done => exact h
  | block c rest ih => exact ih _ _ (Kernel.exec_lane ops c σ τ h hmask.1) hmask.2
  | doWhile bound body m rest ihBody ih =>
    obtain ⟨⟨hfirst, hagain⟩, hrest⟩ := hmask
    refine ih _ _ ?_ hrest
    have hbody : ∀ s t, body.Respected ops
        (rest.live after ∪ m.reads ∪ body.live (rest.live after ∪ m.reads)) s →
        AgreeOn (body.live (rest.live after ∪ m.reads)) i s t →
        AgreeOn (rest.live after ∪ m.reads ∪ body.live (rest.live after ∪ m.reads)) i
          (body.exec (vectorBackend V α) ops s) (body.exec (scalarBackend α) ops t) := by
      intro s t hs hagree
      exact ihBody s t (hagree.mono (body.live_loop _).subset) hs
    -- While the lane is in the loop, everything used later agrees; afterwards the
    -- variables of the rest do.
    exact again_simulates (fun s => maskOf ops m s i)
      (AgreeOn (rest.live after ∪ m.reads ∪ body.live (rest.live after ∪ m.reads)) i)
      (AgreeOn (rest.live after) i)
      (fun s t hagree => goesOn_scalar ops (fun n hn => .inl (.inr hn)) hagree)
      (fun s hon => goesOn_of_lane ops hon)
      (fun s t hagree => hagree.mono fun n hn => .inl (.inl hn))
      (fun s t hok hagree _ => hbody s t hok.2 (hagree.mono Set.subset_union_right))
      (fun s t hok hleft hoff =>
        ⟨fun n hn => (body.exec_frame ops hoff s hok.1.1 n hn).trans (hleft n hn),
          hok.1.2 i hoff⟩)
      hagain (hbody σ τ hfirst h)

end Vector

end VecCore.Kernel
