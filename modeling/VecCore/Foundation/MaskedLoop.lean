/-
  Foundation/MaskedLoop.lean --- bounded do/while loops, and loops under a mask.

  A loop with a bound on its iterations is a total function.  When one state
  carries many participants that leave the loop at different iterations, the
  shared loop goes on for the others: `again_simulates` says what a participant
  needs for ending where a loop of its own would.
-/
import VecCore.Foundation.Loop

set_option autoImplicit false

namespace VecCore.Foundation

variable {σ τ : Type*}

/-! ## Bounded loops -/

/-- `while (r-- > 0 && stay) body`. -/
def again (body : σ → σ) (stay : σ → Bool) : Nat → σ → σ
  | 0, s => s
  | r + 1, s => if stay s then again body stay r (body s) else s

/-- `k = 0; do body while (++k < bound && stay)`. -/
def doWhileBelow (bound : Nat) (body : σ → σ) (stay : σ → Bool) (s : σ) : σ :=
  again body stay (bound - 1) (body s)

/-- `P` holds of every state in which `again` runs its body. -/
def AgainAll (body : σ → σ) (stay : σ → Bool) (P : σ → Prop) : Nat → σ → Prop
  | 0, _ => True
  | r + 1, s => stay s = true → P s ∧ AgainAll body stay P r (body s)

section Rules

variable {body : σ → σ} {stay : σ → Bool}

theorem again_of_stay {s : σ} (h : stay s = true) (r : Nat) :
    again body stay (r + 1) s = again body stay r (body s) := by
  rw [again, if_pos h]

theorem again_of_stop {s : σ} (h : stay s = false) (r : Nat) : again body stay r s = s := by
  cases r with
  | zero => rfl
  | succ r => rw [again, if_neg (by rw [h]; exact Bool.false_ne_true)]

/-- An invariant that implies `P` makes `P` hold wherever the body is run. -/
theorem AgainAll.of_invariant {P : σ → Prop} (Inv : σ → Prop)
    (hbody : ∀ s, Inv s → stay s = true → P s ∧ Inv (body s)) (r : Nat) {s : σ} (h : Inv s) :
    AgainAll body stay P r s := by
  induction r generalizing s with
  | zero => exact trivial
  | succ r ih =>
    intro hs
    obtain ⟨hP, hinv⟩ := hbody s h hs
    exact ⟨hP, ih hinv⟩

/-- What every run of the body preserves holds of the loop. -/
theorem AgainAll.again {P : σ → Prop} (Q : σ → Prop) (hbody : ∀ s, P s → Q s → Q (body s))
    {r : Nat} {s : σ} (hall : AgainAll body stay P r s) (h : Q s) :
    Q (again body stay r s) := by
  induction r generalizing s with
  | zero => exact h
  | succ r ih =>
    cases hs : stay s with
    | false =>
      rw [again_of_stop hs]
      exact h
    | true =>
      obtain ⟨hP, hrest⟩ := hall hs
      rw [again_of_stay hs]
      exact ih hrest (hbody s hP h)

end Rules

/-- A loop that counts its iterations itself, and a bounded loop that goes along with it.
`R k` relates their states after `k` iterations. -/
theorem doWhile_doWhileBelow (R : Nat → σ → τ → Prop) {body : σ → σ} {cond : σ → Bool}
    {body' : τ → τ} {stay : τ → Bool} {bound : Nat}
    (hbody : ∀ k s t, R k s t → R (k + 1) (body s) (body' t))
    (hcond : ∀ k s t, R k s t → cond s = (decide (k < bound) && stay t))
    {fuel : Nat} (hfuel : max 1 bound ≤ fuel) {s : σ} {t : τ} (h0 : R 0 s t) :
    ∃ k s', doWhile body cond fuel s = some s' ∧ R k s' (doWhileBelow bound body' stay t) := by
  -- after `k + 1` runs of the body there are `bound - 1 - k` left
  have hfrom : ∀ fuel k s t, bound - 1 - k < fuel → R k s t → ∃ k' s',
      doWhile body cond fuel s = some s' ∧
        R k' s' (again body' stay (bound - 1 - k) (body' t)) := by
    intro fuel
    induction fuel with
    | zero => exact fun k s t h => absurd h (Nat.not_lt_zero _)
    | succ fuel ih =>
      intro k s t hk hR
      have hnext := hbody k s t hR
      have hgo := hcond _ _ _ hnext
      rcases Nat.lt_or_ge (k + 1) bound with hlt | hge
      · obtain ⟨r, hr⟩ : ∃ r, bound - 1 - k = r + 1 := ⟨bound - 1 - (k + 1), by omega⟩
        rw [decide_eq_true hlt, Bool.true_and] at hgo
        rw [hr, doWhile, hgo]
        cases hs : stay (body' t) with
        | false =>
          rw [again_of_stop hs]
          exact ⟨_, _, rfl, hnext⟩
        | true =>
          rw [again_of_stay hs, show r = bound - 1 - (k + 1) by omega]
          exact ih (k + 1) _ _ (by omega) hnext
      · rw [decide_eq_false (Nat.not_lt.mpr hge), Bool.false_and] at hgo
        rw [show bound - 1 - k = 0 by omega, doWhile, hgo]
        exact ⟨_, _, rfl, hnext⟩
  exact hfrom fuel 0 s t (by omega) h0

/-! ## A participant of a shared loop -/

section Shared

variable {body : σ → σ} {stay : σ → Bool} {body' : τ → τ} {stay' : τ → Bool}
  (active : σ → Bool) (Agree Left : σ → τ → Prop) {Ok : σ → Prop}

/-- A participant that has left is not touched again. -/
theorem again_left
    (hfrozen : ∀ s t, Ok s → Left s t → active s = false →
      Left (body s) t ∧ active (body s) = false)
    {r : Nat} {s : σ} {t : τ} (hall : AgainAll body stay Ok r s) (hleft : Left s t)
    (hoff : active s = false) : Left (again body stay r s) t :=
  (hall.again (fun s => Left s t ∧ active s = false)
    (fun s hok h => hfrozen s t hok h.1 h.2) ⟨hleft, hoff⟩).1

/-- The shared loop leaves a participant where its own loop does.  `active` says of a
state whether the participant is still in the loop, which is what its own loop tests;
while it is, both bodies keep `Agree`, and afterwards the shared body keeps `Left`. -/
theorem again_simulates (htest : ∀ s t, Agree s t → stay' t = active s)
    (hstay : ∀ s, active s = true → stay s = true) (hleft : ∀ s t, Agree s t → Left s t)
    (hmoving : ∀ s t, Ok s → Agree s t → active s = true → Agree (body s) (body' t))
    (hfrozen : ∀ s t, Ok s → Left s t → active s = false →
      Left (body s) t ∧ active (body s) = false)
    {r : Nat} {s : σ} {t : τ} (hall : AgainAll body stay Ok r s) (hagree : Agree s t) :
    Left (again body stay r s) (again body' stay' r t) := by
  induction r generalizing s t with
  | zero => exact hleft s t hagree
  | succ r ih =>
    cases hact : active s with
    | false =>
      rw [again_of_stop ((htest s t hagree).trans hact)]
      exact again_left active Left hfrozen hall (hleft s t hagree) hact
    | true =>
      obtain ⟨hok, hrest⟩ := hall (hstay s hact)
      rw [again_of_stay (hstay s hact), again_of_stay ((htest s t hagree).trans hact)]
      exact ih hrest (hmoving s t hok hagree hact)

end Shared

end VecCore.Foundation
