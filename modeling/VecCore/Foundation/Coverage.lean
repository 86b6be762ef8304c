/-
  Foundation/Coverage.lean --- how often a strided loop assigns a cell.

  A loop `for (j = 0; j < bound; j += step)` whose iterations assign the
  `lanes` cells from `j` on covers an array without gaps and without overlaps
  just when `lanes` is `step`.  The counts are those of a log of assignments.
-/
import VecCore.Foundation.Loop

set_option autoImplicit false

namespace VecCore.Foundation

variable {σ : Type*}

/-- How often `for (j = 0; j < bound; j += step)` assigns cell `a`, when `step` divides `bound`
and iteration `j` assigns the `lanes` cells from `j` on. -/
def hits (step lanes bound a : Nat) : Nat :=
  if a < bound ∧ a % step < lanes then 1 else 0

@[simp] theorem hits_zero (step lanes a : Nat) : hits step lanes 0 a = 0 := if_neg (by omega)

/-- The next iteration. -/
theorem hits_add {step lanes j : Nat} (hlanes : lanes ≤ step) (hj : step ∣ j) (a : Nat) :
    hits step lanes (j + step) a =
      hits step lanes j a + if j ≤ a ∧ a < j + lanes then 1 else 0 := by
  unfold hits
  obtain ⟨q, rfl⟩ := hj
  rcases Nat.lt_or_ge a (step * q) with hlt | hge
  · rw [if_neg (show ¬ (step * q ≤ a ∧ a < step * q + lanes) by omega)]
    simp only [hlt, show a < step * q + step by omega, true_and, Nat.add_zero]
  · obtain ⟨r, rfl⟩ := Nat.exists_eq_add_of_le hge
    have hmod : r < step → (step * q + r) % step = r := by
      intro hr
      rw [Nat.mul_add_mod, Nat.mod_eq_of_lt hr]
    rw [if_neg (show ¬ (step * q + r < step * q ∧ (step * q + r) % step < lanes) by omega)]
    split_ifs <;> omega

/-- Iterations that assign as many cells as the loop advances by leave no gap. -/
theorem hits_self {step : Nat} (hstep : 0 < step) (bound a : Nat) :
    hits step step bound a = if a < bound then 1 else 0 := by
  unfold hits
  simp only [Nat.mod_lt a hstep, and_true]

/-- Iterations that assign fewer leave one. -/
theorem hits_gap {step lanes bound : Nat} (hlanes : lanes < step) :
    hits step lanes bound lanes = 0 := by
  unfold hits
  rw [Nat.mod_eq_of_lt hlanes]
  exact if_neg (by omega)

/-- The loop, on a state with a log. -/
theorem forLoop_count_log (log : σ → List Nat) {step lanes bound : Nat} (hstep : 0 < step)
    (hlanes : lanes ≤ step) (hdvd : step ∣ bound) {body : Nat → σ → Option σ}
    (hbody : ∀ j s, ∃ s', body j s = some s' ∧ ∀ a,
      (log s').count a = (log s).count a + if j ≤ a ∧ a < j + lanes then 1 else 0)
    (s : σ) :
    ∃ s', forLoop step bound body 0 s = some s' ∧
      ∀ a, (log s').count a = (log s).count a + hits step lanes bound a := by
  let Inv : Nat → σ → Prop := fun j t =>
    step ∣ j ∧ ∀ a, (log t).count a = (log s).count a + hits step lanes j a
  have hnext : ∀ j t, step ∣ j → j + step ≤ bound → Inv j t →
      ∃ t', body j t = some t' ∧ Inv (j + step) t' := by
    rintro j t hj - ⟨-, hcount⟩
    obtain ⟨t', hrun, hcount'⟩ := hbody j t
    refine ⟨t', hrun, Nat.dvd_add hj (Nat.dvd_refl _), ?_⟩
    intro a
    rw [hcount' a, hcount a, hits_add hlanes hj a, Nat.add_assoc]
  obtain ⟨s', hrun, -, hcount⟩ := forLoop_of_dvd Inv hstep hdvd hnext (s := s)
    ⟨Nat.dvd_zero _, fun a => by rw [hits_zero, Nat.add_zero]⟩
  exact ⟨s', hrun, hcount⟩

/-- The same assignments in each of several runs. -/
theorem forLoop_count_runs (log : σ → List Nat) {body : Nat → σ → Option σ} {h : Nat → Nat}
    (hbody : ∀ n s, ∃ s', body n s = some s' ∧ ∀ a,
      (log s').count a = (log s).count a + h a) (runs : Nat) (s : σ) :
    ∃ s', forLoop 1 runs body 0 s = some s' ∧
      ∀ a, (log s').count a = (log s).count a + runs * h a := by
  let Inv : Nat → σ → Prop := fun n t => ∀ a, (log t).count a = (log s).count a + n * h a
  have hnext : ∀ n t, 1 ∣ n → n + 1 ≤ runs → Inv n t →
      ∃ t', body n t = some t' ∧ Inv (n + 1) t' := by
    intro n t _ _ hcount
    obtain ⟨t', hrun, hcount'⟩ := hbody n t
    refine ⟨t', hrun, ?_⟩
    intro a
    rw [hcount' a, hcount a, Nat.succ_mul, Nat.add_assoc]
  exact forLoop_of_dvd Inv Nat.one_pos (Nat.one_dvd runs) hnext fun a => by
    rw [Nat.zero_mul, Nat.add_zero]

end VecCore.Foundation
