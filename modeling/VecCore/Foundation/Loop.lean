/-
  Foundation/Loop.lean --- C-style loops over an explicit state.

  Three loop forms, with the rules that the rest of the development uses:

      for (j = start; j < bound; j += step) body      `forLoop`
      do body while (cond)                            `doWhile`
      while (cond) body                               `whileLoop`

  A body that can fail returns `none`, and `none` is also the value of a run
  that does not end: `forLoop` with a zero step, the others out of fuel.  Every
  rule below therefore concludes with `some`.
-/
import Mathlib.Logic.Function.Iterate
import Mathlib.Tactic.Common

set_option autoImplicit false

namespace VecCore.Foundation

variable {σ τ : Type*}

/-! ## Counted loops -/

/-- `for (j = start; j < bound; j += step) body(j)`. -/
def forLoop (step bound : Nat) (body : Nat → σ → Option σ) (j : Nat) (s : σ) :
    Option σ :=
  if _h : j < bound ∧ 0 < step then
    (body j s).bind fun s' => forLoop step bound body (j + step) s'
  else if j < bound then none else some s
termination_by bound - j

theorem forLoop_of_le {step bound : Nat} {body : Nat → σ → Option σ} {j : Nat}
    (h : bound ≤ j) (s : σ) : forLoop step bound body j s = some s := by
  rw [forLoop, dif_neg (by omega), if_neg (by omega)]

theorem forLoop_of_lt {step bound : Nat} {body : Nat → σ → Option σ} {j : Nat}
    (hstep : 0 < step) (h : j < bound) (s : σ) :
    forLoop step bound body j s =
      (body j s).bind fun s' => forLoop step bound body (j + step) s' := by
  rw [forLoop, dif_pos ⟨h, hstep⟩]

/-- The invariant rule.  `Inv j s` is the assertion at the loop test; the body
must succeed from it and re-establish it for the next index. -/
theorem forLoop_invariant (Inv : Nat → σ → Prop) {step bound : Nat}
    {body : Nat → σ → Option σ} (hstep : 0 < step)
    (hbody : ∀ j s, j < bound → Inv j s →
      ∃ s', body j s = some s' ∧ Inv (j + step) s')
    {j : Nat} {s : σ} (h0 : Inv j s) :
    ∃ j' s', forLoop step bound body j s = some s' ∧ bound ≤ j' ∧ Inv j' s' := by
  induction hn : bound - j using Nat.strongRecOn generalizing j s with
  | ind n ih =>
    by_cases hj : j < bound
    · obtain ⟨s', hs', hinv⟩ := hbody j s hj h0
      obtain ⟨j'', s'', hrun, hle, hend⟩ :=
        ih (bound - (j + step)) (by omega) hinv rfl
      refine ⟨j'', s'', ?_, hle, hend⟩
      rw [forLoop_of_lt hstep hj, hs']
      exact hrun
    · exact ⟨j, s, forLoop_of_le (by omega) s, by omega, h0⟩

/-- The invariant rule for a loop whose step divides its bound. -/
theorem forLoop_of_dvd (Inv : Nat → σ → Prop) {step bound : Nat}
    {body : Nat → σ → Option σ} (hstep : 0 < step) (hdvd : step ∣ bound)
    (hbody : ∀ j s, step ∣ j → j + step ≤ bound → Inv j s →
      ∃ s', body j s = some s' ∧ Inv (j + step) s')
    {s : σ} (h0 : Inv 0 s) :
    ∃ s', forLoop step bound body 0 s = some s' ∧ Inv bound s' := by
  have hbody' : ∀ j s, j < bound → (step ∣ j ∧ j ≤ bound) ∧ Inv j s → ∃ s',
      body j s = some s' ∧ (step ∣ j + step ∧ j + step ≤ bound) ∧ Inv (j + step) s' := by
    rintro j s hlt ⟨⟨hj, -⟩, hinv⟩
    have hnext : j + step ≤ bound := by
      obtain ⟨a, ha⟩ := hj
      obtain ⟨b, hb⟩ := hdvd
      have hab : a + 1 ≤ b := Nat.lt_of_mul_lt_mul_left (a := step) (by omega)
      have hmul := Nat.mul_le_mul_left step hab
      rw [Nat.mul_succ] at hmul
      omega
    obtain ⟨s', hs', hinv'⟩ := hbody j s hj hnext hinv
    exact ⟨s', hs', ⟨Nat.dvd_add hj (Nat.dvd_refl _), hnext⟩, hinv'⟩
  obtain ⟨j, s', hrun, hle, ⟨hj, hjb⟩, hend⟩ :=
    forLoop_invariant (fun j s => (step ∣ j ∧ j ≤ bound) ∧ Inv j s) hstep hbody'
      ⟨⟨Nat.dvd_zero _, Nat.zero_le _⟩, h0⟩
  obtain rfl : j = bound := Nat.le_antisymm hjb hle
  exact ⟨s', hrun, hend⟩

/-- A loop whose body never fails is a fold. -/
theorem forLoop_eq_foldl (f : Nat → σ → σ) (n : Nat) (s : σ) :
    forLoop 1 n (fun j s => some (f j s)) 0 s =
      some ((List.range n).foldl (fun s j => f j s) s) := by
  let Inv : Nat → σ → Prop := fun j t => t = (List.range j).foldl (fun s j => f j s) s
  have hbody : ∀ j t, 1 ∣ j → j + 1 ≤ n → Inv j t → ∃ t', some (f j t) = some t' ∧
      Inv (j + 1) t' := by
    rintro j t - - rfl
    refine ⟨_, rfl, ?_⟩
    simp only [Inv, List.range_succ, List.foldl_append, List.foldl_cons, List.foldl_nil]
  obtain ⟨t, hrun, rfl⟩ := forLoop_of_dvd Inv Nat.one_pos (Nat.one_dvd n) hbody (s := s) rfl
  exact hrun

/-- A loop that goes through known states. -/
theorem forLoop_through (states : Nat → σ) {step bound : Nat} {body : Nat → σ → Option σ}
    (hstep : 0 < step) (hdvd : step ∣ bound)
    (hbody : ∀ j, j + step ≤ bound → body j (states j) = some (states (j + step))) :
    forLoop step bound body 0 (states 0) = some (states bound) := by
  obtain ⟨t, hrun, rfl⟩ := forLoop_of_dvd (fun j t => t = states j) hstep hdvd
    (fun j t _ hj ht => ⟨_, ht ▸ hbody j hj, rfl⟩) rfl
  exact hrun

/-- A loop whose body does the same every time. -/
theorem forLoop_iterate {body : σ → Option σ} {next : σ → σ}
    (hbody : ∀ s, body s = some (next s)) (n : Nat) (s : σ) :
    forLoop 1 n (fun _ s => body s) 0 s = some (next^[n] s) :=
  forLoop_through (fun j => next^[j] s) Nat.one_pos (Nat.one_dvd n) fun j _ => by
    rw [hbody, Function.iterate_succ_apply']

/-! ## Post-tested loops -/

/-- `do body while (cond)`, with at most `fuel` executions of the body. -/
def doWhile (body : σ → σ) (cond : σ → Bool) : Nat → σ → Option σ
  | 0, _ => none
  | fuel + 1, s => if cond (body s) then doWhile body cond fuel (body s) else some (body s)

/-- Total correctness of `doWhile`: `Inv` holds before every execution of the
body, and `rank` decreases whenever the loop goes round again. -/
theorem doWhile_total (Inv : σ → Prop) (rank : σ → Nat) {body : σ → σ} {cond : σ → Bool}
    (hbody : ∀ s, Inv s → cond (body s) = true →
      Inv (body s) ∧ rank (body s) < rank s)
    {fuel : Nat} {s : σ} (h0 : Inv s) (hfuel : rank s < fuel) :
    ∃ last, Inv last ∧ doWhile body cond fuel s = some (body last) ∧
      cond (body last) = false := by
  induction fuel generalizing s with
  | zero => omega
  | succ fuel ih =>
    cases hc : cond (body s) with
    | false => exact ⟨s, h0, by simp [doWhile, hc], hc⟩
    | true =>
      obtain ⟨hinv, hrank⟩ := hbody s h0 hc
      obtain ⟨last, hlast, hrun, hend⟩ := ih hinv (by omega)
      refine ⟨last, hlast, ?_, hend⟩
      rw [doWhile, if_pos hc]
      exact hrun

/-- A run ends within its fuel just when the test fails after one of that many iterations. -/
theorem doWhile_ends_iff (body : σ → σ) (cond : σ → Bool) (fuel : Nat) (s : σ) :
    (∃ t, doWhile body cond fuel s = some t) ↔
      ∃ n, 1 ≤ n ∧ n ≤ fuel ∧ cond (body^[n] s) = false := by
  induction fuel generalizing s with
  | zero =>
    constructor
    · rintro ⟨t, ht⟩
      cases ht
    · rintro ⟨n, h1, h0, -⟩
      omega
  | succ fuel ih =>
    rw [doWhile]
    cases hc : cond (body s) with
    | false => exact iff_of_true ⟨body s, rfl⟩ ⟨1, Nat.le_refl 1, by omega, hc⟩
    | true =>
      rw [if_pos rfl, ih]
      constructor
      · rintro ⟨n, h1, hn, hend⟩
        exact ⟨n + 1, by omega, by omega, hend⟩
      · rintro ⟨n, h1, hn, hend⟩
        obtain ⟨m, rfl⟩ := Nat.exists_eq_succ_of_ne_zero (Nat.ne_of_gt h1)
        cases m with
        | zero => exact absurd (hend.symm.trans hc) Bool.false_ne_true
        | succ m => exact ⟨m + 1, by omega, by omega, hend⟩

/-- A simulation between two post-tested loops. -/
theorem doWhile_map {body : σ → σ} {cond : σ → Bool} (body' : τ → τ)
    (cond' : τ → Bool) (abs : σ → τ) (hbody : ∀ s, abs (body s) = body' (abs s))
    (hcond : ∀ s, cond s = cond' (abs s)) (fuel : Nat) (s : σ) :
    (doWhile body cond fuel s).map abs = doWhile body' cond' fuel (abs s) := by
  induction fuel generalizing s with
  | zero => rfl
  | succ fuel ih =>
    simp only [doWhile, ← hbody, ← hcond]
    split
    · exact ih (body s)
    · rfl

/-! ## Pre-tested loops -/

/-- `while (cond) body`, with at most `fuel` executions of the body. -/
def whileLoop (cond : σ → Bool) (body : σ → Option σ) : Nat → σ → Option σ
  | 0, s => if cond s then none else some s
  | fuel + 1, s => if cond s then (body s).bind (whileLoop cond body fuel) else some s

/-- Total correctness of `whileLoop`: `Inv` holds at every test, and `rank`
decreases with every execution of the body. -/
theorem whileLoop_total (Inv : σ → Prop) (rank : σ → Nat) {cond : σ → Bool}
    {body : σ → Option σ}
    (hbody : ∀ s, Inv s → cond s = true →
      ∃ s', body s = some s' ∧ Inv s' ∧ rank s' < rank s)
    {fuel : Nat} {s : σ} (h0 : Inv s) (hfuel : rank s ≤ fuel) :
    ∃ s', whileLoop cond body fuel s = some s' ∧ Inv s' ∧ cond s' = false := by
  induction fuel generalizing s with
  | zero =>
    cases hc : cond s with
    | false => exact ⟨s, by simp [whileLoop, hc], h0, hc⟩
    | true =>
      obtain ⟨s', -, -, hrank⟩ := hbody s h0 hc
      omega
  | succ fuel ih =>
    cases hc : cond s with
    | false => exact ⟨s, by simp [whileLoop, hc], h0, hc⟩
    | true =>
      obtain ⟨s', hs', hinv, hrank⟩ := hbody s h0 hc
      obtain ⟨s'', hrun, hend⟩ := ih hinv (by omega)
      refine ⟨s'', ?_, hend⟩
      rw [whileLoop, if_pos hc, hs']
      exact hrun

end VecCore.Foundation
