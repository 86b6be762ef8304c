/-
  Foundation/Interleaving.lean --- threads that keep to their own data.

  A schedule says which thread does its next operation.  If every operation of a
  thread reads and writes the thread's own part of the state only, then whatever
  the schedule, a thread's part is what its operations alone make of it; and a run
  in which no thread has anything left to do has done the work of all of them.
-/
import Mathlib.Algebra.Order.BigOperators.Group.Finset
import Mathlib.Algebra.BigOperators.Group.Finset.Basic

set_option autoImplicit false

namespace VecCore.Foundation

variable {σ γ : Type*}

/-! ## One thread -/

/-- `n` operations of a thread. -/
def repeatStep (f : γ → Option γ) : Nat → γ → Option γ
  | 0, v => some v
  | n + 1, v => (f v).bind (repeatStep f n)

theorem repeatStep_add (f : γ → Option γ) (m n : Nat) (v : γ) :
    repeatStep f (m + n) v = (repeatStep f m v).bind (repeatStep f n) := by
  induction m generalizing v with
  | zero => rw [Nat.zero_add, repeatStep, Option.bind_some]
  | succ m ih =>
    rw [Nat.succ_add, repeatStep, repeatStep, Option.bind_assoc]
    exact congrArg _ (funext ih)

/-- After `n` operations the thread has nothing left to do, and `w` is what it leaves. -/
def Ends (f : γ → Option γ) (n : Nat) (v w : γ) : Prop :=
  repeatStep f n v = some w ∧ f w = none

/-- A thread never does more operations, and has done all of them exactly if it has
nothing left to do. -/
theorem Ends.count {f : γ → Option γ} {n m : Nat} {v w u : γ} (h : Ends f n v w)
    (hm : repeatStep f m v = some u) : m ≤ n ∧ (f u = none ↔ m = n) := by
  induction n generalizing m v with
  | zero =>
    obtain ⟨hv, hstop⟩ := h
    obtain rfl := Option.some_inj.mp hv
    cases m with
    | zero =>
      obtain rfl := Option.some_inj.mp hm
      exact ⟨Nat.le_refl 0, iff_of_true hstop rfl⟩
    | succ m =>
      rw [repeatStep, hstop] at hm
      exact absurd hm (by simp)
  | succ n ih =>
    obtain ⟨hv, hstop⟩ := h
    obtain ⟨v', hv', hrest⟩ := Option.bind_eq_some_iff.mp hv
    cases m with
    | zero =>
      obtain rfl := Option.some_inj.mp hm
      exact ⟨Nat.zero_le _, iff_of_false (by simp [hv']) (Nat.zero_ne_add_one n)⟩
    | succ m =>
      rw [repeatStep, hv', Option.bind_some] at hm
      obtain ⟨hle, hiff⟩ := ih ⟨hrest, hstop⟩ hm
      exact ⟨Nat.succ_le_succ hle, hiff.trans (Nat.succ_inj (a := m) (b := n)).symm⟩

/-! ## Schedules -/

/-- The threads of a schedule do their next operation, one after the other. -/
def runSchedule (fire : Nat → σ → Option σ) : List Nat → σ → Option σ
  | [], s => some s
  | i :: schedule, s => (fire i s).bind (runSchedule fire schedule)

theorem runSchedule_append (fire : Nat → σ → Option σ) (schedule rest : List Nat) (s : σ) :
    runSchedule fire (schedule ++ rest) s =
      (runSchedule fire schedule s).bind (runSchedule fire rest) := by
  induction schedule generalizing s with
  | nil => rfl
  | cons i schedule ih =>
    rw [List.cons_append, runSchedule, runSchedule, Option.bind_assoc]
    exact congrArg _ (funext ih)

theorem runSchedule_concat {fire : Nat → σ → Option σ} {schedule : List Nat} {s s' t : σ} {i : Nat}
    (hrun : runSchedule fire schedule s = some s') (hfire : fire i s' = some t) :
    runSchedule fire (schedule ++ [i]) s = some t := by
  rw [runSchedule_append, hrun, Option.bind_some, runSchedule, hfire]
  rfl

/-- Every run from `s` has at most `bound` operations, and can go on until no thread has
anything left to do; then `P` holds. -/
def EveryOrder (fire : Nat → σ → Option σ) (s : σ) (bound : Nat) (P : σ → Prop) : Prop :=
  ∀ schedule s', runSchedule fire schedule s = some s' →
    schedule.length ≤ bound ∧
      (∃ rest s'', runSchedule fire (schedule ++ rest) s = some s'' ∧ ∀ i, fire i s'' = none) ∧
      ((∀ i, fire i s' = none) → P s')

theorem EveryOrder.imp {fire : Nat → σ → Option σ} {s : σ} {bound : Nat} {P Q : σ → Prop}
    (h : EveryOrder fire s bound P) (hPQ : ∀ s', (∀ i, fire i s' = none) → P s' → Q s') :
    EveryOrder fire s bound Q := by
  intro schedule s' hrun
  obtain ⟨hle, hgo, hP⟩ := h schedule s' hrun
  exact ⟨hle, hgo, fun hdone => hPQ s' hdone (hP hdone)⟩

/-- An operation of thread `i` reads and writes the part `view s i` only. -/
def Separate (fire : Nat → σ → Option σ) (view : σ → Nat → γ) (own : γ → Option γ) : Prop :=
  ∀ i s, (fire i s).map view = (own (view s i)).map (Function.update (view s) i)

namespace Separate

variable {fire : Nat → σ → Option σ} {view : σ → Nat → γ} {own : γ → Option γ}

theorem fire_eq_none_iff (h : Separate fire view own) (i : Nat) (s : σ) :
    fire i s = none ↔ own (view s i) = none := by
  rw [← Option.map_eq_none_iff (f := view), h i s, Option.map_eq_none_iff]

/-- Thread `i` has done its operations in the schedule, and the others have not
interfered. -/
theorem view_run (h : Separate fire view own) {schedule : List Nat} {s s' : σ}
    (hrun : runSchedule fire schedule s = some s') (i : Nat) :
    repeatStep own (schedule.count i) (view s i) = some (view s' i) := by
  induction schedule generalizing s with
  | nil =>
    obtain rfl := Option.some_inj.mp hrun
    rfl
  | cons k schedule ih =>
    obtain ⟨t, ht, hrun⟩ := Option.bind_eq_some_iff.mp hrun
    have hview := h k s
    rw [ht, Option.map_some] at hview
    obtain ⟨v, hv, hupdate⟩ := Option.map_eq_some_iff.mp hview.symm
    by_cases hik : k = i
    · subst hik
      rw [List.count_cons_self, repeatStep, hv, Option.bind_some, ← ih hrun, ← hupdate,
        Function.update_self]
    · rw [List.count_cons_of_ne hik, ← ih hrun, ← hupdate,
        Function.update_of_ne (Ne.symm hik)]

section Launch

variable (h : Separate fire view own) {len : Nat → Nat} {last : Nat → γ} {s : σ}
  (hends : ∀ i, Ends own (len i) (view s i) (last i)) {schedule : List Nat} {s' : σ}
  (hrun : runSchedule fire schedule s = some s')

include h hends hrun

theorem blocked_iff (i : Nat) :
    schedule.count i ≤ len i ∧ (fire i s' = none ↔ schedule.count i = len i) := by
  rw [h.fire_eq_none_iff]
  exact (hends i).count (h.view_run hrun i)

/-- When no thread has anything left to do, every part is as its thread leaves it. -/
theorem view_of_blocked (hblocked : ∀ i, fire i s' = none) : view s' = last := by
  funext i
  have hview := h.view_run hrun i
  rw [(h.blocked_iff hends hrun i).2.mp (hblocked i), (hends i).1] at hview
  exact (Option.some_inj.mp hview).symm

/-- A run of `N` threads is no longer than their operations are many. -/
theorem length_le {N : Nat} (hlen : ∀ i, N ≤ i → len i = 0) :
    schedule.length ≤ ∑ i ∈ Finset.range N, len i := by
  have hmem : ∀ i ∈ (schedule : Multiset Nat), i ∈ Finset.range N := by
    intro i hi
    by_contra hout
    have hzero := hlen i (Nat.le_of_not_lt fun hlt => hout (Finset.mem_range.mpr hlt))
    have hcount := (h.blocked_iff hends hrun i).1
    have hpos := List.count_pos_iff.mpr (Multiset.mem_coe.mp hi)
    omega
  rw [← Multiset.coe_card, ← Multiset.sum_count_eq_card hmem]
  refine Finset.sum_le_sum fun i _ => ?_
  rw [Multiset.coe_count]
  exact (h.blocked_iff hends hrun i).1

/-- Every run of `N` threads can be continued until all of them are through. -/
theorem exists_completion {N : Nat} (hlen : ∀ i, N ≤ i → len i = 0) :
    ∃ rest s'', runSchedule fire (schedule ++ rest) s = some s'' ∧ ∀ i, fire i s'' = none := by
  -- On the operations that are left.
  induction hleft : (∑ i ∈ Finset.range N, len i) - schedule.length
    generalizing schedule s' with
  | zero =>
    refine ⟨[], s', by rwa [List.append_nil], fun i => ?_⟩
    by_contra hgo
    obtain ⟨t, ht⟩ := Option.ne_none_iff_exists'.mp hgo
    have hle := h.length_le hends (runSchedule_concat hrun ht) hlen
    rw [List.length_append, List.length_singleton] at hle
    omega
  | succ n ih =>
    by_cases hstop : ∀ i, fire i s' = none
    · exact ⟨[], s', by rwa [List.append_nil], hstop⟩
    · obtain ⟨i, hgo⟩ := not_forall.mp hstop
      obtain ⟨t, ht⟩ := Option.ne_none_iff_exists'.mp hgo
      obtain ⟨rest, s'', hrest, hdone⟩ := ih (runSchedule_concat hrun ht) (by
        rw [List.length_append, List.length_singleton]
        omega)
      exact ⟨i :: rest, s'', by rwa [List.append_assoc] at hrest, hdone⟩

end Launch

/-- `N` threads of at most `n` operations each leave their results in every order. -/
theorem everyOrder (h : Separate fire view own) {N n : Nat} {len : Nat → Nat}
    {last : Nat → γ} {s : σ} (hends : ∀ i, Ends own (len i) (view s i) (last i))
    (hout : ∀ i, N ≤ i → len i = 0) (hlen : ∀ i, len i ≤ n) :
    EveryOrder fire s (N * n) fun s' => view s' = last := by
  intro schedule s' hrun
  have hsum : ∑ i ∈ Finset.range N, len i ≤ N * n := by
    have hle := Finset.sum_le_card_nsmul (Finset.range N) len n fun i _ => hlen i
    rwa [Finset.card_range] at hle
  exact ⟨(h.length_le hends hrun hout).trans hsum, h.exists_completion hends hrun hout,
    h.view_of_blocked hends hrun⟩

end Separate

end VecCore.Foundation
