/-
  Foundation/FirstHit.lean --- the first success of a test along an orbit.

  `firstHit f hit z k` is the first success among the first `k` iterates of `z`
  under `f`, with the number of iterations made before it.  A loop that stops at
  the first success and a loop that goes on testing both compute it, provided a
  success is never lost again: the test is `Absorbing`.
-/
import Mathlib.Logic.Function.Iterate
import Mathlib.Tactic.Common

set_option autoImplicit false

namespace VecCore.Foundation

variable {α β : Type*}

/-- The first of the iterates `f z, ..., f^[k] z` on which the test succeeds,
counted from 0, and the outcome of the test there. -/
def firstHit (f : α → α) (hit : α → Option β) (z : α) : Nat → Option (Nat × β)
  | 0 => none
  | k + 1 =>
      match firstHit f hit z k with
      | some found => some found
      | none => (hit (f^[k + 1] z)).map fun b => (k, b)

/-- A success of the test persists, with the same outcome. -/
def Absorbing (f : α → α) (hit : α → Option β) : Prop :=
  ∀ z b, hit z = some b → hit (f z) = some b

variable {f : α → α} {hit : α → Option β} {z : α}

theorem firstHit_succ_of_some {k : Nat} {found : Nat × β}
    (h : firstHit f hit z k = some found) : firstHit f hit z (k + 1) = some found := by
  rw [firstHit, h]

theorem firstHit_succ_of_none {k : Nat} (h : firstHit f hit z k = none) :
    firstHit f hit z (k + 1) = (hit (f^[k + 1] z)).map fun b => (k, b) := by
  rw [firstHit, h]

/-- Once found, the first success does not change. -/
theorem firstHit_mono {k k' : Nat} (hle : k ≤ k') {found : Nat × β}
    (h : firstHit f hit z k = some found) : firstHit f hit z k' = some found := by
  induction hle with
  | refl => exact h
  | step _ ih => exact firstHit_succ_of_some ih

theorem firstHit_spec {k n : Nat} {b : β} (h : firstHit f hit z k = some (n, b)) :
    n < k ∧ hit (f^[n + 1] z) = some b := by
  induction k with
  | zero => simp [firstHit] at h
  | succ k ih =>
    cases hk : firstHit f hit z k with
    | some found =>
      rw [firstHit_succ_of_some hk] at h
      obtain ⟨hlt, hb⟩ := ih (hk.trans h)
      exact ⟨by omega, hb⟩
    | none =>
      rw [firstHit_succ_of_none hk, Option.map_eq_some_iff] at h
      obtain ⟨b', hb', heq⟩ := h
      obtain ⟨rfl, rfl⟩ := Prod.mk.inj heq
      exact ⟨by omega, hb'⟩

/-- Under an absorbing test, every iterate after the first success succeeds with
the same outcome. -/
theorem Absorbing.hit_of_firstHit (habs : Absorbing f hit) {k n : Nat} {b : β}
    (h : firstHit f hit z k = some (n, b)) : hit (f^[k] z) = some b := by
  obtain ⟨hlt, hb⟩ := firstHit_spec h
  clear h
  induction k with
  | zero => omega
  | succ k ih =>
    rcases Nat.lt_or_ge n k with hold | hnew
    · rw [Function.iterate_succ_apply']
      exact habs _ _ (ih hold)
    · obtain rfl : n = k := by omega
      exact hb

/-- Along two orbits that a relation keeps together, the first successes are at the same
iterate, and their outcomes correspond. -/
theorem firstHit_related {α' β' : Type*} {f' : α' → α'} {hit' : α' → Option β'} {τ : β → β'}
    {R : α → α' → Prop} (hstep : ∀ x y, R x y → R (f x) (f' y))
    (hhit : ∀ x y, R x y → hit' y = (hit x).map τ) {z' : α'} (hz : R z z') (k : Nat) :
    firstHit f' hit' z' k = (firstHit f hit z k).map (Prod.map id τ) := by
  have horbit : ∀ n, R (f^[n] z) (f'^[n] z') := by
    intro n
    induction n with
    | zero => exact hz
    | succ n ih =>
      rw [Function.iterate_succ_apply', Function.iterate_succ_apply']
      exact hstep _ _ ih
  induction k with
  | zero => rfl
  | succ k ih =>
    cases hk : firstHit f hit z k with
    | some found =>
      rw [hk] at ih
      rw [firstHit_succ_of_some hk, firstHit_succ_of_some ih]
      rfl
    | none =>
      rw [hk] at ih
      rw [firstHit_succ_of_none hk, firstHit_succ_of_none ih, hhit _ _ (horbit (k + 1)),
        Option.map_map, Option.map_map]
      rfl

end VecCore.Foundation
