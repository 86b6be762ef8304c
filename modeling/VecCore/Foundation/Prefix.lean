/-
  Foundation/Prefix.lean --- arrays that are rewritten from the front.

  A loop that replaces the cells of an array one after the other, or tile after
  tile, goes through the arrays that hold the new contents below an index and
  the old ones from there on.
-/
import VecCore.Foundation.Lanes

set_option autoImplicit false

namespace VecCore.Foundation

variable {α : Type*}

/-- The new contents below `i`, the old ones from `i` on. -/
def upTo (i : Nat) (new old : Nat → α) : Nat → α := fun a => if a < i then new a else old a

@[simp] theorem upTo_zero (new old : Nat → α) : upTo 0 new old = old :=
  funext fun a => if_neg (Nat.not_lt_zero a)

theorem upTo_of_lt {i a : Nat} (h : a < i) (new old : Nat → α) : upTo i new old a = new a :=
  if_pos h

/-- The cells still to be rewritten. -/
@[simp] theorem upTo_add (i k : Nat) (new old : Nat → α) : upTo i new old (i + k) = old (i + k) :=
  if_neg (Nat.not_lt.mpr (Nat.le_add_right i k))

@[simp] theorem upTo_self (i : Nat) (new old : Nat → α) : upTo i new old i = old i :=
  upTo_add i 0 new old

/-- Writing the next cell. -/
theorem update_upTo {i : Nat} {new old : Nat → α} {x : α} (hx : x = new i) :
    Function.update (upTo i new old) i x = upTo (i + 1) new old := by
  funext a
  rcases Nat.lt_trichotomy a i with hlt | rfl | hgt
  · rw [Function.update_of_ne hlt.ne, upTo_of_lt hlt, upTo_of_lt (Nat.lt_succ_of_lt hlt)]
  · rw [Function.update_self, upTo_of_lt (Nat.lt_succ_self a), hx]
  · rw [Function.update_of_ne hgt.ne']
    exact (if_neg (by omega)).trans (if_neg (by omega)).symm

/-- Writing the next tile. -/
theorem forLanes_update_upTo {V i : Nat} {new old : Nat → α} {v : Lanes V α}
    (hv : ∀ k, v k = new (i + k)) :
    forLanes V (fun k w => Function.update w (i + k) (v k)) (upTo i new old) =
      upTo (i + V) new old := by
  funext a
  rcases Nat.lt_or_ge a i with hlt | hge
  · rw [forLanes_update_add_of_not_mem i v _ (.inl hlt), upTo_of_lt hlt,
      upTo_of_lt (Nat.lt_add_right V hlt)]
  rcases Nat.lt_or_ge a (i + V) with hlt | hge'
  · obtain ⟨k, rfl⟩ := Nat.exists_eq_add_of_le hge
    have hk : k < V := by omega
    rw [upTo_of_lt hlt, ← hv ⟨k, hk⟩]
    exact forLanes_update_add i v _ ⟨k, hk⟩
  · rw [forLanes_update_add_of_not_mem i v _ (.inr hge')]
    exact (if_neg (by omega)).trans (if_neg (by omega)).symm

end VecCore.Foundation
