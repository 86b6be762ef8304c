/-
  Foundation/Store.lean --- a logged output array.

  A `Store` is an unbounded array together with the list of the indices that
  have been assigned, latest first.  The log is what lets a statement speak
  about the cells a program writes, inside or outside the extent of the array
  it was given.
-/
import VecCore.Foundation.Lanes

set_option autoImplicit false

namespace VecCore.Foundation

variable {α : Type*}

/-- An array and the indices assigned so far, latest first. -/
structure Store (α : Type*) where
  /-- The contents. -/
  cell : Nat → α
  /-- The assigned indices. -/
  log : List Nat

namespace Store

/-- A store nothing has been assigned to. -/
def fresh (cell : Nat → α) : Store α := ⟨cell, []⟩

/-- `array[a] = x`. -/
def write (s : Store α) (a : Nat) (x : α) : Store α :=
  ⟨Function.update s.cell a x, a :: s.log⟩

/-- `for (k = 0; k < V; ++k) array[base + k] = v(k)`. -/
def writeLanes {V : Nat} (s : Store α) (base : Nat) (v : Lanes V α) : Store α :=
  forLanes V (fun k s => s.write (base + k) (v k)) s

@[simp] theorem fresh_log (cell : Nat → α) : (fresh cell).log = [] := rfl

@[simp] theorem write_cell (s : Store α) (a : Nat) (x : α) :
    (s.write a x).cell = Function.update s.cell a x := rfl

@[simp] theorem write_log (s : Store α) (a : Nat) (x : α) :
    (s.write a x).log = a :: s.log := rfl

theorem writeLanes_cell_eq {V : Nat} (s : Store α) (base : Nat) (v : Lanes V α) :
    (s.writeLanes base v).cell =
      forLanes V (fun k w => Function.update w (base + k) (v k)) s.cell :=
  forLanes_rel (fun (s : Store α) w => s.cell = w) V
    (fun _ _ _ h => by rw [write_cell, h]) rfl

/-- A written lane is read back. -/
theorem writeLanes_cell {V : Nat} (s : Store α) (base : Nat) (v : Lanes V α)
    (k : Fin V) : (s.writeLanes base v).cell (base + k) = v k := by
  rw [writeLanes_cell_eq]
  exact forLanes_update_add base v s.cell k

/-- Cells below and above the written lanes are unchanged. -/
theorem writeLanes_cell_of_not_mem {V : Nat} (s : Store α) (base : Nat)
    (v : Lanes V α) {a : Nat} (ha : a < base ∨ base + V ≤ a) :
    (s.writeLanes base v).cell a = s.cell a := by
  rw [writeLanes_cell_eq]
  exact forLanes_update_add_of_not_mem base v s.cell ha

/-- The indices a lane loop assigns are the `V` consecutive ones from `base`. -/
theorem mem_writeLanes_log {V : Nat} (s : Store α) (base : Nat) (v : Lanes V α)
    (a : Nat) :
    a ∈ (s.writeLanes base v).log ↔ a ∈ s.log ∨ base ≤ a ∧ a < base + V := by
  unfold writeLanes
  induction V with
  | zero => grind [forLanes]
  | succ V ih =>
    have hrest : a ∈ (forLanes V (fun k s => s.write (base + k) (v k.castSucc)) s).log ↔
        a ∈ s.log ∨ base ≤ a ∧ a < base + V := ih fun i => v i.castSucc
    have hlast : a ∈ (forLanes (V + 1) (fun k s => s.write (base + k) (v k)) s).log ↔
        a = base + V ∨
          a ∈ (forLanes V (fun k s => s.write (base + k) (v k.castSucc)) s).log := by
      simp [forLanes]
    grind

/-- The indices a lane loop assigns are assigned once. -/
theorem count_writeLanes_log {V : Nat} (s : Store α) (base : Nat) (v : Lanes V α) (a : Nat) :
    (s.writeLanes base v).log.count a =
      s.log.count a + if base ≤ a ∧ a < base + V then 1 else 0 := by
  unfold writeLanes
  induction V with
  | zero => simp only [forLanes]; grind
  | succ V ih =>
    have hrest : (forLanes V (fun k s => s.write (base + k) (v k.castSucc)) s).log.count a =
        s.log.count a + if base ≤ a ∧ a < base + V then 1 else 0 := ih fun i => v i.castSucc
    have hlast : (forLanes (V + 1) (fun k s => s.write (base + k) (v k)) s).log.count a =
        (forLanes V (fun k s => s.write (base + k) (v k.castSucc)) s).log.count a +
          if base + V = a then 1 else 0 := by
      simp [forLanes, List.count_cons]
    rw [hlast, hrest]
    split_ifs <;> omega

end Store

end VecCore.Foundation
