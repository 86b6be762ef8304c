/-
  Foundation/TileMap.lean --- loops over the tiles of arrays.

  A tile that reads and writes its own positions only can be run in any company:
  a loop over all tiles transforms every position by its tile, and two loops one
  after the other are one loop that does both.
-/
import VecCore.Foundation.Loop
import VecCore.Foundation.Lanes

set_option autoImplicit false

namespace VecCore.Foundation

variable {ι α : Type*}

/-- A transformation of arrays that reads and writes the `size` positions from `j`
on, and nothing else. -/
structure TileLocal (size : Nat) (tile : Nat → (ι → Nat → α) → ι → Nat → α) : Prop where
  congr : ∀ j mem mem', (∀ a p, j ≤ p → p < j + size → mem a p = mem' a p) →
    ∀ a p, j ≤ p → p < j + size → tile j mem a p = tile j mem' a p
  frame : ∀ j mem a p, p < j ∨ j + size ≤ p → tile j mem a p = mem a p

/-- Every one of the first `N` positions is transformed by its tile. -/
def tiled (size : Nat) (tile : Nat → (ι → Nat → α) → ι → Nat → α) (N : Nat)
    (mem : ι → Nat → α) : ι → Nat → α :=
  fun a p => if p < N then tile (p / size * size) mem a p else mem a p

section Tiled

variable {size N : Nat} {tile tile' : Nat → (ι → Nat → α) → ι → Nat → α}

theorem tiled_of_lt {p : Nat} (hp : p < N) (mem : ι → Nat → α) (a : ι) :
    tiled size tile N mem a p = tile (p / size * size) mem a p := if_pos hp

theorem tiled_of_le {p : Nat} (hp : N ≤ p) (mem : ι → Nat → α) (a : ι) :
    tiled size tile N mem a p = mem a p := if_neg (Nat.not_lt.mpr hp)

theorem tiled_zero (mem : ι → Nat → α) : tiled size tile 0 mem = mem :=
  funext fun a => funext fun p => tiled_of_le (Nat.zero_le p) mem a

/-- The start of the tile of a position. -/
theorem tile_start {j p : Nat} (hdvd : size ∣ j) (hle : j ≤ p) (hlt : p < j + size) :
    p / size * size = j := by
  obtain ⟨q, rfl⟩ := hdvd
  obtain ⟨r, rfl⟩ := Nat.exists_eq_add_of_le hle
  rw [Nat.mul_add_div (by omega), Nat.div_eq_of_lt (by omega), Nat.add_zero, Nat.mul_comm]

/-- The place of a position in its tile. -/
theorem tile_offset {j k : Nat} (hdvd : size ∣ j) (hk : k < size) : (j + k) % size = k := by
  rw [Nat.add_mod, Nat.mod_eq_zero_of_dvd hdvd, Nat.zero_add, Nat.mod_mod, Nat.mod_eq_of_lt hk]

/-- The tile of a position contains it, and ends where the array ends or before. -/
theorem tile_bounds (hsize : 0 < size) (hdvd : size ∣ N) {p : Nat} (hp : p < N) :
    p / size * size ≤ p ∧ p < p / size * size + size ∧ p / size * size + size ≤ N := by
  have hmod := Nat.mod_lt p hsize
  have hdiv := Nat.div_add_mod p size
  obtain ⟨n, rfl⟩ := hdvd
  have hq : p / size + 1 ≤ n := Nat.div_lt_of_lt_mul hp
  have hmul := Nat.mul_le_mul_left size hq
  rw [Nat.mul_succ] at hmul
  rw [Nat.mul_comm (p / size)]
  omega

/-- The loop over the tiles. -/
theorem forLoop_tiled (h : TileLocal size tile) (hsize : 0 < size) (hdvd : size ∣ N)
    (mem : ι → Nat → α) :
    forLoop size N (fun j m => some (tile j m)) 0 mem = some (tiled size tile N mem) := by
  have hstep : ∀ j m, size ∣ j → j + size ≤ N → m = tiled size tile j mem → ∃ m',
      some (tile j m) = some m' ∧ m' = tiled size tile (j + size) mem := by
    rintro j m hj hle rfl
    refine ⟨_, rfl, ?_⟩
    funext a p
    by_cases hin : j ≤ p ∧ p < j + size
    · rw [tiled_of_lt hin.2, tile_start hj hin.1 hin.2]
      exact h.congr j _ mem (fun a q hq _ => tiled_of_le hq mem a) a p hin.1 hin.2
    · rw [h.frame j _ a p (by omega)]
      rcases Nat.lt_or_ge p j with hlt | hge
      · rw [tiled_of_lt hlt, tiled_of_lt (Nat.lt_add_right size hlt)]
      · rw [tiled_of_le hge, tiled_of_le (by omega)]
  obtain ⟨m, hrun, rfl⟩ := forLoop_of_dvd (fun j m => m = tiled size tile j mem) hsize hdvd
    hstep (tiled_zero mem).symm
  exact hrun

/-- One tile after the other at the same place. -/
theorem TileLocal.comp (h : TileLocal size tile) (h' : TileLocal size tile') :
    TileLocal size fun j mem => tile' j (tile j mem) where
  congr j mem mem' hmem := h'.congr j _ _ (h.congr j mem mem' hmem)
  frame j mem a p hp := (h'.frame j _ a p hp).trans (h.frame j mem a p hp)

theorem TileLocal.id : TileLocal size fun _ (mem : ι → Nat → α) => mem where
  congr _ _ _ hmem := hmem
  frame _ _ _ _ _ := rfl

/-- Two loops over the tiles are one. -/
theorem tiled_tiled (h' : TileLocal size tile') (hsize : 0 < size) (hdvd : size ∣ N)
    (mem : ι → Nat → α) :
    tiled size tile' N (tiled size tile N mem) =
      tiled size (fun j m => tile' j (tile j m)) N mem := by
  funext a p
  rcases Nat.lt_or_ge p N with hp | hp
  · obtain ⟨hle, hlt, hN⟩ := tile_bounds hsize hdvd hp
    rw [tiled_of_lt hp, tiled_of_lt hp]
    refine h'.congr _ _ _ (fun b q hq hq' => ?_) a p hle hlt
    rw [tiled_of_lt (by omega), tile_start (Nat.dvd_mul_left size _) hq hq']
  · rw [tiled_of_le hp, tiled_of_le hp, tiled_of_le hp]

/-- Tilings that compute the same at every position, whatever their tile sizes. -/
theorem tiled_eq {size' : Nat} {mem : ι → Nat → α}
    (h : ∀ p, p < N → ∀ a, tile (p / size * size) mem a p = tile' (p / size' * size') mem a p) :
    tiled size tile N mem = tiled size' tile' N mem := by
  funext a p
  rcases Nat.lt_or_ge p N with hp | hp
  · rw [tiled_of_lt hp, tiled_of_lt hp]
    exact h p hp a
  · rw [tiled_of_le hp, tiled_of_le hp]

end Tiled

/-! ## Tiles that are loops over their elements -/

section Elements

variable {σ : Type*} (body : Nat → σ → Option σ)

/-- A loop ends with its last iteration. -/
theorem forLoop_last {step : Nat} (hstep : 0 < step) {k n : Nat} (hk : k ≤ n) (s : σ) :
    forLoop step (step * (n + 1)) body (step * k) s =
      (forLoop step (step * n) body (step * k) s).bind (body (step * n)) := by
  induction hd : n - k generalizing k s with
  | zero =>
    obtain rfl : k = n := by omega
    rw [forLoop_of_le (Nat.le_refl _), Option.bind_some,
      forLoop_of_lt hstep (Nat.mul_lt_mul_of_pos_left (Nat.lt_succ_self k) hstep)]
    refine (congrArg _ (funext fun t => ?_)).trans (Option.bind_fun_some _)
    exact forLoop_of_le (Nat.le_refl _) t
  | succ d ih =>
    have hlt : k < n := by omega
    rw [forLoop_of_lt hstep (Nat.mul_lt_mul_of_pos_left (Nat.lt_succ_of_lt hlt) hstep),
      forLoop_of_lt hstep (Nat.mul_lt_mul_of_pos_left hlt hstep), Option.bind_assoc]
    exact congrArg _ (funext fun t => ih (k := k + 1) hlt t (by omega))

theorem forLoop_one_succ (n : Nat) (s : σ) :
    forLoop 1 (n + 1) body 0 s = (forLoop 1 n body 0 s).bind (body n) := by
  simpa only [Nat.one_mul] using forLoop_last body Nat.one_pos (Nat.zero_le n) s

/-- A loop in two parts. -/
theorem forLoop_one_add (m n : Nat) (s : σ) :
    forLoop 1 (m + n) body 0 s =
      (forLoop 1 m body 0 s).bind (forLoop 1 n (fun i => body (m + i)) 0) := by
  induction n with
  | zero =>
    refine (Option.bind_fun_some _).symm.trans (congrArg _ (funext fun t => ?_))
    exact (forLoop_of_le (Nat.le_refl 0) t).symm
  | succ n ih =>
    rw [← Nat.add_assoc, forLoop_one_succ, ih, Option.bind_assoc]
    exact congrArg _ (funext fun t => (forLoop_one_succ _ n t).symm)

/-- The loop over the lanes. -/
theorem forLanes?_eq_forLoop (V : Nat) (s : σ) :
    forLanes? V (fun i => body i) s = forLoop 1 V body 0 s := by
  induction V with
  | zero => exact (forLoop_of_le (Nat.le_refl 0) s).symm
  | succ V ih =>
    rw [forLoop_one_succ, ← ih]
    rfl

/-- A loop over tiles that are loops over their lanes is a loop over the elements. -/
theorem forLoop_lanes {V N : Nat} (hV : 0 < V) (hdvd : V ∣ N) (s : σ) :
    forLoop V N (fun j => forLanes? V fun i => body (j + i)) 0 s = forLoop 1 N body 0 s := by
  obtain ⟨n, rfl⟩ := hdvd
  induction n with
  | zero => rw [Nat.mul_zero, forLoop_of_le (Nat.le_refl 0), forLoop_of_le (Nat.le_refl 0)]
  | succ n ih =>
    have hlast := forLoop_last (fun j => forLanes? V fun i => body (j + i)) hV (Nat.zero_le n) s
    rw [Nat.mul_zero] at hlast
    rw [hlast, ih, Nat.mul_succ, forLoop_one_add]
    exact congrArg _ (funext (forLanes?_eq_forLoop (fun i => body (V * n + i)) V))

/-- Loops whose bodies agree on the tiles. -/
theorem forLoop_congr {body body' : Nat → σ → Option σ} {step bound : Nat} (hstep : 0 < step)
    (h : ∀ j, step ∣ j → j < bound → body j = body' j) {j : Nat} (hj : step ∣ j) (s : σ) :
    forLoop step bound body j s = forLoop step bound body' j s := by
  induction hn : bound - j using Nat.strongRecOn generalizing j s with
  | ind n ih =>
    rcases Nat.lt_or_ge j bound with hlt | hge
    · rw [forLoop_of_lt hstep hlt, forLoop_of_lt hstep hlt, h j hj hlt]
      exact congrArg _ (funext fun t =>
        ih (bound - (j + step)) (by omega) (Nat.dvd_add hj (Nat.dvd_refl step)) t rfl)
    · rw [forLoop_of_le hge, forLoop_of_le hge]

end Elements

/-! ## Cells that depend on themselves only -/

section Cells

variable {σ γ : Type*} (view : σ → Nat → γ) (solve : Nat → γ → γ) {size N : Nat}

/-- A loop whose tiles solve their own cells solves every cell below `N`. -/
theorem forLoop_cells {tile : Nat → σ → Option σ} (hsize : 0 < size) (hdvd : size ∣ N)
    (htile : ∀ j s, size ∣ j → j + size ≤ N → ∃ s', tile j s = some s' ∧ ∀ p,
      view s' p = if j ≤ p ∧ p < j + size then solve p (view s p) else view s p) (s : σ) :
    ∃ s', forLoop size N tile 0 s = some s' ∧
      ∀ p, view s' p = if p < N then solve p (view s p) else view s p := by
  let Inv : Nat → σ → Prop := fun j t =>
    ∀ p, view t p = if p < j then solve p (view s p) else view s p
  have hbody : ∀ j t, size ∣ j → j + size ≤ N → Inv j t →
      ∃ t', tile j t = some t' ∧ Inv (j + size) t' := by
    intro j t hdvd hj hinv
    obtain ⟨t', hrun, ht'⟩ := htile j t hdvd hj
    refine ⟨t', hrun, fun p => ?_⟩
    rw [ht', hinv]
    split_ifs <;> first | rfl | omega
  exact forLoop_of_dvd Inv hsize hdvd hbody fun p => by simp

/-- Repeating such a loop solves every cell as often. -/
theorem forLoop_cells_runs {run : σ → Option σ}
    (hrun : ∀ s, ∃ s', run s = some s' ∧
      ∀ p, view s' p = if p < N then solve p (view s p) else view s p) (n : Nat) (s : σ) :
    ∃ s', forLoop 1 n (fun _ s => run s) 0 s = some s' ∧
      ∀ p, view s' p = if p < N then (solve p)^[n] (view s p) else view s p := by
  let Inv : Nat → σ → Prop := fun j t =>
    ∀ p, view t p = if p < N then (solve p)^[j] (view s p) else view s p
  have hbody : ∀ j t, 1 ∣ j → j + 1 ≤ n → Inv j t → ∃ t', run t = some t' ∧ Inv (j + 1) t' := by
    intro j t _ _ hinv
    obtain ⟨t', hstep, ht'⟩ := hrun t
    refine ⟨t', hstep, fun p => ?_⟩
    rw [ht', hinv]
    by_cases hp : p < N
    · rw [if_pos hp, if_pos hp, if_pos hp, Function.iterate_succ_apply']
    · rw [if_neg hp, if_neg hp, if_neg hp]
  exact forLoop_of_dvd Inv Nat.one_pos (Nat.one_dvd n) hbody fun p => by simp

end Cells

end VecCore.Foundation
