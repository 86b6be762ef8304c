/-
  Foundation/Grid.lean --- row-major sweeps of a two-dimensional array.

  `sweep` fills an `nx * ny` array stored row by row, computing `V` consecutive
  cells of a row at a time.  A row whose length is not a multiple of `V` ends
  with a tile that runs over into the following rows; since the rows are taken
  in order, later rows repair what an earlier one spilled, and only the spill of
  the last row remains visible, beyond the array.
-/
import VecCore.Foundation.Loop
import VecCore.Foundation.Store

set_option autoImplicit false

namespace VecCore.Foundation

variable {α : Type*}

/-- `for (i = 0; i < nx; ++i) for (j = 0; j < ny; j += V)`, storing the lanes of
`tile(i, j)` from index `ny * i + j` on. -/
def sweep (V nx ny : Nat) (tile : Nat → Nat → Option (Lanes V α)) (s : Store α) :
    Option (Store α) :=
  forLoop 1 nx (fun i s =>
    forLoop V ny (fun j s => (tile i j).map (s.writeLanes (ny * i + j))) 0 s) 0 s

/-- `for (i = 0; i < nx; ++i) for (j = 0; j < ny; ++j) array[ny * i + j] = cell(i, j)`. -/
def sweepCells (nx ny : Nat) (cell : Nat → Nat → Option α) (s : Store α) :
    Option (Store α) :=
  forLoop 1 nx (fun i s =>
    forLoop 1 ny (fun j s => (cell i j).map (s.write (ny * i + j))) 0 s) 0 s

/-- A cell-by-cell sweep is a sweep in tiles of one lane. -/
theorem sweepCells_eq_sweep (nx ny : Nat) (cell : Nat → Nat → Option α)
    (s : Store α) :
    sweepCells nx ny cell s =
      sweep 1 nx ny (fun i j => (cell i j).map splat) s := by
  simp only [sweepCells, sweep, Option.map_map]
  rfl

/-- The first multiple of `V` that is not below `n`. -/
def roundUp (V n : Nat) : Nat := n + (V - n % V) % V

theorem roundUp_of_dvd {V n : Nat} (h : V ∣ n) : roundUp V n = n := by
  simp [roundUp, Nat.mod_eq_zero_of_dvd h]

theorem roundUp_of_not_dvd {V n : Nat} (hV : 0 < V) (h : ¬ V ∣ n) :
    roundUp V n = n + (V - n % V) := by
  have hpos : 0 < n % V := Nat.pos_of_ne_zero fun h0 => h (Nat.dvd_of_mod_eq_zero h0)
  rw [roundUp, Nat.mod_eq_of_lt (by omega)]

/-- A tiled loop to `n` stops at `roundUp V n`. -/
theorem eq_roundUp {V n j : Nat} (hV : 0 < V) (hdvd : V ∣ j) (hle : n ≤ j)
    (hlt : j < n + V) : j = roundUp V n := by
  have hmod := Nat.mod_lt n hV
  have hdiv := Nat.div_add_mod n V
  obtain ⟨q, rfl⟩ := hdvd
  by_cases h0 : V ∣ n
  · rw [roundUp_of_dvd h0]
    obtain ⟨p, rfl⟩ := h0
    have h1 : p ≤ q := Nat.le_of_mul_le_mul_left hle hV
    have h2 : q < p + 1 := Nat.lt_of_mul_lt_mul_left (a := V) (by rwa [Nat.mul_succ])
    rw [show q = p by omega]
  · have hpos : 0 < n % V := Nat.pos_of_ne_zero fun h => h0 (Nat.dvd_of_mod_eq_zero h)
    rw [roundUp_of_not_dvd hV h0]
    have h1 : n / V < q := Nat.lt_of_mul_lt_mul_left (a := V) (by omega)
    have h2 : q < n / V + 2 := Nat.lt_of_mul_lt_mul_left (a := V) (by
      rw [Nat.mul_add]
      omega)
    rw [show q = n / V + 1 by omega, Nat.mul_succ]
    omega

section Sweep

variable {V nx ny : Nat} {tile : Nat → Nat → Option (Lanes V α)}
  {P : Nat → Nat → α → Prop}

/-- One row.  Cells before the row are kept, cells of the row satisfy `P`, and the
assigned indices are those of the row rounded up to whole tiles. -/
theorem sweep_row (hV : 0 < V) {i : Nat}
    (htile : ∀ j, j < ny → ∃ v, tile i j = some v ∧ ∀ k : Fin V, j + k < ny →
      P i (j + k) (v k)) (s : Store α) :
    ∃ s', forLoop V ny (fun j s => (tile i j).map (s.writeLanes (ny * i + j))) 0 s =
        some s' ∧
      (∀ a, a < ny * i → s'.cell a = s.cell a) ∧
      (∀ j, j < ny → P i j (s'.cell (ny * i + j))) ∧
      ∀ a, a ∈ s'.log ↔ a ∈ s.log ∨ ny * i ≤ a ∧ a < ny * i + roundUp V ny := by
  let Inv : Nat → Store α → Prop := fun j t =>
    V ∣ j ∧ j < ny + V ∧ (∀ a, a < ny * i → t.cell a = s.cell a) ∧
      (∀ j', j' < j → j' < ny → P i j' (t.cell (ny * i + j'))) ∧
      ∀ a, a ∈ t.log ↔ a ∈ s.log ∨ ny * i ≤ a ∧ a < ny * i + j
  have hbody : ∀ j t, j < ny → Inv j t → ∃ t',
      (tile i j).map (t.writeLanes (ny * i + j)) = some t' ∧ Inv (j + V) t' := by
    rintro j t hj ⟨hdvd, hlt, hbefore, hrow, hlog⟩
    obtain ⟨v, hv, hval⟩ := htile j hj
    refine ⟨t.writeLanes (ny * i + j) v, by rw [hv]; rfl, (Nat.dvd_add_self_right).mpr hdvd,
      by omega, ?_, ?_, ?_⟩
    · intro a ha
      rw [t.writeLanes_cell_of_not_mem _ _ (.inl (by omega)), hbefore a ha]
    · intro j' hj' hny
      rcases Nat.lt_or_ge j' j with hold | hnew
      · rw [t.writeLanes_cell_of_not_mem _ _ (.inl (by omega))]
        exact hrow j' hold hny
      · -- the cell is lane `j' - j` of the tile just stored
        obtain ⟨k, rfl⟩ := Nat.exists_eq_add_of_le hnew
        have hk : k < V := by omega
        have hlane : (t.writeLanes (ny * i + j) v).cell (ny * i + j + k) = v ⟨k, hk⟩ :=
          t.writeLanes_cell (ny * i + j) v ⟨k, hk⟩
        rw [← Nat.add_assoc, hlane]
        exact hval ⟨k, hk⟩ hny
    · intro a
      rw [t.mem_writeLanes_log, hlog, or_assoc]
      exact or_congr_right (by omega)
  have hinit : Inv 0 s :=
    ⟨Nat.dvd_zero V, by omega, fun _ _ => rfl, fun j' h => absurd h (Nat.not_lt_zero j'),
      fun a => (or_iff_left (by omega)).symm⟩
  obtain ⟨j, s', hrun, hle, hdvd, hlt, hbefore, hrow, hlog⟩ :=
    forLoop_invariant Inv hV hbody hinit
  obtain rfl := eq_roundUp hV hdvd hle hlt
  exact ⟨s', hrun, hbefore, fun j hj => hrow j (by omega) hj, hlog⟩

/-- The whole sweep.  Every cell of the array satisfies what the lane computed for
its row and column does, and the assigned indices are the rounded-up rows. -/
theorem sweep_spec (hV : 0 < V)
    (htile : ∀ i j, i < nx → j < ny → ∃ v, tile i j = some v ∧
      ∀ k : Fin V, j + k < ny → P i (j + k) (v k)) (s : Store α) :
    ∃ s', sweep V nx ny tile s = some s' ∧
      (∀ i j, i < nx → j < ny → P i j (s'.cell (ny * i + j))) ∧
      ∀ a, a ∈ s'.log ↔ a ∈ s.log ∨
        ∃ i, i < nx ∧ ny * i ≤ a ∧ a < ny * i + roundUp V ny := by
  let Inv : Nat → Store α → Prop := fun i t => i ≤ nx ∧
    (∀ i' j, i' < i → j < ny → P i' j (t.cell (ny * i' + j))) ∧
      ∀ a, a ∈ t.log ↔ a ∈ s.log ∨
        ∃ i', i' < i ∧ ny * i' ≤ a ∧ a < ny * i' + roundUp V ny
  have hbody : ∀ i t, i < nx → Inv i t → ∃ t',
      forLoop V ny (fun j s => (tile i j).map (s.writeLanes (ny * i + j))) 0 t =
        some t' ∧ Inv (i + 1) t' := by
    rintro i t hi ⟨-, hrows, hlog⟩
    obtain ⟨t', hrun, hbefore, hrow, hlog'⟩ :=
      sweep_row hV (fun j hj => htile i j hi hj) t
    refine ⟨t', hrun, hi, ?_, ?_⟩
    · intro i' j hi' hj
      rcases Nat.lt_or_ge i' i with hold | hnew
      · -- an earlier row lies entirely before this one
        have hle : ny * (i' + 1) ≤ ny * i := Nat.mul_le_mul_left ny hold
        rw [Nat.mul_succ] at hle
        rw [hbefore _ (by omega)]
        exact hrows i' j hold hj
      · obtain rfl : i' = i := by omega
        exact hrow j hj
    · intro a
      rw [hlog', hlog]
      constructor
      · rintro ((h | ⟨i', h, h1, h2⟩) | ⟨h1, h2⟩)
        · exact .inl h
        · exact .inr ⟨i', by omega, h1, h2⟩
        · exact .inr ⟨i, by omega, h1, h2⟩
      · rintro (h | ⟨i', h, h1, h2⟩)
        · exact .inl (.inl h)
        · rcases Nat.lt_or_ge i' i with hold | hnew
          · exact .inl (.inr ⟨i', hold, h1, h2⟩)
          · obtain rfl : i' = i := by omega
            exact .inr ⟨h1, h2⟩
  have hinit : Inv 0 s :=
    ⟨Nat.zero_le nx, fun i' _ h => absurd h (Nat.not_lt_zero i'), fun a => by simp⟩
  obtain ⟨i, s', hrun, hle, hi, hrows, hlog⟩ :=
    forLoop_invariant Inv Nat.one_pos hbody hinit
  obtain rfl : i = nx := by omega
  exact ⟨s', hrun, fun i j => hrows i j, hlog⟩

end Sweep

/-- Every index of the array is the index of its row and column. -/
theorem index_eq {nx ny p : Nat} (hp : p < nx * ny) :
    p / ny < nx ∧ p % ny < ny ∧ ny * (p / ny) + p % ny = p := by
  have hny : 0 < ny := Nat.pos_of_ne_zero fun h => by simp [h] at hp
  exact ⟨Nat.div_lt_of_lt_mul (by rwa [Nat.mul_comm] at hp), Nat.mod_lt p hny,
    Nat.div_add_mod p ny⟩

/-- The index of a cell gives its row and column. -/
theorem cell_index {ny i j : Nat} (hj : j < ny) :
    (ny * i + j) / ny = i ∧ (ny * i + j) % ny = j := by
  rw [Nat.mul_add_div (Nat.zero_lt_of_lt hj), Nat.div_eq_of_lt hj, Nat.add_zero,
    Nat.mul_add_mod, Nat.mod_eq_of_lt hj]
  exact ⟨rfl, rfl⟩

theorem cell_lt {nx ny i j : Nat} (hi : i < nx) (hj : j < ny) : ny * i + j < nx * ny := by
  have hrow : ny * (i + 1) ≤ ny * nx := Nat.mul_le_mul_left ny hi
  rw [Nat.mul_succ, Nat.mul_comm ny nx] at hrow
  omega

/-- The indices of rounded-up rows that lie beyond the array are those the last
row spills: there are none when `V` divides the row length, and `V - ny % V`
consecutive ones otherwise. -/
theorem spill_iff {V nx ny : Nat} (hV : 0 < V) (hnx : 0 < nx) (a : Nat) :
    (nx * ny ≤ a ∧ ∃ i, i < nx ∧ ny * i ≤ a ∧ a < ny * i + roundUp V ny) ↔
      ¬ V ∣ ny ∧ nx * ny ≤ a ∧ a < nx * ny + (V - ny % V) := by
  have hlast : ny * (nx - 1) + ny = nx * ny := by
    rw [← Nat.mul_succ, Nat.succ_eq_add_one, Nat.sub_add_cancel hnx, Nat.mul_comm]
  constructor
  · rintro ⟨ha, i, hi, h1, h2⟩
    have hrow : ny * i + ny ≤ nx * ny := by
      rw [← Nat.mul_succ, Nat.mul_comm nx]
      exact Nat.mul_le_mul_left ny hi
    by_cases hdvd : V ∣ ny
    · rw [roundUp_of_dvd hdvd] at h2
      omega
    · rw [roundUp_of_not_dvd hV hdvd] at h2
      exact ⟨hdvd, ha, by omega⟩
  · rintro ⟨hdvd, ha, h⟩
    refine ⟨ha, nx - 1, by omega, by omega, ?_⟩
    rw [roundUp_of_not_dvd hV hdvd]
    omega

/-- `log` holds an index beyond the `nx * ny` array exactly when `V` does not
divide `ny`, and then holds exactly the next `V - ny % V` ones. -/
def SpillsLastRow (V nx ny : Nat) (log : List Nat) : Prop :=
  ((∃ a ∈ log, nx * ny ≤ a) ↔ ¬ V ∣ ny) ∧
    (¬ V ∣ ny → ∀ a, (a ∈ log ∧ nx * ny ≤ a) ↔
      nx * ny ≤ a ∧ a ≤ nx * ny + V - ny % V - 1)

theorem spillsLastRow_of_log {V nx ny : Nat} (hV : 0 < V) (hnx : 0 < nx)
    {log : List Nat}
    (hlog : ∀ a, a ∈ log ↔ ∃ i, i < nx ∧ ny * i ≤ a ∧ a < ny * i + roundUp V ny) :
    SpillsLastRow V nx ny log := by
  have hbeyond : ∀ a, (a ∈ log ∧ nx * ny ≤ a) ↔
      ¬ V ∣ ny ∧ nx * ny ≤ a ∧ a < nx * ny + (V - ny % V) := by
    intro a
    rw [← spill_iff hV hnx, hlog, and_comm]
  have hmod := Nat.mod_lt ny hV
  refine ⟨⟨?_, ?_⟩, ?_⟩
  · rintro ⟨a, ha, hle⟩
    exact ((hbeyond a).mp ⟨ha, hle⟩).1
  · intro hdvd
    exact ⟨nx * ny, (hbeyond (nx * ny)).mpr ⟨hdvd, Nat.le_refl _, by omega⟩⟩
  · intro hdvd a
    rw [hbeyond]
    constructor
    · rintro ⟨-, hle, hlt⟩
      exact ⟨hle, by omega⟩
    · rintro ⟨hle, hlt⟩
      exact ⟨hdvd, hle, by omega⟩

/-- The rows of a sweep whose tiles fit are the array. -/
theorem rows_iff {V nx ny : Nat} (hdvd : V ∣ ny) (a : Nat) :
    (∃ i, i < nx ∧ ny * i ≤ a ∧ a < ny * i + roundUp V ny) ↔ a < nx * ny := by
  rw [roundUp_of_dvd hdvd]
  constructor
  · rintro ⟨i, hi, -, h⟩
    have hrow : ny * i + ny ≤ nx * ny := by
      rw [← Nat.mul_succ, Nat.mul_comm nx]
      exact Nat.mul_le_mul_left ny hi
    omega
  · intro h
    obtain ⟨hi, hj, hidx⟩ := index_eq h
    exact ⟨a / ny, hi, by omega, by omega⟩

/-- A cell-by-cell sweep whose cells are all defined assigns each one once, and no other. -/
theorem sweepCells_count (nx ny : Nat) (cell : Nat → Nat → α) (s : Store α) :
    ∃ s', sweepCells nx ny (fun i j => some (cell i j)) s = some s' ∧
      ∀ a, s'.log.count a = s.log.count a + if a < nx * ny then 1 else 0 := by
  have hrow : ∀ i (s : Store α), ∃ s',
      forLoop 1 ny (fun j s => (some (cell i j)).map (s.write (ny * i + j))) 0 s = some s' ∧
      ∀ a, s'.log.count a = s.log.count a + if ny * i ≤ a ∧ a < ny * i + ny then 1 else 0 := by
    intro i s
    refine forLoop_of_dvd (fun j (t : Store α) => ∀ a, t.log.count a =
      s.log.count a + if ny * i ≤ a ∧ a < ny * i + j then 1 else 0) Nat.one_pos (Nat.one_dvd ny)
      (fun j t _ _ ht => ⟨_, rfl, fun a => ?_⟩) fun a => by simp
    rw [Store.write_log, List.count_cons, ht a]
    simp only [beq_iff_eq]
    split_ifs <;> omega
  refine forLoop_of_dvd (fun i (t : Store α) => ∀ a, t.log.count a =
    s.log.count a + if a < i * ny then 1 else 0) Nat.one_pos (Nat.one_dvd nx)
    (fun i t _ _ ht => ?_) fun a => by simp
  obtain ⟨t', hrun, hcount⟩ := hrow i t
  refine ⟨t', hrun, fun a => ?_⟩
  rw [hcount, ht, Nat.succ_mul, Nat.mul_comm ny i]
  split_ifs <;> omega

/-- A cell-by-cell sweep whose cells are all defined leaves each one in its place. -/
theorem sweepCells_cell {nx ny : Nat} {cell : Nat → Nat → Option α}
    (hcell : ∀ i j, i < nx → j < ny → ∃ x, cell i j = some x) (init : Nat → α) :
    ∃ s, sweepCells nx ny cell (Store.fresh init) = some s ∧
      ∀ i j, i < nx → j < ny → cell i j = some (s.cell (ny * i + j)) := by
  have htile : ∀ i j, i < nx → j < ny → ∃ v, (cell i j).map splat = some v ∧
      ∀ k : Fin 1, j + k < ny → cell i (j + k) = some (v k) := by
    intro i j hi hj
    obtain ⟨x, hx⟩ := hcell i j hi hj
    exact ⟨splat x, by rw [hx]; rfl, fun k _ => by simpa using hx⟩
  obtain ⟨s, hrun, hs, -⟩ := sweep_spec (P := fun i j x => cell i j = some x)
    Nat.one_pos htile (Store.fresh init)
  exact ⟨s, by rw [sweepCells_eq_sweep]; exact hrun, hs⟩

/-- A tiled sweep computes, cell by cell, what the cell-by-cell sweep does, whatever
the arrays held before, and assigns the cells of the rounded-up rows. -/
theorem sweep_agrees {V : Nat} (hV : 0 < V) (nx ny : Nat)
    (tile : Nat → Nat → Option (Lanes V α)) (cell : Nat → Nat → Option α)
    (htile : ∀ i j, i < nx → j < ny → ∃ v, tile i j = some v ∧
      ∀ k : Fin V, cell i (j + k) = some (v k)) (init initV : Nat → α) :
    ∃ s sv, sweepCells nx ny cell (Store.fresh init) = some s ∧
      sweep V nx ny tile (Store.fresh initV) = some sv ∧
      (∀ p, p < nx * ny →
        cell (p / ny) (p % ny) = some (s.cell p) ∧ sv.cell p = s.cell p) ∧
      ∀ a, a ∈ sv.log ↔ ∃ i, i < nx ∧ ny * i ≤ a ∧ a < ny * i + roundUp V ny := by
  have hcell : ∀ i j, i < nx → j < ny → ∃ x, cell i j = some x := by
    intro i j hi hj
    obtain ⟨v, -, hv⟩ := htile i j hi hj
    exact ⟨v ⟨0, hV⟩, hv ⟨0, hV⟩⟩
  obtain ⟨s, hrun, hs⟩ := sweepCells_cell hcell init
  obtain ⟨sv, hrunV, hsv, hlog⟩ := sweep_spec (P := fun i j x => cell i j = some x) hV
    (fun i j hi hj => (htile i j hi hj).imp fun v hv => ⟨hv.1, fun k _ => hv.2 k⟩)
    (Store.fresh initV)
  refine ⟨s, sv, hrun, hrunV, ?_, ?_⟩
  · intro p hp
    obtain ⟨hi, hj, hidx⟩ := index_eq hp
    have h1 := hs _ _ hi hj
    have h2 := hsv _ _ hi hj
    rw [hidx] at h1 h2
    exact ⟨h1, Option.some.inj (h2.symm.trans h1)⟩
  · intro a
    rw [hlog, Store.fresh_log]
    simp

/-- The same for an image of colors: each cell holds the color of what its pixel computes. -/
theorem sweep_colors {β : Type*} {V : Nat} (hV : 0 < V) (nx ny : Nat) (color : β → α)
    {tile : Nat → Nat → Option (Lanes V α)} {pixel : Nat → Nat → Option β}
    (htile : ∀ i j, i < nx → j < ny → ∃ v, tile i j = some v ∧
      ∀ k : Fin V, ∃ s, pixel i (j + k) = some s ∧ v k = color s) (init initV : Nat → α) :
    ∃ image imageV,
      sweepCells nx ny (fun i j => (pixel i j).map color) (Store.fresh init) = some image ∧
      sweep V nx ny tile (Store.fresh initV) = some imageV ∧
      (∀ p, p < nx * ny → ∃ s, pixel (p / ny) (p % ny) = some s ∧
        image.cell p = color s ∧ imageV.cell p = color s) ∧
      ∀ a, a ∈ imageV.log ↔ ∃ i, i < nx ∧ ny * i ≤ a ∧ a < ny * i + roundUp V ny := by
  have hcolor : ∀ i j, i < nx → j < ny → ∃ v, tile i j = some v ∧
      ∀ k : Fin V, (pixel i (j + k)).map color = some (v k) := by
    intro i j hi hj
    obtain ⟨v, hv, hlanes⟩ := htile i j hi hj
    refine ⟨v, hv, ?_⟩
    intro k
    obtain ⟨s, hs, hval⟩ := hlanes k
    rw [hs, hval, Option.map_some]
  obtain ⟨image, imageV, hrun, hrunV, hcells, hlog⟩ :=
    sweep_agrees hV nx ny tile (fun i j => (pixel i j).map color) hcolor init initV
  refine ⟨image, imageV, hrun, hrunV, ?_, hlog⟩
  intro p hp
  obtain ⟨hcell, hsame⟩ := hcells p hp
  obtain ⟨s, hs, hval⟩ := Option.map_eq_some_iff.mp hcell
  exact ⟨s, hs, hval.symm, hsame.trans hval.symm⟩

/-- The cells of two such images, by row and column. -/
theorem colors_cell {β : Type*} {nx ny : Nat} {color : β → α} {pixel : Nat → Nat → Option β}
    {image imageV : Store α}
    (h : ∀ p, p < nx * ny → ∃ s, pixel (p / ny) (p % ny) = some s ∧
      image.cell p = color s ∧ imageV.cell p = color s) {i j : Nat} (hi : i < nx) (hj : j < ny) :
    (pixel i j).map color = some (image.cell (ny * i + j)) ∧
      imageV.cell (ny * i + j) = image.cell (ny * i + j) := by
  obtain ⟨s, hs, hval, hvalV⟩ := h _ (cell_lt hi hj)
  rw [(cell_index hj).1, (cell_index hj).2] at hs
  exact ⟨by rw [hs, Option.map_some, hval], hvalV.trans hval.symm⟩

/-- Pixels of one color are cells of one color in both images. -/
theorem colors_same {β : Type*} {nx ny : Nat} {color : β → α} {pixel : Nat → Nat → Option β}
    {image imageV : Store α}
    (h : ∀ p, p < nx * ny → ∃ s, pixel (p / ny) (p % ny) = some s ∧
      image.cell p = color s ∧ imageV.cell p = color s) {i j i' j' : Nat} (hi : i < nx)
    (hj : j < ny) (hi' : i' < nx) (hj' : j' < ny)
    (hsame : (pixel i' j').map color = (pixel i j).map color) :
    image.cell (ny * i' + j') = image.cell (ny * i + j) ∧
      imageV.cell (ny * i' + j') = imageV.cell (ny * i + j) := by
  obtain ⟨hcell, hV⟩ := colors_cell h hi hj
  obtain ⟨hcell', hV'⟩ := colors_cell h hi' hj'
  have himage := Option.some.inj (hcell'.symm.trans (hsame.trans hcell))
  exact ⟨himage, hV'.trans (himage.trans hV.symm)⟩

/-- It spills only the last row's last tile. -/
theorem sweep_eq_sweepCells {V : Nat} (hV : 0 < V) (nx ny : Nat)
    (tile : Nat → Nat → Option (Lanes V α)) (cell : Nat → Nat → Option α)
    (htile : ∀ i j, i < nx → j < ny → ∃ v, tile i j = some v ∧
      ∀ k : Fin V, cell i (j + k) = some (v k)) (init initV : Nat → α) :
    ∃ s sv, sweepCells nx ny cell (Store.fresh init) = some s ∧
      sweep V nx ny tile (Store.fresh initV) = some sv ∧
      (∀ p, p < nx * ny →
        cell (p / ny) (p % ny) = some (s.cell p) ∧ sv.cell p = s.cell p) ∧
      (0 < nx → SpillsLastRow V nx ny sv.log) := by
  obtain ⟨s, sv, hrun, hrunV, hcells, hlog⟩ :=
    sweep_agrees hV nx ny tile cell htile init initV
  exact ⟨s, sv, hrun, hrunV, hcells, fun hnx => spillsLastRow_of_log hV hnx hlog⟩

end VecCore.Foundation
