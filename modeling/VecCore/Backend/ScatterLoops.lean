/-
  Backend/ScatterLoops.lean --- Gather and Scatter over arrays, tile by tile.

  The lanes of a Scatter are written in order and the tiles one after the other, so
  that a loop of Scatters is one Scatter of the whole array, however many lanes it
  has.  A loop that adds to what it gathers is not: of the lanes of a tile that have
  one index only the last is added.
-/
import VecCore.Backend.Scalar
import VecCore.Backend.ScatterGather
import VecCore.Foundation.TileMap
import Mathlib.Algebra.BigOperators.Fin
import Mathlib.Algebra.Group.Pi.Basic

set_option autoImplicit false

namespace VecCore

open VecCore.Foundation

variable {α β : Type}

/-! ## The loops -/

section Loops

variable [Zero β] (V n : Nat) (index : Nat → β) (position : β → Option Int)

/-- `for (j = 0; j < n; j += VectorSize<T>())
Scatter(Load<T>(&value[j]), ptr, Load<Index<T>>(&index[j]))`. -/
def scatterLoop [Zero α] (value : Nat → α) (ptr : Region α) : Option (Region α) :=
  forLoop V n (fun j ptr =>
    scatter (load (splat 0 : Lanes V α) value j) ptr 0 position (load (splat 0) index j)) 0 ptr

/-- The loop of `Store(Gather<T>(ptr, Load<Index<T>>(&index[j])), &out[j])`. -/
def gatherLoop [Zero α] (ptr : Region α) (out : Nat → α) : Option (Nat → α) :=
  forLoop V n (fun j out =>
    (gather ptr 0 position (load (splat 0 : Lanes V β) index j)).map fun v => store v out j) 0 out

/-- The loop of `Scatter(Gather<T>(ptr, idx) + Load<T>(&value[j]), ptr, idx)`. -/
def scatterAddLoop [AddCommGroup α] (value : Nat → α) (ptr : Region α) : Option (Region α) :=
  forLoop V n (fun j ptr =>
    (gather ptr 0 position (load (splat 0 : Lanes V β) index j)).bind fun v =>
      scatter (v + load (splat 0) value j) ptr 0 position (load (splat 0) index j)) 0 ptr

end Loops

namespace Scalar

variable [Zero α] (n : Nat) (index : Nat → Nat)

/-- The loop of Scatters with the Scalar backend. -/
def scatterLoop (value : Nat → α) (ptr : Region α) : Option (Region α) :=
  forLoop 1 n (fun j ptr => scatter (load 0 value j) ptr (load 0 index j)) 0 ptr

/-- The loop of Gathers with the Scalar backend. -/
def gatherLoop (ptr : Region α) (out : Nat → α) : Option (Nat → α) :=
  forLoop 1 n (fun j out =>
    (gatherInto 0 ptr (load 0 index j)).map fun v => store v out j) 0 out

/-- The loop that adds, with the Scalar backend. -/
def scatterAddLoop [Add α] (value : Nat → α) (ptr : Region α) : Option (Region α) :=
  forLoop 1 n (fun j ptr =>
    (gatherInto 0 ptr (load 0 index j)).bind fun v =>
      scatter (v + load 0 value j) ptr (load 0 index j)) 0 ptr

end Scalar

/-! ## Scatter -/

section Scatter

variable [Zero α] [Zero β] {V n : Nat} {index : Nat → β} {position : β → Option Int}
  {q : Nat → Nat}

/-- A loop of Scatters is a Scatter of the whole array. -/
theorem scatterLoop_eq (hV : 0 < V) (hdvd : V ∣ n) (value : Nat → α) (ptr : Region α) :
    scatterLoop V n index position value ptr =
      scatter (fun i : Fin n => value i) ptr 0 position (fun i => index i) := by
  let body : Nat → Region α → Option (Region α) := fun p ptr =>
    (position (index p)).bind fun a => ptr.write ((0 : Nat) + a) (value p)
  have hloop := forLoop_lanes body hV hdvd ptr
  rw [← forLanes?_eq_forLoop] at hloop
  simp only [scatterLoop, scatter, get_eq, load_apply]
  exact hloop

/-- So it is with the Scalar backend. -/
theorem Scalar.scatterLoop_eq (hindex : ∀ p < n, position (index p) = some (q p : Int))
    (value : Nat → α) (ptr : Region α) :
    Scalar.scatterLoop n q value ptr =
      VecCore.scatter (fun i : Fin n => value i) ptr 0 position (fun i => index i) := by
  rw [← VecCore.scatterLoop_eq Nat.one_pos (Nat.one_dvd n)]
  refine forLoop_congr Nat.one_pos (fun p _ hp => funext fun ptr => ?_) (Nat.dvd_zero 1) ptr
  have hpos : position (VecCore.load (splat 0 : Lanes 1 β) index p 0) = some (q p : Int) := by
    rw [load_apply]
    exact hindex p hp
  show ptr.write (q p) (value p) = Option.bind (position _) _
  rw [get_eq, show Fin.last 0 = 0 from rfl, hpos, Option.bind_some, get_eq, load_apply,
    Nat.cast_zero, zero_add]
  rfl

end Scatter

/-! ## Gather -/

/-- A loop that writes the elements of its tiles. -/
theorem forLoop_fill (f : Nat → α) {size n : Nat} {tile : Nat → (Nat → α) → Option (Nat → α)}
    (hsize : 0 < size) (hdvd : size ∣ n)
    (htile : ∀ j t, j + size ≤ n → ∃ t', tile j t = some t' ∧ ∀ p,
      t' p = if j ≤ p ∧ p < j + size then f p else t p) (out : Nat → α) :
    forLoop size n tile 0 out = some fun p => if p < n then f p else out p := by
  obtain ⟨t, hrun, ht⟩ := forLoop_cells (fun t p => t p) (fun p _ => f p) hsize hdvd
    (fun j t _ => htile j t) out
  rw [hrun, funext ht]

section Gather

variable [Zero α] [Zero β] {V n : Nat} {index : Nat → β} {position : β → Option Int}
  {q : Nat → Nat} (hindex : ∀ p < n, position (index p) = some (q p : Int)) {ptr : Region α}
  (hq : ∀ p < n, q p < ptr.size)

include hindex hq

/-- The Gather of a tile. -/
theorem gather_tile {j : Nat} (hj : j + V ≤ n) :
    gather ptr 0 position (load (splat 0 : Lanes V β) index j) =
      some fun i : Fin V => ptr.cell (q (j + i)) := by
  have hlt : ∀ i : Fin V, j + i < n := fun i => by omega
  refine gatherInto_eq _ (fun i => ⟨q (j + i), ?_, ?_⟩) fun i => hq _ (hlt i)
  · rw [load_apply]
    exact hindex _ (hlt i)
  · rw [Nat.cast_zero, zero_add]

/-- A loop of Gathers copies the cells. -/
theorem gatherLoop_eq (hV : 0 < V) (hdvd : V ∣ n) (out : Nat → α) :
    gatherLoop V n index position ptr out =
      some fun p => if p < n then ptr.cell (q p) else out p := by
  refine forLoop_fill (fun p => ptr.cell (q p)) hV hdvd (fun j t hj => ?_) out
  rw [gather_tile hindex hq hj, Option.map_some]
  refine ⟨_, rfl, fun p => ?_⟩
  split
  · rename_i hin
    obtain ⟨i, rfl⟩ : ∃ i : Fin V, p = j + i :=
      ⟨⟨p - j, Nat.sub_lt_left_of_lt_add hin.1 hin.2⟩, (Nat.add_sub_cancel' hin.1).symm⟩
    exact store_apply _ t j i
  · exact store_of_not_mem _ t j (by omega)

omit hindex [Zero β] in
/-- So it is with the Scalar backend. -/
theorem Scalar.gatherLoop_eq (out : Nat → α) :
    Scalar.gatherLoop n q ptr out = some fun p => if p < n then ptr.cell (q p) else out p := by
  refine forLoop_fill (fun p => ptr.cell (q p)) Nat.one_pos (Nat.one_dvd n)
    (fun j t hj => ?_) out
  have hgather : Scalar.gatherInto 0 ptr (q j) = some (ptr.cell (q j)) :=
    Scalar.gatherInto_eq 0 (hq j hj)
  refine ⟨_, congrArg (Option.map _) hgather, fun p => ?_⟩
  show Function.update t j (ptr.cell (q j)) p = _
  rcases eq_or_ne p j with rfl | hne
  · rw [Function.update_self, if_pos (by omega)]
  · rw [Function.update_of_ne hne, if_neg (by omega)]

end Gather

/-! ## Scatter, then Gather -/

/-- Values are scattered to the places that an array of indices gives, and gathered from
there.  How many lanes either loop has does not matter, nor does it show if an index is
out of range; otherwise every place holds the last value sent to it, and the values are
read back exactly if equal indices have equal values. -/
theorem scatterLoop_gatherLoop [Zero α] [Zero β] {V W n : Nat} (hV : 0 < V) (hW : 0 < W)
    (hVn : V ∣ n) (hWn : W ∣ n) {index : Nat → β} {position : β → Option Int} {q : Nat → Nat}
    (hindex : ∀ p < n, position (index p) = some (q p : Int)) (value : Nat → α)
    (ptr : Region α) (out : Nat → α) :
    scatterLoop V n index position value ptr = Scalar.scatterLoop n q value ptr ∧
      ((∀ p < n, q p < ptr.size) → ∃ ptr' out',
        scatterLoop V n index position value ptr = some ptr' ∧
          gatherLoop W n index position ptr' out = some out' ∧
          Scalar.gatherLoop n q ptr' out = some out' ∧
          (∀ p, n ≤ p → out' p = out p) ∧
          ScattersAndGathers (fun i : Fin n => value i) (fun i => q i) ptr ptr'
            fun i => out' i) := by
  have hscatter : scatterLoop V n index position value ptr =
      scatter (fun i : Fin n => value i) ptr 0 position (fun i => index i) :=
    scatterLoop_eq hV hVn value ptr
  refine ⟨hscatter.trans (Scalar.scatterLoop_eq hindex value ptr).symm, fun hq => ?_⟩
  obtain ⟨ptr', hrun, hlaws⟩ : ∃ ptr',
      scatter (fun i : Fin n => value i) ptr 0 position (fun i => index i) = some ptr' ∧
        ScattersAndGathers (fun i : Fin n => value i) (fun i => q i) ptr ptr'
          fun i => ptr'.cell (q i) :=
    ⟨_, scatter_eq _ (fun i => ⟨q i, hindex i i.isLt, by rw [Nat.cast_zero, zero_add]⟩)
      fun i => hq i i.isLt, forLanes_scattersAndGathers _ _ ptr⟩
  have hq' : ∀ p < n, q p < ptr'.size := fun p hp => hlaws.size ▸ hq p hp
  refine ⟨ptr', _, hscatter.trans hrun, gatherLoop_eq hindex hq' hW hWn out,
    Scalar.gatherLoop_eq hq' out, fun p hp => if_neg (Nat.not_lt.mpr hp), ?_⟩
  have hread : (fun i : Fin n => if (i : Nat) < n then ptr'.cell (q i) else out i) =
      fun i : Fin n => ptr'.cell (q i) := funext fun i => if_pos i.isLt
  rw [hread]
  exact hlaws

/-- Four values reversed in tiles of two and read back in one of four. -/
theorem scatterLoop_gatherLoop_reversed :
    ∃ ptr' out', scatterLoop 2 4 (fun p => ((3 - p : Nat) : Int)) some (fun p => (p : Int))
          ⟨4, fun _ => 0⟩ = some ptr' ∧
        gatherLoop 4 4 (fun p => ((3 - p : Nat) : Int)) some ptr' (fun _ => 0) = some out' ∧
        (fun i : Fin 4 => out' i) = fun i : Fin 4 => (i : Int) := by
  obtain ⟨ptr', out', hscatter, hgather, -, -, hlaws⟩ :=
    (scatterLoop_gatherLoop (V := 2) (W := 4) (n := 4) (by decide) (by decide) (by decide)
      (by decide) (q := fun p => 3 - p) (fun _ _ => rfl) (fun p => (p : Int))
      ⟨4, fun _ => 0⟩ fun _ => 0).2 (by decide)
  exact ⟨ptr', out', hscatter, hgather, hlaws.readBack.mpr (by decide)⟩

/-! ## Scatter of sums -/

/-- A later lane of the tile has the same index. -/
def Overwritten (V : Nat) (q : Nat → Nat) (p : Nat) : Prop :=
  ∃ k, k < (p / V + 1) * V ∧ p < k ∧ q k = q p

instance (V : Nat) (q : Nat → Nat) (p : Nat) : Decidable (Overwritten V q p) :=
  inferInstanceAs (Decidable (∃ k, k < _ ∧ _))

/-- In a tile. -/
theorem overwritten_tile {V j : Nat} (hj : V ∣ j) (q : Nat → Nat) (i : Fin V) :
    ¬ Overwritten V q (j + i) ↔ ∀ k : Fin V, q (j + k) = q (j + i) → k ≤ i := by
  have hend : ((j + i) / V + 1) * V = j + V := by
    rw [Nat.add_mul, tile_start hj (Nat.le_add_right j i) (Nat.add_lt_add_left i.isLt j),
      Nat.one_mul]
  rw [Overwritten, hend]
  constructor
  · intro h k hk
    by_contra hlt
    exact h ⟨j + k, Nat.add_lt_add_left k.isLt j, Nat.add_lt_add_left (not_le.mp hlt) j, hk⟩
  · rintro h ⟨k, hkV, hk, heq⟩
    have hle := h ⟨k - j, by omega⟩ (by rw [← heq]; exact congrArg q (by simp; omega))
    have : k - j ≤ i := hle
    omega

/-- The lanes of a tile are added to what was gathered before, of those with one index
the last. -/
theorem forLanes_update_sum [AddCommMonoid α] {V : Nat} (q : Lanes V Nat) (v : Lanes V α)
    (w : Nat → α) (a : Nat) :
    forLanes V (fun i t => Function.update t (q i) (w (q i) + v i)) w a =
      w a + ∑ i, if q i = a ∧ ∀ k, q k = q i → k ≤ i then v i else 0 := by
  by_cases h : ∃ i, q i = a
  · obtain ⟨i, rfl⟩ := h
    obtain ⟨m, hm, hlast⟩ := exists_greatest_lane q i
    rw [← hm, forLanes_update_of_last V (fun i => w (q i) + v i) w hlast,
      Finset.sum_eq_single m, if_pos ⟨rfl, hlast⟩]
    · rintro b - hb
      exact if_neg fun ⟨hqb, hblast⟩ =>
        hb (le_antisymm (hlast b hqb) (hblast m hqb.symm))
    · exact fun hm' => absurd (Finset.mem_univ m) hm'
  · have hne : ∀ i, q i ≠ a := fun i hi => h ⟨i, hi⟩
    rw [forLanes_update_of_ne V (fun i _ => w (q i) + v i) w hne,
      Finset.sum_eq_zero fun i _ => if_neg fun hi => hne i hi.1, add_zero]

section ScatterAdd

variable [AddCommGroup α] {n : Nat} {q : Nat → Nat} (value : Nat → α) {ptr : Region α}
  (hq : ∀ p < n, q p < ptr.size)

/-- What the first `j` elements add to cell `a`, if those in `P` are left out. -/
def added (q : Nat → Nat) (P : Nat → Prop) [DecidablePred P] (j a : Nat) : α :=
  ∑ p ∈ Finset.range j, if q p = a ∧ ¬ P p then value p else 0

include hq

/-- The loop adds what is not overwritten. -/
theorem scatterAddLoop_spec [Zero β] {V : Nat} (hV : 0 < V) (hdvd : V ∣ n) {index : Nat → β}
    {position : β → Option Int} (hindex : ∀ p < n, position (index p) = some (q p : Int)) :
    ∃ ptr', scatterAddLoop V n index position value ptr = some ptr' ∧ ptr'.size = ptr.size ∧
      ∀ a, ptr'.cell a = ptr.cell a + added value q (Overwritten V q) n a := by
  let Inv : Nat → Region α → Prop := fun j r => r.size = ptr.size ∧
    ∀ a, r.cell a = ptr.cell a + added value q (Overwritten V q) j a
  refine forLoop_of_dvd Inv hV hdvd ?_ ⟨rfl, fun a => by simp [added]⟩
  rintro j r hj hle ⟨hsize, hcell⟩
  have hlt : ∀ i : Fin V, j + i < n := fun i => by omega
  have hqr : ∀ p < n, q p < r.size := fun p hp => hsize ▸ hq p hp
  rw [gather_tile hindex hqr hle, Option.bind_some]
  refine ⟨_, scatter_eq _ (q := fun i => q (j + i)) (fun i => ⟨q (j + i), ?_, ?_⟩)
    (fun i => hqr _ (hlt i)), hsize, fun a => ?_⟩
  · rw [load_apply]
    exact hindex _ (hlt i)
  · rw [Nat.cast_zero, zero_add]
  · have hlanes := forLanes_update_sum (fun i : Fin V => q (j + i))
      (load (splat 0) value j) r.cell a
    refine hlanes.trans ?_
    rw [hcell, add_assoc, added, added, Finset.sum_range_add,
      ← Fin.sum_univ_eq_sum_range fun i =>
        if q (j + i) = a ∧ ¬ Overwritten V q (j + i) then value (j + i) else 0]
    simp only [load_apply, overwritten_tile hj]

/-- With the Scalar backend it adds everything. -/
theorem Scalar.scatterAddLoop_spec :
    ∃ ptr', Scalar.scatterAddLoop n q value ptr = some ptr' ∧ ptr'.size = ptr.size ∧
      ∀ a, ptr'.cell a = ptr.cell a + added value q (fun _ => False) n a := by
  let Inv : Nat → Region α → Prop := fun j r => r.size = ptr.size ∧
    ∀ a, r.cell a = ptr.cell a + added value q (fun _ => False) j a
  refine forLoop_of_dvd Inv Nat.one_pos (Nat.one_dvd n) ?_ ⟨rfl, fun a => by simp [added]⟩
  rintro j r - hj ⟨hsize, hcell⟩
  have hqr : q j < r.size := hsize ▸ hq j hj
  have hgather : Scalar.gatherInto 0 r (q j) = some (r.cell (q j)) := Scalar.gatherInto_eq 0 hqr
  have hscatter := Scalar.scatter_eq (r.cell (q j) + value j) hqr
  refine ⟨_, (congrArg (Option.bind · _) hgather).trans hscatter, hsize, fun a => ?_⟩
  have hnew : added value q (fun _ => False) (j + 1) a =
      added value q (fun _ => False) j a + if q j = a then value j else 0 := by
    simp [added, Finset.sum_range_succ]
  rw [hnew, ← add_assoc, ← hcell]
  by_cases ha : q j = a
  · subst ha
    rw [if_pos rfl]
    exact Function.update_self _ _ _
  · rw [if_neg ha, add_zero]
    exact Function.update_of_ne (Ne.symm ha) _ _

omit hq in
/-- What is added is what is kept and what is left out. -/
theorem added_add_lost (P : Nat → Prop) [DecidablePred P] (j a : Nat) :
    added value q (fun _ => False) j a =
      added value q P j a + added value q (fun p => ¬ P p) j a := by
  rw [added, added, added, ← Finset.sum_add_distrib]
  refine Finset.sum_congr rfl fun p _ => ?_
  by_cases hp : P p <;> simp [hp]

/-- A loop over tiles that adds to what it gathers loses, at every place, exactly what
the lanes add whose index a later lane of the tile has.  It leaves what the loop with the
Scalar backend leaves if and only if these sums vanish. -/
theorem scatterAddLoop_lost [Zero β] {V : Nat} (hV : 0 < V) (hdvd : V ∣ n) (index : Nat → β)
    (position : β → Option Int) (hindex : ∀ p < n, position (index p) = some (q p : Int)) :
    ∃ ptr' ptrS, scatterAddLoop V n index position value ptr = some ptr' ∧
      Scalar.scatterAddLoop n q value ptr = some ptrS ∧
      (∀ a, ptrS.cell a =
        ptr'.cell a + ∑ p ∈ Finset.range n, if q p = a ∧ Overwritten V q p then value p else 0) ∧
      (ptr' = ptrS ↔ ∀ a,
        (∑ p ∈ Finset.range n, if q p = a ∧ Overwritten V q p then value p else 0) = 0) := by
  obtain ⟨ptr', hrun, hsize, hcell⟩ := scatterAddLoop_spec value hq hV hdvd hindex
  obtain ⟨ptrS, hrunS, hsizeS, hcellS⟩ := Scalar.scatterAddLoop_spec value hq
  have hlost : ∀ a, ptrS.cell a = ptr'.cell a +
      ∑ p ∈ Finset.range n, if q p = a ∧ Overwritten V q p then value p else 0 := by
    intro a
    rw [hcellS, hcell, added_add_lost value (Overwritten V q), ← add_assoc]
    simp only [added, not_not]
  refine ⟨ptr', ptrS, hrun, hrunS, hlost, ?_⟩
  constructor
  · rintro rfl a
    exact left_eq_add.mp (hlost a)
  · intro hzero
    have hcells : ptr'.cell = ptrS.cell := funext fun a => by rw [hlost, hzero, add_zero]
    have hsizes : ptr'.size = ptrS.size := hsize.trans hsizeS.symm
    cases ptr'
    cases ptrS
    exact congrArg₂ Region.mk hsizes hcells

end ScatterAdd

/-- Four times 1 added to one cell: in tiles of two, half of it is lost. -/
theorem scatterAddLoop_lost_counter :
    ∃ ptr' ptrS, scatterAddLoop 2 4 (fun _ => (0 : Int)) some (fun _ => (1 : Int))
          ⟨1, fun _ => 0⟩ = some ptr' ∧
        Scalar.scatterAddLoop 4 (fun _ => 0) (fun _ => (1 : Int)) ⟨1, fun _ => 0⟩ = some ptrS ∧
        ptrS.cell 0 = ptr'.cell 0 + 2 ∧ ptr' ≠ ptrS := by
  have hq : ∀ p < 4, (fun _ => 0) p < (⟨1, fun _ => 0⟩ : Region Int).size := by decide
  obtain ⟨ptr', ptrS, hrun, hrunS, hlost, hiff⟩ := scatterAddLoop_lost (V := 2) (fun _ => 1) hq
    (by decide) (by decide) (fun _ => (0 : Int)) some fun _ _ => rfl
  exact ⟨ptr', ptrS, hrun, hrunS, (hlost 0).trans (congrArg _ (by decide)), fun heq =>
    absurd (hiff.mp heq 0) (by decide)⟩

end VecCore
