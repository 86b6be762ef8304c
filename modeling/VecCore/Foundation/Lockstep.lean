/-
  Foundation/Lockstep.lean --- searching an orbit, alone and in lockstep.

  `search` iterates one map until the point leaves a region or a bound on the
  number of iterations is reached.  `lockstep` runs one search per lane under a
  shared counter: a lane whose mask has gone off is frozen, and the loop goes
  on while some mask is still on.  Both are post-tested, so at least one
  iteration is always made.

  `ExitsAt` says at which iteration a search stops, without mentioning a loop.
  It determines the iteration, so two loops that both satisfy it agree.
-/
import VecCore.Foundation.Loop
import VecCore.Foundation.Lanes

set_option autoImplicit false

namespace VecCore.Foundation

variable {α : Type*}

/-! ## Where a search stops -/

/-- A post-tested search of the orbit of `z` under `f`, going on while `stay`
holds and fewer than `bound` iterations were made, stops after `n` iterations. -/
structure ExitsAt (f : α → α) (stay : α → Bool) (bound : Nat) (z : α) (n : Nat) :
    Prop where
  /-- At least one iteration is made. -/
  pos : 1 ≤ n
  /-- At every earlier iteration the search goes on. -/
  before : ∀ m, 1 ≤ m → m < n → m < bound ∧ stay (f^[m] z) = true
  /-- At iteration `n` it does not. -/
  exit : bound ≤ n ∨ stay (f^[n] z) = false

/-- The stopping iteration is unique. -/
theorem ExitsAt.unique {f : α → α} {stay : α → Bool} {bound : Nat} {z : α}
    {m n : Nat} (hm : ExitsAt f stay bound z m) (hn : ExitsAt f stay bound z n) :
    m = n := by
  rcases Nat.lt_trichotomy m n with hlt | rfl | hlt
  · obtain ⟨hb, hs⟩ := hn.before m hm.pos hlt
    rcases hm.exit with h | h
    · omega
    · exact absurd h (by simp [hs])
  · rfl
  · obtain ⟨hb, hs⟩ := hm.before n hn.pos hlt
    rcases hn.exit with h | h
    · omega
    · exact absurd h (by simp [hs])

/-- A search stops within its bound, at the latest after one iteration. -/
theorem ExitsAt.le_max {f : α → α} {stay : α → Bool} {bound : Nat} {z : α} {n : Nat}
    (h : ExitsAt f stay bound z n) : n ≤ max 1 bound := by
  rcases Nat.lt_or_ge 1 n with hlt | hle
  · have hbefore := (h.before (n - 1) (by omega) (by omega)).1
    omega
  · omega

/-- Where a search stops depends on what the test says along the orbit. -/
theorem ExitsAt.congr {β : Type*} {f : α → α} {stay : α → Bool} {z : α} {g : β → β}
    {stay' : β → Bool} {w : β} {bound n : Nat} (h : ExitsAt f stay bound z n)
    (hsame : ∀ m, 1 ≤ m → stay (f^[m] z) = stay' (g^[m] w)) : ExitsAt g stay' bound w n where
  pos := h.pos
  before m h1 hm := ⟨(h.before m h1 hm).1, (hsame m h1) ▸ (h.before m h1 hm).2⟩
  exit := h.exit.imp_right fun hleft => (hsame n h.pos) ▸ hleft

/-- A search that has left the region is not concerned by its bound. -/
theorem ExitsAt.of_left {f : α → α} {stay : α → Bool} {bound bound' : Nat} {z : α} {n : Nat}
    (h : ExitsAt f stay bound z n) (hleft : stay (f^[n] z) = false) (hle : bound ≤ bound') :
    ExitsAt f stay bound' z n where
  pos := h.pos
  before m h1 hm := ⟨Nat.lt_of_lt_of_le (h.before m h1 hm).1 hle, (h.before m h1 hm).2⟩
  exit := .inr hleft

/-- One that has not was stopped by it. -/
theorem ExitsAt.eq_bound {f : α → α} {stay : α → Bool} {bound : Nat} {z : α} {n : Nat}
    (h : ExitsAt f stay bound z n) (hstay : stay (f^[n] z) = true) : n = max 1 bound := by
  have hle := h.le_max
  have hpos := h.pos
  rcases h.exit with hge | hleft
  · omega
  · exact absurd (hleft.symm.trans hstay) Bool.false_ne_true

/-! ## One search -/

/-- The state of a search: iterations made and current point. -/
structure Search (α : Type*) where
  /-- Iterations made. -/
  k : Nat
  /-- The current point. -/
  z : α

/-- One iteration. -/
def searchBody (f : α → α) (s : Search α) : Search α := ⟨s.k + 1, f s.z⟩

/-- Whether the search goes on. -/
def searchCond (stay : α → Bool) (bound : Nat) (s : Search α) : Bool :=
  decide (s.k < bound) && stay s.z

theorem searchCond_eq_true {stay : α → Bool} {bound : Nat} {s : Search α} :
    searchCond stay bound s = true ↔ s.k < bound ∧ stay s.z = true := by
  simp [searchCond]

theorem searchCond_eq_false {stay : α → Bool} {bound : Nat} {s : Search α} :
    searchCond stay bound s = false ↔ bound ≤ s.k ∨ stay s.z = false := by
  simp [searchCond, Decidable.or_iff_not_imp_left]

/-- A search ends at its exit iteration, with the point of the orbit there. -/
theorem search_exits (f : α → α) (stay : α → Bool) (bound : Nat) (z : α)
    {fuel : Nat} (hfuel : max 1 bound ≤ fuel) :
    ∃ n, ExitsAt f stay bound z n ∧
      doWhile (searchBody f) (searchCond stay bound) fuel ⟨0, z⟩ =
        some ⟨n, f^[n] z⟩ := by
  -- `s` is the state before an iteration: every earlier test has succeeded.
  let Inv : Search α → Prop := fun s =>
    s.z = f^[s.k] z ∧
      ∀ m, 1 ≤ m → m < s.k + 1 → m < bound ∧ stay (f^[m] z) = true
  have hnext : ∀ s, Inv s → f s.z = f^[s.k + 1] z := by
    intro s hs
    rw [Function.iterate_succ_apply', hs.1]
  have hstep : ∀ s, Inv s → searchCond stay bound (searchBody f s) = true →
      Inv (searchBody f s) ∧ bound - 1 - (searchBody f s).k < bound - 1 - s.k := by
    intro s hs hc
    obtain ⟨hlt, hstay⟩ := searchCond_eq_true.mp hc
    simp only [searchBody] at hlt hstay ⊢
    refine ⟨⟨hnext s hs, ?_⟩, by omega⟩
    intro m h1 hm
    rcases Nat.lt_or_ge m (s.k + 1) with hold | hnew
    · exact hs.2 m h1 hold
    · obtain rfl : m = s.k + 1 := by
        simp only at hm
        omega
      exact ⟨hlt, hnext s hs ▸ hstay⟩
  have hinit : Inv ⟨0, z⟩ := ⟨rfl, fun m h1 hm => absurd hm (by simp only; omega)⟩
  have hrank : bound - 1 - (Search.mk 0 z).k < fuel := by
    simp only
    omega
  obtain ⟨last, hlast, hrun, hend⟩ :=
    doWhile_total Inv (fun s => bound - 1 - s.k) hstep hinit hrank
  refine ⟨last.k + 1, ⟨Nat.succ_pos _, hlast.2, ?_⟩, ?_⟩
  · rw [← hnext last hlast]
    exact searchCond_eq_false.mp hend
  · rw [hrun, ← hnext last hlast]
    rfl

/-! ## Searches in lockstep -/

/-- One search per lane under a shared iteration counter. -/
structure Lockstep (V : Nat) (α : Type*) where
  /-- Iterations made. -/
  k : Nat
  /-- The current point of each lane. -/
  z : Lanes V α
  /-- Iterations made by each lane before it was frozen. -/
  count : Lanes V Nat
  /-- The lanes that are still moving. -/
  mask : Lanes V Bool

/-- One iteration: move the lanes under the mask, then test every lane. -/
def lockstepBody {V : Nat} (f : Fin V → α → α) (stay : α → Bool)
    (s : Lockstep V α) : Lockstep V α :=
  let z : Lanes V α := fun i => if s.mask i then f i (s.z i) else s.z i
  { k := s.k + 1
    z := z
    count := fun i => if s.mask i then s.k + 1 else s.count i
    mask := fun i => stay (z i) }

/-- Go on while the bound is not reached and some lane is moving. -/
def lockstepCond {V : Nat} (bound : Nat) (s : Lockstep V α) : Bool :=
  decide (s.k < bound) && !allLanes V fun i => !s.mask i

theorem lockstepCond_eq_true {V : Nat} {bound : Nat} {s : Lockstep V α}
    (h : lockstepCond bound s = true) : s.k < bound := by
  simp only [lockstepCond, Bool.and_eq_true, decide_eq_true_eq] at h
  exact h.1

theorem lockstepCond_eq_false {V : Nat} {bound : Nat} {s : Lockstep V α}
    (h : lockstepCond bound s = false) : bound ≤ s.k ∨ ∀ i, s.mask i = false := by
  rcases Nat.lt_or_ge s.k bound with hlt | hge
  · right
    simpa [lockstepCond, hlt, allLanes_iff] using h
  · exact .inl hge

/-- What one lane has done after `k` iterations of the shared loop: it is
`count` iterations along its own orbit, it has only passed points where its own
search would have gone on, and its mask tells whether it is still moving. -/
structure LaneRun (f : α → α) (stay : α → Bool) (z₀ : α) (k : Nat) (z : α)
    (count : Nat) (mask : Bool) : Prop where
  orbit : z = f^[count] z₀
  count_le : count ≤ k
  before : ∀ m, 1 ≤ m → m < count → stay (f^[m] z₀) = true
  moving : mask = true → count = k ∧ (1 ≤ k → stay z = true)
  frozen : mask = false → 1 ≤ count ∧ stay z = false

/-- Before the first iteration every lane is moving. -/
theorem LaneRun.init (f : α → α) (stay : α → Bool) (z₀ : α) :
    LaneRun f stay z₀ 0 z₀ 0 true :=
  ⟨rfl, Nat.le_refl 0, fun m _ hm => absurd hm (Nat.not_lt_zero m),
    fun _ => ⟨rfl, fun h => absurd h (Nat.not_succ_le_zero 0)⟩, fun h => by cases h⟩

/-- The mask of a lane is off when its own search has left the region. -/
theorem LaneRun.mask_eq_false_iff {f : α → α} {stay : α → Bool} {z₀ : α} {k : Nat} {z : α}
    {count : Nat} {mask : Bool} (h : LaneRun f stay z₀ k z count mask) (hk : 1 ≤ k) :
    mask = false ↔ ∃ m, 1 ≤ m ∧ m ≤ k ∧ stay (f^[m] z₀) = false := by
  constructor
  · intro hmask
    obtain ⟨hpos, hstay⟩ := h.frozen hmask
    exact ⟨count, hpos, h.count_le, h.orbit ▸ hstay⟩
  · rintro ⟨m, h1, hm, hleft⟩
    cases mask with
    | false => rfl
    | true =>
      obtain ⟨rfl, hstay⟩ := h.moving rfl
      rcases Nat.lt_or_ge m count with hlt | hge
      · exact absurd (hleft.symm.trans (h.before m h1 hlt)) Bool.false_ne_true
      · obtain rfl : m = count := Nat.le_antisymm hm hge
        exact absurd (hleft.symm.trans (h.orbit ▸ hstay hk)) Bool.false_ne_true

/-- One iteration of the shared loop, seen from one lane. -/
theorem LaneRun.step {f : α → α} {stay : α → Bool} {z₀ : α} {k : Nat} {z : α}
    {count : Nat} {mask : Bool} (h : LaneRun f stay z₀ k z count mask) :
    LaneRun f stay z₀ (k + 1) (if mask then f z else z)
      (if mask then k + 1 else count) (stay (if mask then f z else z)) := by
  cases mask with
  | true =>
    obtain ⟨hcount, hstay⟩ := h.moving rfl
    refine ⟨?_, by simp, ?_, fun hs => ⟨by simp, fun _ => hs⟩,
      fun hs => ⟨by simp, hs⟩⟩
    · simp only [if_true, Function.iterate_succ_apply']
      rw [← hcount, ← h.orbit]
    · intro m h1 hm
      simp only [if_true] at hm
      rcases Nat.lt_or_ge m count with hold | hnew
      · exact h.before m h1 hold
      · obtain rfl : m = count := by omega
        exact h.orbit ▸ hstay (by omega)
  | false =>
    obtain ⟨hpos, hstay⟩ := h.frozen rfl
    have hcount := h.count_le
    refine ⟨by simpa using h.orbit, by simp only [Bool.false_eq_true, if_false]; omega,
      by simpa using h.before, ?_, fun hs => ⟨by simpa using hpos, hs⟩⟩
    intro hs
    simp [hstay] at hs

/-- A lane that stops moving, or that is stopped by the bound, is at the exit of
its own search. -/
theorem LaneRun.exitsAt {f : α → α} {stay : α → Bool} {z₀ : α} {k bound : Nat}
    {z : α} {count : Nat} {mask : Bool}
    (h : LaneRun f stay z₀ (k + 1) z count mask) (hk : 1 ≤ k → k < bound)
    (hend : bound ≤ k + 1 ∨ mask = false) : ExitsAt f stay bound z₀ count := by
  have hcount := h.count_le
  refine ⟨?_, fun m h1 hm => ⟨by have := hk (by omega); omega, h.before m h1 hm⟩, ?_⟩
  · cases mask with
    | true => have := (h.moving rfl).1; omega
    | false => exact (h.frozen rfl).1
  · cases mask with
    | true => have := (h.moving rfl).1; exact .inl (by simp at hend; omega)
    | false => exact .inr (h.orbit ▸ (h.frozen rfl).2)

/-- Every lane of a lockstep loop stops where a search of its own would. -/
theorem lockstep_exits {V : Nat} (f : Fin V → α → α) (stay : α → Bool)
    (bound : Nat) (z : Lanes V α) {fuel : Nat} (hfuel : max 1 bound ≤ fuel) :
    ∃ s, doWhile (lockstepBody f stay) (lockstepCond bound) fuel
        ⟨0, z, splat 0, splat true⟩ = some s ∧
      ∀ i, ExitsAt (f i) stay bound (z i) (s.count i) ∧
        s.z i = (f i)^[s.count i] (z i) := by
  let Inv : Lockstep V α → Prop := fun s =>
    (1 ≤ s.k → s.k < bound) ∧
      ∀ i, LaneRun (f i) stay (z i) s.k (s.z i) (s.count i) (s.mask i)
  have hstep : ∀ s, Inv s → lockstepCond bound (lockstepBody f stay s) = true →
      Inv (lockstepBody f stay s) ∧
        bound - 1 - (lockstepBody f stay s).k < bound - 1 - s.k := by
    intro s hs hc
    have hlt : s.k + 1 < bound := lockstepCond_eq_true hc
    exact ⟨⟨fun _ => hlt, fun i => (hs.2 i).step⟩,
      by simp only [lockstepBody]; omega⟩
  have hinit : Inv ⟨0, z, splat 0, splat true⟩ :=
    ⟨fun h => absurd h (by simp), fun i => .init (f i) stay (z i)⟩
  have hrank : bound - 1 - (0 : Nat) < fuel := by omega
  obtain ⟨last, hlast, hrun, hend⟩ :=
    doWhile_total Inv (fun s => bound - 1 - s.k) hstep hinit hrank
  refine ⟨_, hrun, ?_⟩
  intro i
  have hlane := (hlast.2 i).step
  refine ⟨hlane.exitsAt hlast.1 ?_, hlane.orbit⟩
  exact (lockstepCond_eq_false hend).imp_right fun h => h i

end VecCore.Foundation
