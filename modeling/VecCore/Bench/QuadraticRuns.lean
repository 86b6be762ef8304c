/-
  Bench/QuadraticRuns.lean --- all runs of bench/quadratic.cc.

  `main` solves the same equations with one version of the solver after the
  other, `kNruns` times each, and all of them store into the same arrays.  A
  version that finds no roots leaves what an earlier one stored there; that is
  nevertheless what `main` set the arrays to, as all versions that compute the
  discriminant right find no roots in the same places.  A backend whose vectors
  of integers are shorter than those of floats leaves some numbers of roots as
  they were as well.
-/
import VecCore.Bench.QuadraticAVX
import VecCore.Bench.QuadraticTiles
import VecCore.Foundation.TileMap

set_option autoImplicit false

namespace VecCore.Bench

open VecCore.Foundation

variable {F : Type*}

attribute [ext] Roots

/-! ## The arrays -/

/-- What the arrays hold for equation `i`. -/
def QuadArrays.at (s : QuadArrays F) (i : Nat) : Roots F :=
  { roots := s.roots.cell i, x1 := s.x1 i, x2 := s.x2 i }

/-- The references `x1[i]`, `x2[i]` and `roots[i]` after a scalar call. -/
def QuadArrays.set (s : QuadArrays F) (i : Nat) (r : Roots F) : QuadArrays F :=
  { x1 := Function.update s.x1 i r.x1
    x2 := Function.update s.x2 i r.x2
    roots := s.roots.write i r.roots }

/-- The vectors at `x1[i]`, `x2[i]` and `roots[i]` after a vector call. -/
def QuadArrays.setLanes {W M : Nat} (s : QuadArrays F) (i : Nat) (r : RootsWM W M F) :
    QuadArrays F :=
  { x1 := store r.x1 s.x1 i
    x2 := store r.x2 s.x2 i
    roots := s.roots.writeLanes i r.roots }

/-- The two loops of every test, around the body of the inner one. -/
def quadRuns (step kNruns kN : Nat) (tile : Nat → QuadArrays F → QuadArrays F)
    (s : QuadArrays F) : Option (QuadArrays F) :=
  forLoop 1 kNruns (fun _ s => forLoop step kN (fun i s => some (tile i s)) 0 s) 0 s

theorem QuadArrays.at_set (s : QuadArrays F) (i : Nat) (r : Roots F) (p : Nat) :
    (s.set i r).at p = if i ≤ p ∧ p < i + 1 then r else s.at p := by
  by_cases hp : p = i
  · subst hp
    simp [QuadArrays.at, QuadArrays.set]
  · rw [if_neg (by omega)]
    simp [QuadArrays.at, QuadArrays.set, Function.update_of_ne hp]

theorem QuadArrays.at_setLanes {W M : Nat} (hMW : M ≤ W) (s : QuadArrays F) (i : Nat)
    (r : RootsWM W M F) (solved : Nat → Roots F → Roots F)
    (hx : ∀ k : Fin W, r.x1 k = (solved (i + k) (s.at (i + k))).x1 ∧
      r.x2 k = (solved (i + k) (s.at (i + k))).x2)
    (hroots : ∀ k : Fin M, r.roots k = (solved (i + k) (s.at (i + k))).roots)
    (hrest : ∀ k, M ≤ k → k < W →
      (solved (i + k) (s.at (i + k))).roots = s.roots.cell (i + k)) (p : Nat) :
    (s.setLanes i r).at p = if i ≤ p ∧ p < i + W then solved p (s.at p) else s.at p := by
  by_cases hp : i ≤ p ∧ p < i + W
  · obtain ⟨k, rfl⟩ := Nat.exists_eq_add_of_le hp.1
    have hk : k < W := by omega
    have hcell : (s.setLanes i r).roots.cell (i + k) = (solved (i + k) (s.at (i + k))).roots := by
      rcases Nat.lt_or_ge k M with hlt | hge
      · exact (s.roots.writeLanes_cell i r.roots ⟨k, hlt⟩).trans (hroots ⟨k, hlt⟩)
      · rw [hrest k hge hk]
        exact s.roots.writeLanes_cell_of_not_mem i r.roots (.inr (by omega))
    have hx1 := store_apply r.x1 s.x1 i ⟨k, hk⟩
    have hx2 := store_apply r.x2 s.x2 i ⟨k, hk⟩
    rw [if_pos hp, Roots.ext_iff]
    exact ⟨hcell, hx1.trans (hx ⟨k, hk⟩).1, hx2.trans (hx ⟨k, hk⟩).2⟩
  · have hout : p < i ∨ i + W ≤ p := by omega
    rw [if_neg hp]
    simp only [QuadArrays.at, QuadArrays.setLanes, Roots.mk.injEq]
    exact ⟨s.roots.writeLanes_cell_of_not_mem i r.roots (by omega),
      store_of_not_mem r.x1 s.x1 i hout, store_of_not_mem r.x2 s.x2 i hout⟩

/-- The loops of a test whose tiles solve their own equations. -/
theorem quadRuns_at {step kN : Nat} (hstep : 0 < step) (hdvd : step ∣ kN) (kNruns : Nat)
    {tile : Nat → QuadArrays F → QuadArrays F} {solve : Nat → Roots F → Roots F}
    (htile : ∀ i s p, step ∣ i → (tile i s).at p =
      if i ≤ p ∧ p < i + step then solve p (s.at p) else s.at p) (s : QuadArrays F) :
    ∃ s', quadRuns step kNruns kN tile s = some s' ∧
      ∀ p, s'.at p = if p < kN then (solve p)^[kNruns] (s.at p) else s.at p :=
  forLoop_cells_runs QuadArrays.at _ (fun s => forLoop_cells QuadArrays.at _ hstep hdvd
    (fun i s hi _ => ⟨_, rfl, fun p => htile i s p hi⟩) s) kNruns s

/-! ## The code -/

variable [Field F] [LinearOrder F]

omit [LinearOrder F] in
/-- The arrays as `main` sets them. -/
def QuadArrays.zero : QuadArrays F := ⟨fun _ => 0, fun _ => 0, .fresh fun _ => 0⟩

section Tests

variable (sqrt : F → F) (a b c : Nat → F)

/-- `TestQuadSolve`. -/
def testQuadSolve (kNruns kN : Nat) : QuadArrays F → Option (QuadArrays F) :=
  quadRuns 1 kNruns kN fun i s =>
    s.set i (quadSolve .float sqrt (a i) (b i) (c i) (s.x1 i) (s.x2 i))

/-- `TestQuadSolveOptimized`. -/
def testQuadSolveOptimized (kNruns kN : Nat) : QuadArrays F → Option (QuadArrays F) :=
  quadRuns 1 kNruns kN fun i s =>
    s.set i (quadSolveOptimized .float sqrt (a i) (b i) (c i) (s.x1 i) (s.x2 i))

/-- `TestQuadSolveAVX2`, compiled with `__FMA__` or without. -/
def testQuadSolveAVX2 (fma : Bool) (cvt : F → Int) (kNruns kN : Nat) :
    QuadArrays F → Option (QuadArrays F) :=
  quadRuns 8 kNruns kN fun i s =>
    let r := quadSolveAVX fma sqrt cvt (asVec 8 a i) (asVec 8 b i) (asVec 8 c i)
    s.setLanes i { roots := r.roots, x1 := r.x1, x2 := r.x2 }

/-- `TestQuadSolve<Backend>`, where `Float_v` has `W` lanes and `Int32_v` has `M`;
`asIMask` is the cast from `FMask&` to `IMask&`.  The blend of UME::SIMD is that of the
other backends. -/
def testQuadSolveSIMD {W M : Nat} (asIMask : Mask W → Mask M) (kNruns kN : Nat) :
    QuadArrays F → Option (QuadArrays F) :=
  UMESimd.testQuadSolve asIMask (.exact F) sqrt a b c kNruns kN

/-- Its loops are those of the other tests. -/
theorem testQuadSolveSIMD_eq {W M : Nat} (asIMask : Mask W → Mask M) (kNruns kN : Nat)
    (s : QuadArrays F) :
    testQuadSolveSIMD sqrt a b c asIMask kNruns kN s =
      quadRuns W kNruns kN (fun i s => s.setLanes i (UMESimd.quadSolveSIMD asIMask (.exact F)
        sqrt (asVec W a i) (asVec W b i) (asVec W c i) (asVec W s.x1 i) (asVec W s.x2 i))) s :=
  rfl

end Tests

/-- The functions `main` calls. -/
inductive QuadTest where
  | TestQuadSolve
  | TestQuadSolveOptimized
  | TestQuadSolveAVX2 (fma : Bool)
  /-- `TestQuadSolve<Backend>`, where `Float_v` has `W` lanes and `Int32_v` has `M`. -/
  | TestQuadSolveSIMD (W M : Nat) (asIMask : Mask W → Mask M)

/-- The equations of a tile. -/
def QuadTest.lanes : QuadTest → Nat
  | .TestQuadSolve => 1
  | .TestQuadSolveOptimized => 1
  | .TestQuadSolveAVX2 _ => 8
  | .TestQuadSolveSIMD W _ _ => W

/-- The equations of a tile whose number of roots is assigned. -/
def QuadTest.intLanes : QuadTest → Nat
  | .TestQuadSolve => 1
  | .TestQuadSolveOptimized => 1
  | .TestQuadSolveAVX2 _ => 8
  | .TestQuadSolveSIMD _ M _ => M

/-- The tiles of a test fill `kN` equations, and those of the integers do not exceed them. -/
structure QuadTest.Fits (t : QuadTest) (kN : Nat) : Prop where
  pos : 0 < t.lanes
  dvd : t.lanes ∣ kN
  intLanes_le : t.intLanes ≤ t.lanes

/-- Both vector types have as many lanes, and the cast between the masks keeps them. -/
def QuadTest.OneWidth : QuadTest → Prop
  | .TestQuadSolveSIMD W M asIMask =>
      M = W ∧ ∀ mask k (hW : k < W) (hM : k < M), asIMask mask ⟨k, hM⟩ = mask ⟨k, hW⟩
  | _ => True

/-- One call. -/
def QuadTest.run (sqrt : F → F) (cvt : F → Int) (a b c : Nat → F) (kNruns kN : Nat) :
    QuadTest → QuadArrays F → Option (QuadArrays F)
  | .TestQuadSolve => testQuadSolve sqrt a b c kNruns kN
  | .TestQuadSolveOptimized => testQuadSolveOptimized sqrt a b c kNruns kN
  | .TestQuadSolveAVX2 fma => testQuadSolveAVX2 sqrt a b c fma cvt kNruns kN
  | .TestQuadSolveSIMD _ _ asIMask => testQuadSolveSIMD sqrt a b c asIMask kNruns kN

/-- The calls of `main`, one after the other on the same arrays. -/
def quadMain (sqrt : F → F) (cvt : F → Int) (a b c : Nat → F) (kNruns kN : Nat) :
    List QuadTest → QuadArrays F → Option (QuadArrays F)
  | [], s => some s
  | t :: tests, s =>
      (t.run sqrt cvt a b c kNruns kN s).bind (quadMain sqrt cvt a b c kNruns kN tests)

theorem quadMain_append (sqrt : F → F) (cvt : F → Int) (a b c : Nat → F) (kNruns kN : Nat)
    (tests tests' : List QuadTest) (s : QuadArrays F) :
    quadMain sqrt cvt a b c kNruns kN (tests ++ tests') s =
      (quadMain sqrt cvt a b c kNruns kN tests s).bind
        (quadMain sqrt cvt a b c kNruns kN tests') := by
  induction tests generalizing s with
  | nil => rfl
  | cons t tests ih =>
    rw [List.cons_append, quadMain, quadMain, Option.bind_assoc]
    exact congrArg _ (funext ih)

/-! ## One equation -/

/-- The contents `main` starts from. -/
def Roots.zero : Roots F := ⟨0, 0, 0⟩

/-- What a test with vectors of one width makes of one equation and of the previous contents. -/
def QuadTest.solve (sqrt : F → F) (a b c : F) (prev : Roots F) : QuadTest → Roots F
  | .TestQuadSolve => quadSolve .float sqrt a b c prev.x1 prev.x2
  | .TestQuadSolveOptimized => quadSolveOptimized .float sqrt a b c prev.x1 prev.x2
  | .TestQuadSolveAVX2 fma =>
      classify sqrt FloatType.float.epsilon a b c (discriminantAVX fma a b c) 0 0
  | .TestQuadSolveSIMD _ _ _ =>
      classify sqrt FloatType.float.epsilon a b c (discriminant a b c) prev.x1 prev.x2

/-- The number of roots that a test assigns for equation `p`. -/
def QuadTest.rootsAt (sqrt : F → F) (a b c : Nat → F) (p : Nat) : QuadTest → Int
  | .TestQuadSolveSIMD W M asIMask =>
      if h : p % W < M then
        (UMESimd.quadSolveSIMD asIMask (.exact F) sqrt (asVec W a (p / W * W))
          (asVec W b (p / W * W)) (asVec W c (p / W * W)) (splat 0) (splat 0)).roots ⟨p % W, h⟩
      else 0
  | t => (t.solve sqrt (a p) (b p) (c p) .zero).roots

/-- What a test makes of equation `p`. -/
def QuadTest.solveAt (sqrt : F → F) (a b c : Nat → F) (t : QuadTest) (p : Nat)
    (prev : Roots F) : Roots F :=
  { t.solve sqrt (a p) (b p) (c p) prev with
    roots := if p % t.lanes < t.intLanes then t.rootsAt sqrt a b c p else prev.roots }

theorem QuadTest.solveAt_x1 (sqrt : F → F) (a b c : Nat → F) (t : QuadTest) (p : Nat)
    (r : Roots F) :
    (t.solveAt sqrt a b c p r).x1 = (t.solve sqrt (a p) (b p) (c p) r).x1 := rfl

theorem QuadTest.solveAt_x2 (sqrt : F → F) (a b c : Nat → F) (t : QuadTest) (p : Nat)
    (r : Roots F) :
    (t.solveAt sqrt a b c p r).x2 = (t.solve sqrt (a p) (b p) (c p) r).x2 := rfl

/-- The number of roots does not depend on the previous contents. -/
theorem QuadTest.solve_roots (sqrt : F → F) (a b c : F) (t : QuadTest) (r r' : Roots F) :
    (t.solve sqrt a b c r).roots = (t.solve sqrt a b c r').roots := by
  cases t with
  | TestQuadSolve =>
    simp only [QuadTest.solve, quadSolve]
    split_ifs <;> rfl
  | TestQuadSolveOptimized =>
    simp only [QuadTest.solve, quadSolveOptimized]
    split_ifs <;> rfl
  | TestQuadSolveAVX2 fma => rfl
  | TestQuadSolveSIMD W M asIMask =>
    simp only [QuadTest.solve, classify]
    split_ifs <;> rfl

/-- The tile of an equation. -/
theorem QuadTest.rootsAt_tile (sqrt : F → F) (a b c : Nat → F) {W M : Nat}
    (asIMask : Mask W → Mask M) {i : Nat} (hi : W ∣ i) (k : Fin M) (hk : k < W) :
    (QuadTest.TestQuadSolveSIMD W M asIMask).rootsAt sqrt a b c (i + k) =
      (UMESimd.quadSolveSIMD asIMask (.exact F) sqrt (asVec W a i) (asVec W b i) (asVec W c i)
        (splat 0) (splat 0)).roots k := by
  have hstart : (i + k) / W * W = i :=
    tile_start hi (Nat.le_add_right i k) (Nat.add_lt_add_left hk i)
  have hmod : (i + k) % W = k := tile_offset hi hk
  have hlt : (i + k) % W < M := hmod.trans_lt k.isLt
  have hlane : (⟨(i + k) % W, hlt⟩ : Fin M) = k := Fin.ext hmod
  rw [QuadTest.rootsAt, dif_pos hlt, hstart, hlane]

/-- With vectors of one width nothing else decides. -/
theorem QuadTest.solveAt_of_oneWidth (sqrt : F → F) (a b c : Nat → F) {t : QuadTest}
    (h : t.OneWidth) (hpos : 0 < t.lanes) (p : Nat) (r : Roots F) :
    t.solveAt sqrt a b c p r = t.solve sqrt (a p) (b p) (c p) r := by
  suffices hroots : (t.solveAt sqrt a b c p r).roots =
      (t.solve sqrt (a p) (b p) (c p) .zero).roots by
    exact Roots.ext (hroots.trans (t.solve_roots sqrt _ _ _ _ _)) rfl rfl
  have hmod := Nat.mod_lt p hpos
  cases t with
  | TestQuadSolve => exact if_pos hmod
  | TestQuadSolveOptimized => exact if_pos hmod
  | TestQuadSolveAVX2 fma => exact if_pos hmod
  | TestQuadSolveSIMD W M asIMask =>
    obtain ⟨rfl, hcast⟩ := h
    obtain rfl : asIMask = id := funext fun mask => funext fun k => hcast mask k k.isLt k.isLt
    have hp : p / M * M + p % M = p := Nat.div_add_mod' p M
    have htile := QuadTest.rootsAt_tile sqrt a b c (id : Mask M → Mask M)
      (Nat.dvd_mul_left M (p / M)) ⟨p % M, hmod⟩ hmod
    have hlane := congrArg Roots.roots (quadSolveSIMD_lane sqrt (asVec M a (p / M * M))
      (asVec M b (p / M * M)) (asVec M c (p / M * M)) (splat 0) (splat 0) ⟨p % M, hmod⟩)
    have harray : ∀ array : Nat → F, asVec M array (p / M * M) ⟨p % M, hmod⟩ = array p :=
      fun array => congrArg array hp
    rw [harray, harray, harray] at hlane
    rw [UMESimd.quadSolveSIMD_eq] at htile
    simp only [hp] at htile
    exact (if_pos hmod).trans (htile.trans hlane)

section Run

variable [IsStrictOrderedRing F] (sqrt : F → F) {cvt : F → Int}
variable (hcvt : ∀ n : Int, IntTy.int.Fits n → cvt n = n) (a b c : Nat → F)

include hcvt

/-- A test solves every equation `kNruns` times, whichever it is. -/
theorem QuadTest.run_at {t : QuadTest} {kN : Nat} (ht : t.Fits kN) (kNruns : Nat)
    (s : QuadArrays F) :
    ∃ s', t.run sqrt cvt a b c kNruns kN s = some s' ∧ ∀ p, s'.at p =
      if p < kN then (t.solveAt sqrt a b c p)^[kNruns] (s.at p) else s.at p := by
  obtain ⟨hpos, hdvd, hle⟩ := ht
  have hscalar : ∀ t : QuadTest, t.lanes = 1 → t.OneWidth → ∀ i (s : QuadArrays F) p,
      (s.set i (t.solve sqrt (a i) (b i) (c i) (s.at i))).at p =
        if i ≤ p ∧ p < i + 1 then t.solveAt sqrt a b c p (s.at p) else s.at p := by
    intro t ht hone i s p
    rw [QuadArrays.at_set]
    refine if_ctx_congr Iff.rfl (fun h => ?_) fun _ => rfl
    obtain rfl : p = i := by omega
    exact (t.solveAt_of_oneWidth sqrt a b c hone (ht ▸ Nat.one_pos) p _).symm
  cases t with
  | TestQuadSolve =>
    exact quadRuns_at hpos hdvd kNruns (fun i s p _ =>
      hscalar .TestQuadSolve rfl trivial i s p) s
  | TestQuadSolveOptimized =>
    exact quadRuns_at hpos hdvd kNruns (fun i s p _ =>
      hscalar .TestQuadSolveOptimized rfl trivial i s p) s
  | TestQuadSolveAVX2 fma =>
    refine quadRuns_at hpos hdvd kNruns (fun i s p _ => ?_) s
    have hlane : ∀ k : Fin 8, (quadSolveAVX fma sqrt cvt (asVec 8 a i) (asVec 8 b i)
        (asVec 8 c i)).lane k = (QuadTest.TestQuadSolveAVX2 fma).solveAt sqrt a b c (i + k)
          (s.at (i + k)) := by
      intro k
      rw [quadSolveAVX_lane fma sqrt hcvt, QuadTest.solveAt_of_oneWidth sqrt a b c
        (t := .TestQuadSolveAVX2 fma) trivial hpos]
      rfl
    exact s.at_setLanes hle i _ _
      (fun k => ⟨congrArg Roots.x1 (hlane k), congrArg Roots.x2 (hlane k)⟩)
      (fun k => congrArg Roots.roots (hlane k)) (fun k hk hlt => absurd hlt (not_lt.mpr hk)) p
  | TestQuadSolveSIMD W M asIMask =>
    rw [QuadTest.run, testQuadSolveSIMD_eq]
    refine quadRuns_at hpos hdvd kNruns (fun i s p hi => ?_) s
    have hx := UMESimd.quadSolveSIMD_x asIMask sqrt (asVec W a i) (asVec W b i) (asVec W c i)
      (asVec W s.x1 i) (asVec W s.x2 i)
    have hlane := quadSolveSIMD_lane sqrt (asVec W a i) (asVec W b i) (asVec W c i)
      (asVec W s.x1 i) (asVec W s.x2 i)
    have hmod : ∀ k, k < W → (i + k) % W = k := fun k hk => tile_offset hi hk
    refine s.at_setLanes hle i _ _ (fun k => ⟨?_, ?_⟩) (fun k => ?_) (fun k hk hlt => ?_) p
    · exact (congrFun hx.1 k).trans (congrArg Roots.x1 (hlane k))
    · exact (congrFun hx.2 k).trans (congrArg Roots.x2 (hlane k))
    · have hk : k < W := Nat.lt_of_lt_of_le k.isLt hle
      have hassign : (i + k) % W < M := (hmod k hk).trans_lt k.isLt
      refine Eq.trans ?_ (if_pos hassign).symm
      rw [QuadTest.rootsAt_tile sqrt a b c asIMask hi k hk]
      exact congrFun (UMESimd.quadSolveSIMD_roots asIMask sqrt _ _ _ _ _ _ _) k
    · exact if_neg (not_lt.mpr ((hmod k hlt).symm ▸ hk))

end Run

/-! ## What is left where there are no roots -/

section Cleared

variable {sqrt : F → F} {a b c : F}

/-- The contents for an equation are zero if it has no roots. -/
def Cleared (a b c : F) (r : Roots F) : Prop := discriminant a b c < 0 → r.x1 = 0 ∧ r.x2 = 0

theorem cleared_zero : Cleared a b c Roots.zero := fun _ => ⟨rfl, rfl⟩

theorem quadSolve_of_neg {T : FloatType} (h : discriminant a b c < 0) (x1 x2 : F) :
    quadSolve T sqrt a b c x1 x2 = { roots := 0, x1, x2 } := if_pos h

theorem classify_of_neg {eps d : F} (heps : 0 < eps) (h : d < 0) (x1 x2 : F) :
    classify sqrt eps a b c d x1 x2 = { roots := 0, x1, x2 } :=
  (if_neg (not_le.mpr (h.trans heps))).trans (if_pos h)

/-- Where there are roots, the previous contents do not matter. -/
theorem QuadTest.solve_of_nonneg (h : ¬ discriminant a b c < 0) (t : QuadTest)
    (r r' : Roots F) : t.solve sqrt a b c r = t.solve sqrt a b c r' := by
  cases t with
  | TestQuadSolve => simp only [QuadTest.solve, quadSolve, if_neg h]
  | TestQuadSolveOptimized =>
    simp only [QuadTest.solve, quadSolveOptimized, if_neg h]
    by_cases hgt : discriminant a b c > FloatType.float.epsilon
    · simp only [if_pos hgt]
    · simp only [if_neg hgt]
  | TestQuadSolveAVX2 fma => rfl
  | TestQuadSolveSIMD W M asIMask => simp only [QuadTest.solve, classify, if_neg h]

variable [IsStrictOrderedRing F]

theorem quadSolveOptimized_of_neg {T : FloatType} (h : discriminant a b c < 0) (x1 x2 : F) :
    quadSolveOptimized T sqrt a b c x1 x2 = { roots := 0, x1, x2 } := by
  have heps := T.epsilon_pos (F := F)
  rw [quadSolveOptimized_of_ne (h.trans heps).ne, classify_of_neg heps h]

/-- Where there are none, they stay, or are set to zero. -/
theorem QuadTest.solve_of_neg (h : discriminant a b c < 0) {t : QuadTest}
    (ht : t ≠ .TestQuadSolveAVX2 false) {r : Roots F} (hr : r.x1 = 0 ∧ r.x2 = 0) :
    t.solve sqrt a b c r = .zero := by
  have heps := FloatType.float.epsilon_pos (F := F)
  cases t with
  | TestQuadSolve =>
    rw [QuadTest.solve, quadSolve_of_neg h, hr.1, hr.2]
    rfl
  | TestQuadSolveOptimized =>
    rw [QuadTest.solve, quadSolveOptimized_of_neg h, hr.1, hr.2]
    rfl
  | TestQuadSolveAVX2 fma =>
    cases fma with
    | false => exact absurd rfl ht
    | true => exact classify_of_neg heps h 0 0
  | TestQuadSolveSIMD W M asIMask =>
    rw [QuadTest.solve, classify_of_neg heps h, hr.1, hr.2]
    rfl

/-- Cleared contents are as good as zeros. -/
theorem Cleared.solve_eq {r : Roots F} (hr : Cleared a b c r) (t : QuadTest) :
    t.solve sqrt a b c r = t.solve sqrt a b c .zero := by
  by_cases ht : t = .TestQuadSolveAVX2 false
  · subst ht
    rfl
  · by_cases h : discriminant a b c < 0
    · rw [QuadTest.solve_of_neg h ht (hr h), QuadTest.solve_of_neg h ht ⟨rfl, rfl⟩]
    · exact QuadTest.solve_of_nonneg h t r .zero

/-- Every version but the AVX2 one without `__FMA__` keeps them cleared. -/
theorem Cleared.solve {r : Roots F} (hr : Cleared a b c r) {t : QuadTest}
    (ht : t ≠ .TestQuadSolveAVX2 false) : Cleared a b c (t.solve sqrt a b c r) := by
  intro h
  rw [QuadTest.solve_of_neg h ht (hr h)]
  exact ⟨rfl, rfl⟩

/-- The result of a test with vectors of one width is a result of `QuadSolve`. -/
theorem QuadTest.solve_agrees {t : QuadTest} (ht : t ≠ .TestQuadSolveAVX2 false)
    (hopt : t = .TestQuadSolveOptimized → discriminant a b c ≠ FloatType.float.epsilon)
    (ha : a ≠ 0) :
    (t.solve sqrt a b c .zero).Agrees (quadSolve .float sqrt a b c 0 0) 0 0 := by
  have hclass := classify_agrees .float sqrt ha b c 0 0 0 0
  cases t with
  | TestQuadSolve =>
    refine ⟨rfl, fun _ => .inl ⟨rfl, rfl⟩, fun _ => ⟨rfl, rfl⟩, fun hnone => ?_⟩
    by_cases h : discriminant a b c < 0
    · rw [QuadTest.solve, quadSolve_of_neg h]
      exact ⟨rfl, rfl⟩
    · simp only [quadSolve, if_neg h] at hnone
      split_ifs at hnone <;> simp at hnone
  | TestQuadSolveOptimized =>
    rw [QuadTest.solve, quadSolveOptimized_of_ne (hopt rfl)]
    exact hclass
  | TestQuadSolveAVX2 fma =>
    cases fma with
    | false => exact absurd rfl ht
    | true => exact hclass
  | TestQuadSolveSIMD W M asIMask => exact hclass

end Cleared

/-! ## Repeated calls -/

section Repeated

variable [IsStrictOrderedRing F] {sqrt : F → F} {a b c : Nat → F} {t : QuadTest} {p : Nat}
  {r : Roots F}

theorem Cleared.solveAt (hr : Cleared (a p) (b p) (c p) r) (ht : t ≠ .TestQuadSolveAVX2 false) :
    Cleared (a p) (b p) (c p) (t.solveAt sqrt a b c p r) := hr.solve ht

theorem Cleared.iterate (hr : Cleared (a p) (b p) (c p) r) (ht : t ≠ .TestQuadSolveAVX2 false)
    (n : Nat) : Cleared (a p) (b p) (c p) ((t.solveAt sqrt a b c p)^[n] r) := by
  induction n with
  | zero => exact hr
  | succ n ih =>
    rw [Function.iterate_succ_apply']
    exact ih.solveAt ht

/-- A second call leaves what the first has left. -/
theorem Cleared.solveAt_solveAt (hr : Cleared (a p) (b p) (c p) r) :
    t.solveAt sqrt a b c p (t.solveAt sqrt a b c p r) = t.solveAt sqrt a b c p r := by
  have hx : t.solve sqrt (a p) (b p) (c p) (t.solveAt sqrt a b c p r) =
      t.solve sqrt (a p) (b p) (c p) r := by
    by_cases ht : t = .TestQuadSolveAVX2 false
    · subst ht
      rfl
    · exact ((hr.solveAt ht).solve_eq t).trans (hr.solve_eq t).symm
  refine Roots.ext ?_ ?_ ?_
  · simp only [QuadTest.solveAt]
    split <;> rfl
  · rw [QuadTest.solveAt_x1, hx, QuadTest.solveAt_x1]
  · rw [QuadTest.solveAt_x2, hx, QuadTest.solveAt_x2]

theorem Cleared.iterate_eq (hr : Cleared (a p) (b p) (c p) r) {n : Nat} (hn : 0 < n) :
    (t.solveAt sqrt a b c p)^[n] r = t.solveAt sqrt a b c p r := by
  obtain ⟨n, rfl⟩ := Nat.exists_eq_add_of_le' hn
  rw [Function.iterate_succ_apply]
  exact Function.iterate_fixed hr.solveAt_solveAt n

end Repeated

/-! ## All runs of the main program -/

section Main

variable [IsStrictOrderedRing F] (sqrt : F → F) {cvt : F → Int}
variable (hcvt : ∀ n : Int, IntTy.int.Fits n → cvt n = n) (a b c : Nat → F) {kN : Nat}

include hcvt

/-- The tests keep the contents cleared. -/
theorem quadMain_cleared (kNruns : Nat) (tests : List QuadTest)
    (htests : ∀ t ∈ tests, t.Fits kN) (hfma : QuadTest.TestQuadSolveAVX2 false ∉ tests)
    {s : QuadArrays F} (hs : ∀ p, Cleared (a p) (b p) (c p) (s.at p)) :
    ∃ s', quadMain sqrt cvt a b c kNruns kN tests s = some s' ∧
      ∀ p, Cleared (a p) (b p) (c p) (s'.at p) := by
  induction tests generalizing s with
  | nil => exact ⟨s, rfl, hs⟩
  | cons t tests ih =>
    obtain ⟨ht, hrest⟩ := not_or.mp (mt List.mem_cons.mpr hfma)
    obtain ⟨s', hrun, hat⟩ := QuadTest.run_at sqrt hcvt a b c (htests t List.mem_cons_self) kNruns s
    rw [quadMain, hrun, Option.bind_some]
    refine ih (fun t' ht' => htests t' (List.mem_cons_of_mem t ht')) hrest fun p => ?_
    rw [hat]
    split
    · exact (hs p).iterate (Ne.symm ht) kNruns
    · exact hs p

/-- Whatever versions of the solver `main` has called before and however often, but for the
AVX2 one without `__FMA__`, the arrays end as one run of the last version alone leaves them.
Where its vectors of integers are the shorter ones, the numbers of roots beyond them are still
those of the earlier versions; with vectors of one width, all entries are results of
`QuadSolve`. -/
theorem quadMain_last {kNruns : Nat} (hruns : 0 < kNruns) (tests : List QuadTest) (t : QuadTest)
    (htests : ∀ t' ∈ tests ++ [t], t'.Fits kN)
    (hfma : QuadTest.TestQuadSolveAVX2 false ∉ tests) (ha : ∀ i, i < kN → a i ≠ 0) :
    ∃ before s s', quadMain sqrt cvt a b c kNruns kN tests .zero = some before ∧
      quadMain sqrt cvt a b c kNruns kN (tests ++ [t]) .zero = some s ∧
      t.run sqrt cvt a b c 1 kN .zero = some s' ∧
      (∀ i, i < kN → s.x1 i = s'.x1 i ∧ s.x2 i = s'.x2 i ∧ s.roots.cell i =
        if i % t.lanes < t.intLanes then s'.roots.cell i else before.roots.cell i) ∧
      (t.OneWidth → t ≠ .TestQuadSolveAVX2 false → ∀ i, i < kN →
        (t = .TestQuadSolveOptimized →
          b i * b i - 4 * a i * c i ≠ FloatType.float.epsilon) →
        (s.at i).Agrees (quadSolve .float sqrt (a i) (b i) (c i) 0 0) 0 0) := by
  have ht := htests t (List.mem_append_right tests (List.mem_singleton_self t))
  obtain ⟨before, hrun, hclear⟩ := quadMain_cleared sqrt hcvt a b c kNruns tests
    (fun t' ht' => htests t' (List.mem_append_left [t] ht')) hfma (s := .zero)
    fun p => cleared_zero
  obtain ⟨s, hlast, hat⟩ := QuadTest.run_at sqrt hcvt a b c ht kNruns before
  obtain ⟨s', honce, hat'⟩ := QuadTest.run_at sqrt hcvt a b c ht 1 .zero
  have hsolve : ∀ i, i < kN → s.at i = t.solveAt sqrt a b c i (before.at i) := by
    intro i hi
    rw [hat, if_pos hi, (hclear i).iterate_eq hruns]
  have hsolve' : ∀ i, i < kN → s'.at i = t.solveAt sqrt a b c i .zero := by
    intro i hi
    rw [hat', if_pos hi]
    rfl
  refine ⟨before, s, s', hrun, ?_, honce, ?_, ?_⟩
  · rw [quadMain_append, hrun, Option.bind_some, quadMain, hlast]
    rfl
  · intro i hi
    have hx : t.solve sqrt (a i) (b i) (c i) (before.at i) =
        t.solve sqrt (a i) (b i) (c i) .zero := (hclear i).solve_eq t
    have hs := hsolve i hi
    have hs' := hsolve' i hi
    refine ⟨?_, ?_, ?_⟩
    · calc s.x1 i = (t.solveAt sqrt a b c i (before.at i)).x1 := congrArg Roots.x1 hs
        _ = (t.solveAt sqrt a b c i .zero).x1 := by
          rw [QuadTest.solveAt_x1, hx, QuadTest.solveAt_x1]
        _ = s'.x1 i := (congrArg Roots.x1 hs').symm
    · calc s.x2 i = (t.solveAt sqrt a b c i (before.at i)).x2 := congrArg Roots.x2 hs
        _ = (t.solveAt sqrt a b c i .zero).x2 := by
          rw [QuadTest.solveAt_x2, hx, QuadTest.solveAt_x2]
        _ = s'.x2 i := (congrArg Roots.x2 hs').symm
    · refine (congrArg Roots.roots hs).trans (if_ctx_congr Iff.rfl (fun hassign => ?_) fun _ => rfl)
      exact ((congrArg Roots.roots hs').trans (if_pos hassign)).symm
  · intro hone hne i hi hopt
    rw [hsolve i hi, QuadTest.solveAt_of_oneWidth sqrt a b c hone ht.pos, (hclear i).solve_eq]
    exact QuadTest.solve_agrees hne hopt (ha i hi)

end Main

/-- A backend with eight floats and four integers in a vector, which reads the first half of a
mask. -/
def halfMask (mask : Mask 8) : Mask 4 := fun k => mask (Fin.castLE (by decide) k)

/-- Eight times `x * x - 3 * x + 2 = 0` and eight times `x * x + 1 = 0`, through all versions. -/
theorem quadMain_last_sixteen :
    ∃ before s s', quadMain Real.sqrt round (fun _ => 1) (fun i => if i < 8 then -3 else 0)
        (fun i => if i < 8 then 2 else 1) 10 16
        [.TestQuadSolve, .TestQuadSolveOptimized, .TestQuadSolveAVX2 true,
          .TestQuadSolveSIMD 1 1 id, .TestQuadSolveSIMD 8 4 halfMask] .zero = some before ∧
      quadMain Real.sqrt round (fun _ => 1) (fun i => if i < 8 then -3 else 0)
        (fun i => if i < 8 then 2 else 1) 10 16
        ([.TestQuadSolve, .TestQuadSolveOptimized, .TestQuadSolveAVX2 true,
          .TestQuadSolveSIMD 1 1 id, .TestQuadSolveSIMD 8 4 halfMask] ++
          [.TestQuadSolveSIMD 4 4 id]) .zero = some s ∧
      (QuadTest.TestQuadSolveSIMD 4 4 id).run Real.sqrt round (fun _ => 1)
        (fun i => if i < 8 then -3 else 0) (fun i => if i < 8 then 2 else 1) 1 16 .zero =
          some s' ∧
      (∀ i, i < 16 → s.x1 i = s'.x1 i ∧ s.x2 i = s'.x2 i ∧ s.roots.cell i =
        if i % 4 < 4 then s'.roots.cell i else before.roots.cell i) ∧
      ((QuadTest.TestQuadSolveSIMD 4 4 id).OneWidth →
        QuadTest.TestQuadSolveSIMD 4 4 id ≠ .TestQuadSolveAVX2 false → ∀ i, i < 16 →
        (QuadTest.TestQuadSolveSIMD 4 4 id = .TestQuadSolveOptimized →
          (if i < 8 then -3 else 0) * (if i < 8 then -3 else 0) -
            4 * 1 * (if i < 8 then 2 else 1) ≠ (FloatType.float.epsilon : ℝ)) →
        (s.at i).Agrees (quadSolve .float Real.sqrt 1 (if i < 8 then -3 else 0)
          (if i < 8 then 2 else 1) 0 0) 0 0) := by
  refine quadMain_last Real.sqrt (fun n _ => round_intCast n) _ _ _ (by decide) _ _ ?_ (by simp)
    fun _ _ => one_ne_zero
  intro t ht
  simp only [List.cons_append, List.nil_append, List.mem_cons, List.not_mem_nil, or_false] at ht
  rcases ht with rfl | rfl | rfl | rfl | rfl | rfl
  all_goals exact ⟨by decide, by decide, by decide⟩

end VecCore.Bench
