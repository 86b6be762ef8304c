/-
  Bench/QuadraticTiles.lean --- the tile loop of bench/quadratic.cc on UME::SIMD.

  `TestQuadSolve<backend::UMESimd>` advances by the number of floats in a vector
  and stores as many roots as a vector of 32-bit integers has lanes.  Both
  numbers come from the table of SIMDSizes.h.  The arithmetic is uninterpreted,
  and so is what reading a mask of one width as one of the other yields.
-/
import VecCore.Foundation.Coverage
import VecCore.Foundation.Store
import VecCore.Backend.SIMDSizes
import VecCore.Bench.Quadratic

set_option autoImplicit false

namespace VecCore.Bench

open VecCore.Foundation

variable {F : Type*} {W M : Nat}

/-- The constants `0.0f`, `1.0f`, `-1.0f`, `4.0f`, `-0.5f` and
`NumericLimits<Float_v>::Epsilon()`. -/
structure QuadConstants (F : Type*) where
  zero : F
  one : F
  negOne : F
  four : F
  negHalf : F
  epsilon : F

/-- The constants, exactly. -/
def QuadConstants.exact (F : Type*) [Field F] : QuadConstants F where
  zero := 0
  one := 1
  negOne := -1
  four := 4
  negHalf := -(1 / 2)
  epsilon := FloatType.float.epsilon

/-- What a call leaves in `roots`, `x1` and `x2`, for `W` floats and `M` integers. -/
structure RootsWM (W M : Nat) (F : Type*) where
  roots : Lanes M Int
  x1 : Lanes W F
  x2 : Lanes W F

/-- The arrays `x1`, `x2` and `roots`.  The assignments to `roots` are logged. -/
structure QuadArrays (F : Type*) where
  x1 : Nat → F
  x2 : Nat → F
  roots : Store Int

namespace UMESimd

/-! ## The code -/

/-- `Blend` of UMESimdCommon.h: `dst = src2.blend(mask, src1)`. -/
def blend {V : Nat} {α : Type*} (mask : Mask V) (src1 src2 : Lanes V α) : Lanes V α :=
  maskedAssign src2 mask src1

theorem blend_eq {V : Nat} {α : Type*} [Zero α] (mask : Mask V) (src1 src2 : Lanes V α) :
    blend mask src1 src2 = VecCore.blend mask src1 src2 := by
  funext i
  rw [blend, maskedAssign_apply, blend_apply]

section Code

variable [Add F] [Sub F] [Mul F] [Div F] [LT F] [DecidableLT F] [LE F] [DecidableLE F]

/-- `QuadSolveSIMD`, where `Float_v` has `W` lanes and `Int32_v` has `M`; `asIMask`
is the cast from `FMask&` to `IMask&`. -/
def quadSolveSIMD (asIMask : Mask W → Mask M) (k : QuadConstants F) (sqrt : F → F)
    (a b c x1 x2 : Lanes W F) : RootsWM W M F :=
  let a_inv := splat k.one / a
  let delta := b * b - splat k.four * a * c
  let sign := blend (geLanes b (splat k.zero)) (splat k.one) (splat k.negOne)
  let mask0 := ltLanes delta (splat k.zero)
  let mask2 := geLanes delta (splat k.epsilon)
  let root1 := splat k.negHalf * (b + sign * mathUnary sqrt delta)
  let root2 := c / root1
  let root1 := root1 * a_inv
  let mask1 : Mask W := fun i => !(mask2 i || mask0 i)
  let x1 := maskedAssign x1 mask2 root1
  let x2 := maskedAssign x2 mask2 root2
  let roots := blend (asIMask mask2) (splat 2) (splat 0)
  if maskEmpty mask1 then { roots, x1, x2 }
  else
    let root1 := splat k.negHalf * b * a_inv
    let roots := maskedAssign roots (asIMask mask1) (splat 1)
    let x1 := maskedAssign x1 mask1 root1
    let x2 := maskedAssign x2 mask1 root1
    { roots, x1, x2 }

/-- One iteration of the tile loop.  The log has the lanes of `roots` once for every
call: the `Blend` always assigns them, and where the call comes to the masked
assignment, a lane it assigns once more is not logged again. -/
def quadSolveTile (asIMask : Mask W → Mask M) (k : QuadConstants F) (sqrt : F → F)
    (a b c : Nat → F) (i : Nat) (s : QuadArrays F) : Option (QuadArrays F) :=
  let r := quadSolveSIMD asIMask k sqrt (asVec W a i) (asVec W b i) (asVec W c i)
    (asVec W s.x1 i) (asVec W s.x2 i)
  some {
    x1 := store r.x1 s.x1 i
    x2 := store r.x2 s.x2 i
    roots := s.roots.writeLanes i r.roots }

/-- `TestQuadSolve<Backend>`, without its timers. -/
def testQuadSolve (asIMask : Mask W → Mask M) (k : QuadConstants F) (sqrt : F → F)
    (a b c : Nat → F) (kNruns kN : Nat) (s : QuadArrays F) : Option (QuadArrays F) :=
  forLoop 1 kNruns (fun _ s => forLoop W kN (quadSolveTile asIMask k sqrt a b c) 0 s) 0 s

end Code

/-- With one width and exact arithmetic, the solver is that of the other backends. -/
theorem quadSolveSIMD_eq [Field F] [LinearOrder F] (sqrt : F → F) (a b c x1 x2 : Lanes W F) :
    quadSolveSIMD id (.exact F) sqrt a b c x1 x2 =
      { roots := (Bench.quadSolveSIMD sqrt a b c x1 x2).roots
        x1 := (Bench.quadSolveSIMD sqrt a b c x1 x2).x1
        x2 := (Bench.quadSolveSIMD sqrt a b c x1 x2).x2 } := by
  unfold quadSolveSIMD Bench.quadSolveSIMD
  simp only [blend_eq, QuadConstants.exact, id]
  split <;> rfl

/-- Whatever the cast between the masks yields, `x1` and `x2` are those of the other backends. -/
theorem quadSolveSIMD_x [Field F] [LinearOrder F] (asIMask : Mask W → Mask M) (sqrt : F → F)
    (a b c x1 x2 : Lanes W F) :
    (quadSolveSIMD asIMask (.exact F) sqrt a b c x1 x2).x1 =
        (Bench.quadSolveSIMD sqrt a b c x1 x2).x1 ∧
      (quadSolveSIMD asIMask (.exact F) sqrt a b c x1 x2).x2 =
        (Bench.quadSolveSIMD sqrt a b c x1 x2).x2 := by
  unfold quadSolveSIMD Bench.quadSolveSIMD
  simp only [blend_eq, QuadConstants.exact]
  split <;> exact ⟨rfl, rfl⟩

/-- The numbers of roots do not depend on what `x1` and `x2` held. -/
theorem quadSolveSIMD_roots [Field F] [LinearOrder F] (asIMask : Mask W → Mask M) (sqrt : F → F)
    (a b c x1 x2 y1 y2 : Lanes W F) :
    (quadSolveSIMD asIMask (.exact F) sqrt a b c x1 x2).roots =
      (quadSolveSIMD asIMask (.exact F) sqrt a b c y1 y2).roots := by
  unfold quadSolveSIMD
  dsimp only
  split <;> rfl

/-! ## Coverage -/

section Coverage

variable [Add F] [Sub F] [Mul F] [Div F] [LT F] [DecidableLT F] [LE F] [DecidableLE F]
variable (asIMask : Mask W → Mask M) (k : QuadConstants F) (sqrt : F → F) (a b c : Nat → F)

/-- A tile assigns the `M` roots from `i` on. -/
theorem quadSolveTile_count (i : Nat) (s : QuadArrays F) :
    ∃ s', quadSolveTile asIMask k sqrt a b c i s = some s' ∧ ∀ j,
      s'.roots.log.count j = s.roots.log.count j + if i ≤ j ∧ j < i + M then 1 else 0 :=
  ⟨_, rfl, fun j => s.roots.count_writeLanes_log i _ j⟩

/-- Every run assigns the first `M` of every `W` roots once, and nothing else. -/
theorem testQuadSolve_count (hW : 0 < W) (hM : M ≤ W) {kN : Nat} (hkN : W ∣ kN) (kNruns : Nat)
    (s : QuadArrays F) :
    ∃ s', testQuadSolve asIMask k sqrt a b c kNruns kN s = some s' ∧ ∀ i,
      s'.roots.log.count i = s.roots.log.count i + kNruns * hits W M kN i :=
  forLoop_count_runs (fun s : QuadArrays F => s.roots.log)
    (fun _ s => forLoop_count_log (fun s : QuadArrays F => s.roots.log) hW hM hkN
      (fun i s => quadSolveTile_count asIMask k sqrt a b c i s) s) kNruns s

/-- The runs assign every root below `kN` once each, and nothing at or beyond `kN`. -/
def AssignsRootsOnce (kN : Nat) (s : QuadArrays F) : Prop :=
  ∀ kNruns, ∃ s', testQuadSolve asIMask k sqrt a b c kNruns kN s = some s' ∧ ∀ i,
    s'.roots.log.count i = s.roots.log.count i + if i < kN then kNruns else 0

/-- They do so just when both vector types have as many lanes. -/
theorem assignsRootsOnce_iff (hW : 0 < W) (hM : M ≤ W) {kN : Nat} (hkN : W ∣ kN)
    (s : QuadArrays F) :
    AssignsRootsOnce asIMask k sqrt a b c kN s ↔ M = W ∨ kN = 0 := by
  constructor
  · intro h
    by_contra hne
    obtain ⟨hMW, h0⟩ := not_or.mp hne
    have hlt : M < W := lt_of_le_of_ne hM hMW
    have hpos : M < kN := lt_of_lt_of_le hlt (Nat.le_of_dvd (Nat.pos_of_ne_zero h0) hkN)
    obtain ⟨s', hrun, hcount⟩ := h 1
    obtain ⟨t, hrun', hcount'⟩ := testQuadSolve_count asIMask k sqrt a b c hW hM hkN 1 s
    obtain rfl : s' = t := Option.some.inj (hrun.symm.trans hrun')
    have hone := hcount M
    rw [hcount' M, hits_gap hlt, if_pos hpos] at hone
    omega
  · intro h kNruns
    obtain ⟨s', hrun, hcount⟩ := testQuadSolve_count asIMask k sqrt a b c hW hM hkN kNruns s
    refine ⟨s', hrun, ?_⟩
    intro i
    rw [hcount i]
    rcases h with rfl | rfl
    · rw [hits_self hW]
      split_ifs <;> omega
    · simp

end Coverage

/-! ## The targets -/

section Targets

variable [Add F] [Sub F] [Mul F] [Div F] [LT F] [DecidableLT F] [LE F] [DecidableLE F]

/-- Compiled for any target but AVX without AVX2, every run assigns every root below `kN`
once and nothing at or beyond `kN`.  Compiled for AVX, no run does. -/
theorem assignsRootsOnce_target_iff (t : Target)
    (asIMask : Mask (simdWidth t .float) → Mask (simdWidth t .int32)) (k : QuadConstants F)
    (sqrt : F → F) (a b c : Nat → F) {kN : Nat} (hkN : simdWidth t .float ∣ kN)
    (s : QuadArrays F) :
    AssignsRootsOnce asIMask k sqrt a b c kN s ↔ t ≠ .avx ∨ kN = 0 := by
  have hle := simdWidth_int32_le_float t
  rw [assignsRootsOnce_iff asIMask k sqrt a b c (simdWidth_pos t .float) hle hkN s, ne_eq,
    ← simdWidth_int32_lt_float_iff t]
  refine or_congr_left ?_
  omega

/-- Two tiles compiled for SSE. -/
theorem assignsRootsOnce_target_iff_sse :
    AssignsRootsOnce (F := ℚ) (W := simdWidth .sse .float) (M := simdWidth .sse .int32) id
      (.exact ℚ) id (fun _ => 1) (fun _ => 0) (fun _ => 0) 8
      ⟨fun _ => 0, fun _ => 0, .fresh fun _ => 0⟩ :=
  (assignsRootsOnce_target_iff .sse id (.exact ℚ) id _ _ _ (by decide) _).mpr (.inl (by decide))

/-- One tile compiled for AVX leaves `roots[4]` to `roots[7]` as they were. -/
theorem not_assignsRootsOnce_avx :
    simdWidth .avx .float ∣ 8 ∧
    ¬ AssignsRootsOnce (F := ℚ) (W := simdWidth .avx .float) (M := simdWidth .avx .int32)
      (fun mask i => mask (Fin.castLE (simdWidth_int32_le_float .avx) i)) (.exact ℚ) id
      (fun _ => 1) (fun _ => 0) (fun _ => 0) 8 ⟨fun _ => 0, fun _ => 0, .fresh fun _ => 0⟩ := by
  refine ⟨by decide, ?_⟩
  rw [assignsRootsOnce_iff _ _ _ _ _ _ (simdWidth_pos .avx .float)
    (simdWidth_int32_le_float .avx) (by decide)]
  decide

end Targets

end UMESimd

end VecCore.Bench
