/-
  Bench/MandelbrotAVX.lean --- mandelbrot_avx2 of bench/mandelbrot.cc, with exact
  arithmetic.

  The loop is written with intrinsics: float masks select lanes by their sign
  bit, the same bits select the bytes of the integer counters, the mask is a
  negated comparison, and the loop test reads all sign bits.  Each register is
  what it stands for in a lockstep search: a mask lane is all ones or all zeros,
  and a counter lane the count of the lane modulo 2^32.
-/
import VecCore.Bench.Mandelbrot
import VecCore.Foundation.Intrinsics
import Mathlib.Data.Fintype.Basic
import Mathlib.Tactic.FinCases

set_option autoImplicit false

namespace VecCore.Bench

open VecCore.Foundation

variable {F : Type*} [Field F] [LinearOrder F]

/-! ## The program -/

/-- `fmadd(a, b, c)` with `__FMA__`, `add(mul(a, b), c)` without. -/
def mulAdd (fma : Bool) (a b c : M256 F) : M256 F :=
  if fma then mm256Fmadd a b c else mm256Add (mm256Mul a b) c

/-- The variables of the do/while loop. -/
structure EscapeAVXState (F : Type*) where
  k : Nat
  zr : M256 F
  zi : M256 F
  kv : M256i
  mask : M256Mask

/-- The body of the loop, compiled with `__FMA__` or without. -/
def escapeAVXBody (fma : Bool) (cr ci : M256 F) (s : EscapeAVXState F) : EscapeAVXState F :=
  let zr2 := mm256Mul s.zr s.zr
  let zi2 := mm256Mul s.zi s.zi
  let zri := mm256Mul s.zr s.zi
  let x := mm256Add (mm256Sub zr2 zi2) cr
  let y := mulAdd fma (mm256Set1 2) zri ci
  let zr := mm256Blendv s.zr x s.mask
  let zi := mm256Blendv s.zi y s.mask
  let k := s.k + 1
  { k, zr, zi
    kv := mm256BlendvEpi8 s.kv (mm256Set1Epi32 k) (mm256CastpsSi256 s.mask)
    mask := mm256Cmp (mm256Add (mm256Mul zr zr) (mm256Mul zi zi)) (mm256Set1 4) .NGE_UQ }

/-- `k < max_iter && !_mm256_testz_ps(mask, mask)`. -/
def escapeAVXCond (maxIter : Nat) (s : EscapeAVXState F) : Bool :=
  decide (s.k < maxIter) && !mm256Testz s.mask s.mask

/-- The do/while loop from the points `x, y`. -/
def escapeAVX (fma : Bool) (fuel maxIter : Nat) (x y : M256 F) : Option (EscapeAVXState F) :=
  doWhile (escapeAVXBody fma x y) (escapeAVXCond maxIter) fuel
    { k := 0, zr := x, zi := y
      kv := mm256SetzeroSi256
      mask := mm256Cmp (mm256Setzero : M256 F) mm256Setzero .EQ_OQ }

/-- The do/while loop of `mandelbrot_avx2` for the tile in row `i` from column `j`
on. -/
def mandelbrotAVX2Tile (fma : Bool) (fuel : Nat) (g : Grid F) (maxIter i j : Nat) :
    Option (EscapeAVXState F) :=
  let dx := mm256Set1 ((g.xmax - g.xmin) / (g.nx : F))
  let dy := mm256Set1 ((g.ymax - g.ymin) / (g.ny : F))
  let dyv := mm256Mul dy (mm256Set 7 6 5 4 3 2 1 0)
  let x := mulAdd fma (mm256Set1 (i : F)) dx (mm256Set1 g.xmin)
  let y := mulAdd fma (mm256Set1 (j : F)) dy (mm256Add (mm256Set1 g.ymin) dyv)
  escapeAVX fma fuel maxIter x y

/-- `mandelbrot_avx2`. -/
def mandelbrotAVX2 (fma : Bool) (log log2 : F → F) (fuel : Nat) (g : Grid F) (maxIter : Nat)
    (image : Store F) : Option (Store F) :=
  sweep 8 g.nx g.ny (fun i j => (mandelbrotAVX2Tile fma fuel g maxIter i j).map fun s k =>
    smoothValue log log2 (s.zr k) (s.zi k) (s.kv k).toInt) image

/-! ## Registers -/

omit [LinearOrder F] in
@[simp] theorem mulAdd_apply (fma : Bool) (a b c : M256 F) (i : Fin 8) :
    mulAdd fma a b c i = a i * b i + c i := by
  cases fma <;> rfl

omit [LinearOrder F] in
/-- The constant of `dyv` holds the lane numbers. -/
theorem mm256Set_lane (k : Fin 8) : (mm256Set 7 6 5 4 3 2 1 0 : M256 F) k = ((k : Nat) : F) := by
  fin_cases k <;> simp [mm256Set]

/-! ## The loop -/

/-- The registers that stand for a lockstep state. -/
def ofLockstepAVX (s : Lockstep 8 (F × F)) : EscapeAVXState F where
  k := s.k
  zr i := (s.z i).1
  zi i := (s.z i).2
  kv i := BitVec.ofNat 32 (s.count i)
  mask := maskOf s.mask

/-- The body of the loop is one lockstep iteration. -/
theorem escapeAVXBody_ofLockstepAVX (fma : Bool) (cr ci : M256 F) (s : Lockstep 8 (F × F)) :
    ofLockstepAVX (lockstepBody (fun i => escapeMap (cr i) (ci i)) bounded s) =
      escapeAVXBody fma cr ci (ofLockstepAVX s) := by
  simp only [ofLockstepAVX, lockstepBody, escapeAVXBody, EscapeAVXState.mk.injEq]
  have hx : ∀ i, (if s.mask i then escapeMap (cr i) (ci i) (s.z i) else s.z i).1 =
      mm256Blendv (fun i => (s.z i).1) (mm256Add (mm256Sub
        (mm256Mul (fun i => (s.z i).1) fun i => (s.z i).1)
        (mm256Mul (fun i => (s.z i).2) fun i => (s.z i).2)) cr) (maskOf s.mask) i := by
    intro i
    rw [apply_ite Prod.fst, mm256Blendv_maskOf]
    rfl
  have hy : ∀ i, (if s.mask i then escapeMap (cr i) (ci i) (s.z i) else s.z i).2 =
      mm256Blendv (fun i => (s.z i).2) (mulAdd fma (mm256Set1 2)
        (mm256Mul (fun i => (s.z i).1) fun i => (s.z i).2) ci) (maskOf s.mask) i := by
    intro i
    rw [apply_ite Prod.snd, mm256Blendv_maskOf, mulAdd_apply, mm256Mul_apply, mm256Set1_apply,
      ← mul_assoc]
    rfl
  refine ⟨trivial, funext hx, funext hy, ?_, ?_⟩
  · funext i
    rw [mm256BlendvEpi8_maskOf]
    exact apply_ite (BitVec.ofNat 32) _ _ _
  · rw [mm256Cmp_eq_maskOf]
    refine congrArg maskOf (funext fun i => ?_)
    rw [CmpPredicate.holds_NGE_UQ, mm256Add_apply, mm256Mul_apply, mm256Mul_apply,
      mm256Set1_apply, ← hx, ← hy]
    rfl

omit [Field F] [LinearOrder F] in
/-- So is its test. -/
theorem escapeAVXCond_ofLockstepAVX (maxIter : Nat) (s : Lockstep 8 (F × F)) :
    lockstepCond maxIter s = escapeAVXCond maxIter (ofLockstepAVX s) := by
  unfold lockstepCond escapeAVXCond
  rw [ofLockstepAVX, mm256Testz_maskOf]

/-- The loop is a lockstep search of the lanes' orbits, whose counts are held modulo
2^32. -/
theorem escapeAVX_exits (fma : Bool) (maxIter : Nat) (x y : M256 F) {fuel : Nat}
    (hfuel : max 1 maxIter ≤ fuel) :
    ∃ s, escapeAVX fma fuel maxIter x y = some s ∧ ∀ i, ∃ n,
      s.kv i = BitVec.ofNat 32 n ∧
      ExitsAt (escapeMap (x i) (y i)) bounded maxIter (x i, y i) n ∧
        (s.zr i, s.zi i) = (escapeMap (x i) (y i))^[n] (x i, y i) := by
  obtain ⟨t, hrun, hexit⟩ :=
    lockstep_exits (fun i => escapeMap (x i) (y i)) bounded maxIter (fun i => (x i, y i)) hfuel
  have hinit : ofLockstepAVX ⟨0, fun i => (x i, y i), splat 0, splat true⟩ =
      { k := 0, zr := x, zi := y
        kv := mm256SetzeroSi256
        mask := mm256Cmp (mm256Setzero : M256 F) mm256Setzero .EQ_OQ } := by
    rw [mm256Cmp_eq_maskOf]
    simp only [CmpPredicate.holds, decide_true]
    rfl
  have hmap := doWhile_map (escapeAVXBody fma x y) (escapeAVXCond maxIter) ofLockstepAVX
    (escapeAVXBody_ofLockstepAVX fma x y) (escapeAVXCond_ofLockstepAVX maxIter) fuel
    ⟨0, fun i => (x i, y i), splat 0, splat true⟩
  rw [hrun, hinit] at hmap
  exact ⟨ofLockstepAVX t, hmap.symm, fun i => ⟨t.count i, rfl, hexit i⟩⟩

/-- Each lane ends with the values and the iteration count of the scalar loop, which
the signed counter lane holds. -/
theorem escapeAVX_eq_escape (fma : Bool) {maxIter : Nat} (hmax : maxIter < 2 ^ 31)
    (x y : M256 F) {fuel : Nat} (hfuel : max 1 maxIter ≤ fuel) :
    ∃ s, escapeAVX fma fuel maxIter x y = some s ∧ ∀ i, ∃ n : Nat, (s.kv i).toInt = n ∧
      escape fuel maxIter (x i) (y i) (x i) (y i) =
        some { k := n, zr := s.zr i, zi := s.zi i } := by
  obtain ⟨s, hrun, hlanes⟩ := escapeAVX_exits fma maxIter x y hfuel
  refine ⟨s, hrun, ?_⟩
  intro i
  obtain ⟨n, hkv, hexit, hz⟩ := hlanes i
  obtain ⟨n', hexit', hscalar⟩ := escape_exits maxIter (x i) (y i) (x i) (y i) hfuel
  obtain rfl := hexit'.unique hexit
  refine ⟨n', ?_, by rw [hscalar, ← hz]⟩
  have hle := hexit.le_max
  have hnat : (BitVec.ofNat 32 n').toNat = n' := by
    rw [BitVec.toNat_ofNat]
    exact Nat.mod_eq_of_lt (by omega)
  rw [hkv, BitVec.toInt_eq_toNat_of_lt (by rw [hnat]; omega), hnat]

/-! ## The image -/

/-- Lane `k` of a tile computes the pixel `k` columns further on. -/
theorem mandelbrotAVX2Tile_lanes (fma : Bool) (g : Grid F) {maxIter : Nat}
    (hmax : maxIter < 2 ^ 31) (i j : Nat) {fuel : Nat} (hfuel : max 1 maxIter ≤ fuel) :
    ∃ s, mandelbrotAVX2Tile fma fuel g maxIter i j = some s ∧ ∀ k : Fin 8, ∃ n : Nat,
      (s.kv k).toInt = n ∧ mandelbrotPixel fuel g maxIter i (j + k) =
        some { k := n, zr := s.zr k, zi := s.zi k } := by
  obtain ⟨s, hrun, hlanes⟩ := escapeAVX_eq_escape (F := F) fma hmax _ _ hfuel
  refine ⟨s, hrun, ?_⟩
  intro k
  obtain ⟨n, hn, hpixel⟩ := hlanes k
  refine ⟨n, hn, ?_⟩
  have hcolumn : ∀ d : F, (j : F) * d + (g.ymin + d * (k : Nat)) =
      g.ymin + ((j + k : Nat) : F) * d := by
    intro d
    rw [column_add]
    ring
  rw [← hpixel]
  simp only [mandelbrotPixel, mulAdd_apply, mm256Set1_apply, mm256Add_apply, mm256Mul_apply,
    mm256Set_lane, hcolumn, add_comm g.xmin]

/-- `mandelbrot_avx2`, compiled with `__FMA__` or without, stores the values of
`mandelbrot`, in the cells of the image and in no others. -/
theorem mandelbrotAVX2_agrees (fma : Bool) (log log2 : F → F) (g : Grid F) (hny : 8 ∣ g.ny)
    {maxIter : Nat} (hmax : maxIter < 2 ^ 31) {fuel : Nat} (hfuel : max 1 maxIter ≤ fuel)
    (init initV : Nat → F) :
    ∃ image imageV, mandelbrot log log2 fuel g maxIter (Store.fresh init) = some image ∧
      mandelbrotAVX2 fma log log2 fuel g maxIter (Store.fresh initV) = some imageV ∧
      (∀ p, p < g.nx * g.ny → ∃ s,
        mandelbrotPixel fuel g maxIter (p / g.ny) (p % g.ny) = some s ∧
        image.cell p = smoothValue log log2 s.zr s.zi s.k ∧
        imageV.cell p = smoothValue log log2 s.zr s.zi s.k) ∧
      ∀ a, a ∈ imageV.log ↔ a < g.nx * g.ny := by
  have htile : ∀ i j, i < g.nx → j < g.ny → ∃ v : Lanes 8 F,
      ((mandelbrotAVX2Tile fma fuel g maxIter i j).map fun s k =>
        smoothValue log log2 (s.zr k) (s.zi k) (s.kv k).toInt) = some v ∧
      ∀ k : Fin 8, ∃ s, mandelbrotPixel fuel g maxIter i (j + k) = some s ∧
        v k = smoothValue log log2 s.zr s.zi s.k := by
    intro i j _ _
    obtain ⟨s, hs, hlanes⟩ := mandelbrotAVX2Tile_lanes fma g hmax i j hfuel
    refine ⟨_, congrArg _ hs, ?_⟩
    intro k
    obtain ⟨n, hn, hpixel⟩ := hlanes k
    refine ⟨_, hpixel, ?_⟩
    simp only [hn]
  obtain ⟨image, imageV, hrun, hrunV, hcells, hlog⟩ :=
    sweep_colors (by omega) g.nx g.ny (fun s : EscapeState F =>
      smoothValue log log2 s.zr s.zi s.k) htile init initV
  exact ⟨image, imageV, hrun, hrunV, hcells, fun a => (hlog a).trans (rows_iff hny a)⟩

/-- A square of 16 by 16 pixels and 500 iterations. -/
theorem mandelbrotAVX2_agrees_square :
    ∃ image imageV,
      mandelbrot id id 500 (⟨-2, 2, 16, -2, 2, 16⟩ : Grid Rat) 500 (Store.fresh fun _ => 0) =
        some image ∧
      mandelbrotAVX2 true id id 500 (⟨-2, 2, 16, -2, 2, 16⟩ : Grid Rat) 500
        (Store.fresh fun _ => 0) = some imageV ∧
      (∀ p, p < 16 * 16 → ∃ s,
        mandelbrotPixel 500 (⟨-2, 2, 16, -2, 2, 16⟩ : Grid Rat) 500 (p / 16) (p % 16) = some s ∧
        image.cell p = smoothValue id id s.zr s.zi s.k ∧
        imageV.cell p = smoothValue id id s.zr s.zi s.k) ∧
      ∀ a, a ∈ imageV.log ↔ a < 16 * 16 :=
  mandelbrotAVX2_agrees true id id _ (by decide) (by decide) (by decide) _ _

end VecCore.Bench
