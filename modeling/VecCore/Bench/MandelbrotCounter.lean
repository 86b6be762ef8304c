/-
  Bench/MandelbrotCounter.lean --- the counter of the loop of `mandelbrot_v`.

  The counter `k` and the bound `max_iter` have the type `Scalar<Index<T>>`: an
  unsigned integer for the scalar types and UME::SIMD, the index type of Vc for
  its vectors, and `T` itself for `std::experimental::simd`.  There both are
  rounded, and `++k` stops counting at the first power of two whose successor
  has no significand.  The arithmetic on the points is uninterpreted.
-/
import VecCore.Foundation.RoundNat
import VecCore.Backend.Limits
import VecCore.Bench.Mandelbrot
import VecCore.Bench.Quadratic

set_option autoImplicit false

namespace VecCore.Bench

open VecCore.Foundation

variable {F κ : Type*} {V : Nat}

/-! ## The counters -/

/-- An integer of the type `Scalar<Index<T>>`. -/
structure IndexScalar (T : ScalarType) where
  val : Int

namespace IndexScalar

/-- The conversion of an integer to a scalar type. -/
def round : ScalarType → Int → Int
  | .integer t, x => t.narrow x
  | .float, x => roundInt FloatFormat.single.precision x
  | .double, x => roundInt FloatFormat.double.precision x

/-- The argument `max_iter`. -/
def ofInt (T : ScalarType) (x : Int) : IndexScalar T := ⟨round T x⟩

/-- The operations of the loops.  While a signed counter is below a bound of its type, `++k`
does not overflow. -/
instance (T : ScalarType) : Counter (IndexScalar T) where
  zero := ⟨0⟩
  incr k := ⟨round T (k.val + 1)⟩
  lt a b := decide (a.val < b.val)
  toNat k := k.val.toNat

end IndexScalar

/-- The backends that `main` instantiates `mandelbrot_v` with. -/
inductive TileBackend where
  | scalar
  | vcVector
  | umeSimd
  | stdSimd

/-- The scalar type of `TypeTraits<T>::IndexType`, given the one of Vc. -/
def TileBackend.indexType (vcIndex : IntTy) : TileBackend → FloatType → ScalarType
  | scalar, _ => .integer .size
  | vcVector, _ => .integer vcIndex
  | umeSimd, _ => .integer .uint32
  | stdSimd, .float => .float
  | stdSimd, .double => .double

/-! ## The loop -/

section Code

variable [Add F] [Sub F] [Mul F] [NatCast F] [LT F] [DecidableLT F] [Counter κ]

/-- The body of the loop. -/
def tileBody (cr ci : Lanes V F) (s : EscapeVState V F κ) : EscapeVState V F κ :=
  let z := escapeStep (splat ((2 : Nat) : F)) cr ci s.zr s.zi
  let zr := maskedAssign s.zr s.m z.1
  let zi := maskedAssign s.zi s.m z.2
  let k := Counter.incr s.k
  { k := k
    zr := zr
    zi := zi
    kv := maskedAssign s.kv s.m (splat k)
    m := ltLanes (zr * zr + zi * zi) (splat ((4 : Nat) : F)) }

/-- The variables before the loop. -/
def tileStart (x y : Lanes V F) : EscapeVState V F κ :=
  { k := Counter.zero, zr := x, zi := y, kv := splat Counter.zero, m := splat true }

/-- The do/while loop of `mandelbrot_v` for the tile of the points `x + y i`. -/
def tileLoop (fuel : Nat) (maxIter : κ) (x y : Lanes V F) : Option (EscapeVState V F κ) :=
  doWhile (tileBody x y) (escapeVCond maxIter) fuel (tileStart x y)

end Code

section Tiles

variable [Add F] [Sub F] [Mul F] [Div F] [NatCast F]

/-- `x`, for the tiles of row `i`. -/
def tileX (V : Nat) (g : Grid F) (i : Nat) : Lanes V F :=
  let dx : Lanes V F := splat (g.xmax - g.xmin) / splat (g.nx : F)
  splat g.xmin + splat (i : F) * dx

/-- `y`, for the tiles from column `j` on. -/
def tileY (V : Nat) (g : Grid F) (j : Nat) : Lanes V F :=
  let iota : Lanes V F := forLanes V (fun i v => set v i ((i : Nat) : F)) (splat ((0 : Nat) : F))
  let dy : Lanes V F := splat (g.ymax - g.ymin) / splat (g.ny : F)
  let dyv := iota * dy
  splat g.ymin + splat (j : F) * dy + dyv

theorem tileX_apply (g : Grid F) (i : Nat) (l : Fin V) :
    tileX V g i l = g.xmin + i * ((g.xmax - g.xmin) / g.nx) := rfl

theorem tileY_apply (g : Grid F) (j : Nat) (l : Fin V) :
    tileY V g j l = g.ymin + j * ((g.ymax - g.ymin) / g.ny) +
      (l : Nat) * ((g.ymax - g.ymin) / g.ny) := by
  have hiota : forLanes V (fun i v => set v i ((i : Nat) : F)) (splat ((0 : Nat) : F)) =
      fun i : Fin V => ((i : Nat) : F) := forLanes_set (fun i _ => ((i : Nat) : F)) _
  simp only [tileY, hiota, Pi.add_apply, Pi.mul_apply, Pi.div_apply, splat_apply]

variable [LT F] [DecidableLT F] [Counter κ]

/-- The do/while loop of `mandelbrot_v` for the tile in row `i` from column `j` on. -/
def tile (V fuel : Nat) (g : Grid F) (maxIter : κ) (i j : Nat) : Option (EscapeVState V F κ) :=
  tileLoop fuel maxIter (tileX V g i) (tileY V g j)

end Tiles

/-- With exact arithmetic it is the loop of the other results. -/
theorem tile_eq_mandelbrotTile [Field F] [LinearOrder F] [Counter κ] (fuel : Nat) (g : Grid F)
    (maxIter : κ) (i j : Nat) :
    tile V fuel g maxIter i j = mandelbrotTile V fuel g maxIter i j := by
  have hbody : ∀ x y : Lanes V F, (tileBody x y : EscapeVState V F κ → _) = escapeVBody x y := by
    intro x y
    funext s
    simp only [tileBody, Nat.cast_ofNat]
    rfl
  have hy : tileY V g j = splat g.ymin + splat (j : F) *
      (splat (g.ymax - g.ymin) / splat (g.ny : F)) +
        iota * (splat (g.ymax - g.ymin) / splat (g.ny : F)) := by
    simp only [tileY, Nat.cast_zero]
    rfl
  unfold tile tileLoop
  rw [hbody, hy]
  rfl

/-! ## Where the loop ends -/

section Ends

variable [Add F] [Sub F] [Mul F] [NatCast F] [LT F] [DecidableLT F] [Counter κ]

/-- One iteration on a point of the plane. -/
def tileMap (cr ci : F) (z : F × F) : F × F := escapeStep ((2 : Nat) : F) cr ci z.1 z.2

/-- The test of the mask on a point of the plane. -/
def tileStays (z : F × F) : Bool := decide (z.1 * z.1 + z.2 * z.2 < ((4 : Nat) : F))

/-- Every point of a tile leaves the region within `n` iterations. -/
def LanesEscape (n : Nat) (x y : Lanes V F) : Prop :=
  ∀ l, ∃ m, 1 ≤ m ∧ m ≤ n ∧ tileStays ((tileMap (x l) (y l))^[m] (x l, y l)) = false

/-- An iteration, seen from one lane. -/
theorem tileBody_lane (cr ci : Lanes V F) (s : EscapeVState V F κ) (l : Fin V) :
    ((tileBody cr ci s).zr l, (tileBody cr ci s).zi l) =
        (if s.m l then tileMap (cr l) (ci l) (s.zr l, s.zi l) else (s.zr l, s.zi l)) ∧
      (tileBody cr ci s).m l =
        tileStays (if s.m l then tileMap (cr l) (ci l) (s.zr l, s.zi l)
          else (s.zr l, s.zi l)) := by
  have hz : ((tileBody cr ci s).zr l, (tileBody cr ci s).zi l) =
      if s.m l then tileMap (cr l) (ci l) (s.zr l, s.zi l) else (s.zr l, s.zi l) := by
    simp only [tileBody, maskedAssign_apply]
    split <;> rfl
  refine ⟨hz, ?_⟩
  rw [← hz]
  rfl

/-- After `n` iterations the counter has counted `n` times, and every lane has gone
`n` iterations along its orbit, unless it left the region before. -/
theorem tileBody_iterate (x y : Lanes V F) (n : Nat) :
    ((tileBody x y)^[n] (tileStart x y) : EscapeVState V F κ).k =
        Counter.incr^[n] (Counter.zero : κ) ∧
      ∀ l, ∃ count, LaneRun (tileMap (x l) (y l)) tileStays (x l, y l) n
        (((tileBody x y)^[n] (tileStart x y) : EscapeVState V F κ).zr l,
          ((tileBody x y)^[n] (tileStart x y) : EscapeVState V F κ).zi l) count
        (((tileBody x y)^[n] (tileStart x y) : EscapeVState V F κ).m l) := by
  induction n with
  | zero => exact ⟨rfl, fun l => ⟨0, .init _ _ _⟩⟩
  | succ n ih =>
    obtain ⟨hk, hlanes⟩ := ih
    rw [Function.iterate_succ_apply', Function.iterate_succ_apply', ← hk]
    refine ⟨rfl, ?_⟩
    intro l
    obtain ⟨count, hrun⟩ := hlanes l
    obtain ⟨hz, hm⟩ := tileBody_lane x y
      ((tileBody x y)^[n] (tileStart x y) : EscapeVState V F κ) l
    rw [hz, hm]
    exact ⟨_, hrun.step⟩

/-- The loop ends when the counter reaches the bound or every point has left the region. -/
theorem tileLoop_ends_iff (fuel : Nat) (maxIter : κ) (x y : Lanes V F) :
    (∃ s, tileLoop fuel maxIter x y = some s) ↔
      (∃ n, 1 ≤ n ∧ n ≤ fuel ∧
        Counter.lt (Counter.incr^[n] (Counter.zero : κ)) maxIter = false) ∨
      ∃ n, 1 ≤ n ∧ n ≤ fuel ∧ LanesEscape n x y := by
  have hcond : ∀ n, 1 ≤ n →
      (escapeVCond maxIter ((tileBody x y)^[n] (tileStart x y)) = false ↔
        Counter.lt (Counter.incr^[n] (Counter.zero : κ)) maxIter = false ∨
          LanesEscape n x y) := by
    intro n hn
    obtain ⟨hk, hlanes⟩ := tileBody_iterate (κ := κ) x y n
    have hmask : maskEmpty ((tileBody x y)^[n] (tileStart x y) : EscapeVState V F κ).m = true ↔
        LanesEscape n x y := by
      rw [maskEmpty_iff]
      refine forall_congr' ?_
      intro l
      obtain ⟨count, hrun⟩ := hlanes l
      exact hrun.mask_eq_false_iff hn
    rw [escapeVCond, hk, Bool.and_eq_false_iff, Bool.not_eq_false', hmask]
  rw [tileLoop, doWhile_ends_iff, ← exists_or]
  refine exists_congr ?_
  intro n
  rw [← and_or_left, ← and_or_left]
  refine and_congr_right ?_
  intro hn
  rw [hcond n hn]

/-- A point that leaves within some iterations leaves within more. -/
theorem LanesEscape.mono {x y : Lanes V F} {m n : Nat} (hmn : m ≤ n) (h : LanesEscape m x y) :
    LanesEscape n x y := by
  intro l
  obtain ⟨k, h1, hk, hleft⟩ := h l
  exact ⟨k, h1, hk.trans hmn, hleft⟩

end Ends

/-! ## How far the counters count -/

namespace IndexScalar

/-- An integer counter counts modulo the size of its type. -/
theorem incr_iterate_integer (t : IntTy) (n : Nat) :
    (Counter.incr^[n] (Counter.zero : IndexScalar (.integer t))).val = t.narrow n := by
  induction n with
  | zero => exact (t.narrow_of_fits t.fits_zero).symm
  | succ n ih =>
    rw [Function.iterate_succ_apply']
    change t.narrow (_ + 1) = _
    rw [ih, t.narrow_eq_narrow_iff, Nat.cast_succ]
    exact (t.narrow_modEq n).add_right 1

/-- A counter that is rounded to `p` bits stops at `2 ^ p`. -/
theorem incr_iterate_rounded {T : ScalarType} {p : Nat} (hp : 2 ≤ p)
    (hround : ∀ x, round T x = roundInt p x) (n : Nat) :
    (Counter.incr^[n] (Counter.zero : IndexScalar T)).val = ((min n (2 ^ p) : Nat) : Int) := by
  induction n with
  | zero => rfl
  | succ n ih =>
    rw [Function.iterate_succ_apply']
    change round T (_ + 1) = _
    rw [ih, hround, ← Nat.cast_succ, roundInt_natCast, Nat.succ_eq_add_one,
      roundNat_succ_min hp]

/-- A counter of type `T` that starts from 0 reaches the bound `max_iter` within
`max(1, max_iter)` increments. -/
def Reaches (T : ScalarType) (maxIter : Int) : Prop :=
  ∃ n, 1 ≤ n ∧ n ≤ max 1 maxIter.toNat ∧
    Counter.lt (Counter.incr^[n] (Counter.zero : IndexScalar T)) (ofInt T maxIter) = false

/-- `max_iter` is a bound that a counter of type `T` counts to. -/
def CountsTo (T : ScalarType) (maxIter : Int) : Prop :=
  match T with
  | .integer t => t.signed = true ∨ 0 ≤ maxIter
  | .float => maxIter ≤ 2 ^ 24 + 1
  | .double => True

/-- Within `max(1, max_iter)` iterations an integer counter of 32 bits or more counts
exactly: no increment wraps or, of a signed counter, overflows. -/
theorem incr_iterate_of_le {t : IntTy} (ht : 32 ≤ t.bits) {maxIter : Int}
    (hmax : IntTy.int.Fits maxIter) {n : Nat} (hn : n ≤ max 1 maxIter.toNat) :
    (Counter.incr^[n] (Counter.zero : IndexScalar (.integer t))).val = n := by
  have hhi : maxIter ≤ (2 : Int) ^ 31 - 1 := hmax.2
  have hint : IntTy.int.Fits n := by
    change -(2 : Int) ^ 31 ≤ n ∧ (n : Int) ≤ 2 ^ 31 - 1
    omega
  rw [incr_iterate_integer]
  exact t.narrow_of_fits (t.fits_of_signed rfl ht hint (.inr (Int.natCast_nonneg n)))

/-- An integer counter of 32 bits or more reaches its bound, unless the bound is negative
and the counter unsigned: then it is converted to a large one. -/
theorem reaches_integer_iff {t : IntTy} (ht : 32 ≤ t.bits) {maxIter : Int}
    (hmax : IntTy.int.Fits maxIter) :
    Reaches (.integer t) maxIter ↔ t.signed = true ∨ 0 ≤ maxIter := by
  have hlt : ∀ n : Nat, n ≤ max 1 maxIter.toNat →
      (Counter.lt (Counter.incr^[n] (Counter.zero : IndexScalar (.integer t)))
        (ofInt (.integer t) maxIter) = false ↔ t.narrow maxIter ≤ n) := by
    intro n hn
    rw [← incr_iterate_of_le ht hmax hn]
    exact decide_eq_false_iff_not.trans not_lt
  constructor
  · rintro ⟨n, h1, hn, hend⟩
    by_contra hcontra
    obtain ⟨hunsigned, hneg⟩ := not_or.mp hcontra
    rw [Bool.not_eq_true] at hunsigned
    have hmodulus : (2 : Int) ^ 32 ≤ t.modulus := by
      rw [IntTy.modulus, Nat.cast_pow, Nat.cast_ofNat]
      exact pow_le_pow_right₀ one_le_two ht
    have hlo : -(2 : Int) ^ 31 ≤ maxIter := hmax.1
    rw [hlt n hn, t.narrow_of_neg hunsigned (by omega) (by omega)] at hend
    omega
  · intro h
    have hbound : t.narrow maxIter = maxIter :=
      t.narrow_of_fits (t.fits_of_signed rfl ht hmax h)
    refine ⟨max 1 maxIter.toNat, Nat.le_max_left _ _, Nat.le_refl _, ?_⟩
    rw [hlt _ (Nat.le_refl _), hbound]
    omega

/-- A counter that is rounded to `p` bits stays below every bound from `2 ^ p + 2` on. -/
theorem lt_of_beyond {T : ScalarType} {p : Nat} (hp : 2 ≤ p)
    (hround : ∀ x, round T x = roundInt p x) {maxIter : Int} (hbeyond : 2 ^ p + 1 < maxIter)
    (n : Nat) :
    Counter.lt (Counter.incr^[n] (Counter.zero : IndexScalar T)) (ofInt T maxIter) = true := by
  have hpow : ((2 ^ p : Nat) : Int) = 2 ^ p := by push_cast; rfl
  have hpos : 0 < 2 ^ p := Nat.two_pow_pos p
  obtain ⟨m, rfl⟩ := Int.eq_ofNat_of_zero_le (show 0 ≤ maxIter by omega)
  have hm : 2 ^ p < roundNat p m := lt_roundNat (by omega) (by omega)
  have hbound : (ofInt T (m : Int)).val = roundNat p m := (hround m).trans (roundInt_natCast p m)
  refine decide_eq_true ?_
  rw [incr_iterate_rounded hp hround n, hbound]
  omega

/-- It reaches the others. -/
theorem reaches_rounded_iff {T : ScalarType} {p : Nat} (hp : 2 ≤ p)
    (hround : ∀ x, round T x = roundInt p x) (maxIter : Int) :
    Reaches T maxIter ↔ maxIter ≤ 2 ^ p + 1 := by
  have hpow : ((2 ^ p : Nat) : Int) = 2 ^ p := by push_cast; rfl
  have hpos : 0 < 2 ^ p := Nat.two_pow_pos p
  constructor
  · rintro ⟨n, -, -, hn⟩
    by_contra hle
    have hlt := lt_of_beyond hp hround (Int.not_le.mp hle) n
    exact absurd (hn.symm.trans hlt) Bool.false_ne_true
  · intro hle
    have hend : ∀ n : Nat, roundInt p maxIter ≤ ((min n (2 ^ p) : Nat) : Int) →
        Counter.lt (Counter.incr^[n] (Counter.zero : IndexScalar T)) (ofInt T maxIter) =
          false := by
      intro n hn
      rw [← incr_iterate_rounded hp hround n, ← hround] at hn
      exact decide_eq_false (not_lt.mpr hn)
    rcases Int.lt_or_le 0 maxIter with hmax | hmax
    · obtain ⟨m, rfl⟩ := Int.eq_ofNat_of_zero_le hmax.le
      refine ⟨m, by omega, by omega, hend m ?_⟩
      rw [roundInt_natCast, roundNat_of_le hp (by omega)]
    · refine ⟨1, Nat.le_refl 1, by omega, hend 1 ?_⟩
      have hround := roundInt_nonpos (p := p) hmax
      omega

/-- The counter types of the backends reach their bound, except for the unsigned ones
when it is negative, and for `float` when it is too large to be counted to. -/
theorem reaches_iff {T : ScalarType} (hT : ∀ t, T = .integer t → 32 ≤ t.bits) {maxIter : Int}
    (hmax : IntTy.int.Fits maxIter) : Reaches T maxIter ↔ CountsTo T maxIter := by
  cases T with
  | integer t => exact reaches_integer_iff (hT t rfl) hmax
  | float => exact reaches_rounded_iff (p := 24) (by omega) (fun _ => rfl) maxIter
  | double =>
    refine iff_of_true ((reaches_rounded_iff (p := 53) (by omega) (fun _ => rfl) maxIter).mpr ?_)
      trivial
    have hhi : maxIter ≤ (2 : Int) ^ 31 - 1 := hmax.2
    have hpow : (2 : Int) ^ 31 ≤ 2 ^ 53 := pow_le_pow_right₀ one_le_two (by omega)
    omega

end IndexScalar

/-! ## The tiles of `mandelbrot_v` -/

/-- The grid of the single point 0. -/
def originGrid : Grid ℚ := ⟨0, 0, 1, 0, 0, 1⟩

theorem tileMap_origin (l : Fin V) (m : Nat) :
    (tileMap (tileX V originGrid 0 l) (tileY V originGrid 0 l))^[m]
      (tileX V originGrid 0 l, tileY V originGrid 0 l) = (0, 0) := by
  have hx : tileX V originGrid 0 l = 0 := by rw [tileX_apply]; norm_num [originGrid]
  have hy : tileY V originGrid 0 l = 0 := by rw [tileY_apply]; norm_num [originGrid]
  rw [hx, hy]
  exact Function.iterate_fixed (by norm_num [tileMap, escapeStep]) m

section Tiles

variable [Add F] [Sub F] [Mul F] [Div F] [NatCast F] [LT F] [DecidableLT F]

/-- The loop of a tile ends within `max(1, max_iter)` iterations just when its counter can
reach the bound, or every point of the tile has left the region by then. -/
theorem tile_ends_iff (b : TileBackend) (T : FloatType) {vcIndex : IntTy}
    (hvc : 32 ≤ vcIndex.bits) (g : Grid F) (i j : Nat) {maxIter : Int}
    (hmax : IntTy.int.Fits maxIter) :
    (∃ s, tile V (max 1 maxIter.toNat) g
        (IndexScalar.ofInt (b.indexType vcIndex T) maxIter) i j = some s) ↔
      IndexScalar.CountsTo (b.indexType vcIndex T) maxIter ∨
        LanesEscape (max 1 maxIter.toNat) (tileX V g i) (tileY V g j) := by
  have hbits : ∀ t, b.indexType vcIndex T = .integer t → 32 ≤ t.bits := by
    intro t ht
    cases b <;> cases T <;> cases ht <;> first | exact hvc | decide
  rw [tile, tileLoop_ends_iff, ← IndexScalar.reaches_iff hbits hmax]
  refine or_congr Iff.rfl ⟨?_, ?_⟩
  · rintro ⟨n, -, hn, hescape⟩
    exact hescape.mono hn
  · intro hescape
    exact ⟨_, Nat.le_max_left _ _, Nat.le_refl _, hescape⟩

/-- The bound that `main` passes. -/
theorem tile_ends_iff_500 :
    ∃ s, tile 4 (max 1 (500 : Int).toNat) originGrid
      (IndexScalar.ofInt (TileBackend.stdSimd.indexType .int .float) 500) 0 0 = some s :=
  (tile_ends_iff (V := 4) .stdSimd .float (by decide) originGrid 0 0
    (by norm_num [IntTy.Fits, IntTy.lo, IntTy.hi, IntTy.int])).mpr
    (.inl (by norm_num [TileBackend.indexType, IndexScalar.CountsTo]))

/-- The loop with a `float` counter never ends when `max_iter` is too large to be counted
to and a point of the tile never leaves the region. -/
theorem tile_float_diverges (g : Grid F) (i j : Nat) {maxIter : Int}
    (hbeyond : 2 ^ 24 + 1 < maxIter) {l : Fin V}
    (hl : ∀ m, tileStays ((tileMap (tileX V g i l) (tileY V g j l))^[m]
      (tileX V g i l, tileY V g j l)) = true) (fuel : Nat) :
    tile V fuel g (IndexScalar.ofInt .float maxIter) i j = none := by
  rw [Option.eq_none_iff_forall_ne_some]
  intro s hs
  rcases (tileLoop_ends_iff fuel _ _ _).mp ⟨s, hs⟩ with ⟨n, -, -, hn⟩ | ⟨n, -, -, hn⟩
  · have hlt := IndexScalar.lt_of_beyond (T := .float) (p := 24) (by omega) (fun _ => rfl)
      hbeyond n
    exact absurd (hn.symm.trans hlt) Bool.false_ne_true
  · obtain ⟨m, -, -, hm⟩ := hn l
    exact absurd (hm.symm.trans (hl m)) Bool.false_ne_true

/-- `std::experimental::simd<float>` at the point 0 with `max_iter = 2 ^ 24 + 2`: the loop
does not end, within `max(1, max_iter)` iterations or at all. -/
theorem tile_origin_diverges :
    IntTy.int.Fits (2 ^ 24 + 2) ∧
      ∀ fuel, tile 4 fuel originGrid
        (IndexScalar.ofInt (TileBackend.stdSimd.indexType .int .float) (2 ^ 24 + 2)) 0 0 =
          none := by
  refine ⟨by norm_num [IntTy.Fits, IntTy.lo, IntTy.hi, IntTy.int], ?_⟩
  intro fuel
  refine tile_float_diverges originGrid 0 0 (by norm_num) (l := 0) ?_ fuel
  intro m
  rw [tileMap_origin]
  norm_num [tileStays]

end Tiles

end VecCore.Bench
