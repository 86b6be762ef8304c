/-
  Bench/EscapeTime.lean --- the do/while loops of bench/mandelbrot.cc and
  bench/julia.cc.

  The two programs iterate `z * z + c` with the same scalar loop and the same
  vector loop; they differ in the constants they start it with and in what they
  store afterwards.  Arithmetic is exact, so the lanes are elements of an
  ordered field.  The counter of the vector loop has the scalar type of the
  backend's index vector and is a parameter.
-/
import VecCore.Foundation.Numerals
import VecCore.Foundation.Lockstep
import VecCore.Backend.Implementation
import Mathlib.Algebra.Order.Field.Basic
import Mathlib.Algebra.Ring.Pi
import Mathlib.Tactic.Ring

set_option autoImplicit false

namespace VecCore.Bench

open VecCore.Foundation

variable {F κ : Type*} {V : Nat}

/-! ## The grid -/

/-- The grid parameters of the fractal programs: `xmin, xmax, nx, ymin, ymax, ny`. -/
structure Grid (T : Type*) where
  xmin : T
  xmax : T
  nx : Nat
  ymin : T
  ymax : T
  ny : Nat

/-- `for (i = 0; i < VectorSize<T>(); ++i) Set<T>(iota, i, i)`. -/
def iota [Field F] : Lanes V F := forLanes V (fun i v => set v i (i : Nat)) (splat 0)

@[simp] theorem iota_apply [Field F] (k : Fin V) : (iota : Lanes V F) k = (k : Nat) :=
  congrFun (forLanes_set (fun i _ => ((i : Nat) : F)) (splat 0)) k

/-- Column `j + k` of a grid, as the scalar programs and as lane `k` of the vector
programs compute it. -/
theorem column_add [Field F] (lo d : F) (j k : Nat) :
    lo + ((j + k : Nat) : F) * d = lo + j * d + k * d := by
  push_cast
  ring

/-! ## The iteration -/

/-- `x = zr*zr - zi*zi + cr; y = T(2.0) * zr*zi + ci`, for scalars and vectors. -/
def escapeStep {T : Type*} [Add T] [Sub T] [Mul T] (two cr ci zr zi : T) : T × T :=
  (zr * zr - zi * zi + cr, two * zr * zi + ci)

section Scalar

variable [Field F] [LinearOrder F]

/-- The variables of the scalar loop. -/
structure EscapeState (F : Type*) where
  k : Nat
  zr : F
  zi : F

/-- The body of the scalar loop, with the `++k` of its condition. -/
def escapeBody (cr ci : F) (s : EscapeState F) : EscapeState F :=
  let z := escapeStep 2 cr ci s.zr s.zi
  { k := s.k + 1, zr := z.1, zi := z.2 }

/-- `k < max_iter && (zr*zr + zi*zi < T(4.0))`. -/
def escapeCond (maxIter : Nat) (s : EscapeState F) : Bool :=
  decide (s.k < maxIter) && decide (s.zr * s.zr + s.zi * s.zi < 4)

/-- The do/while loop of `mandelbrot` and `julia` for one pixel. -/
def escape (fuel maxIter : Nat) (cr ci zr zi : F) : Option (EscapeState F) :=
  doWhile (escapeBody cr ci) (escapeCond maxIter) fuel { k := 0, zr, zi }

end Scalar

/-! ## The vector loop -/

/-- The scalar type of an index vector, as the loops use it: `Scalar<Index<T>>`. -/
class Counter (κ : Type*) where
  /-- `Scalar<Index<T>>(0)`. -/
  zero : κ
  /-- `++k`. -/
  incr : κ → κ
  /-- `k < max_iter`. -/
  lt : κ → κ → Bool
  /-- The integer a counter holds, for its conversions to integer types. -/
  toNat : κ → Nat

/-- An unbounded counter. -/
instance : Counter Nat where
  zero := 0
  incr k := k + 1
  lt a b := decide (a < b)
  toNat k := k

section Vector

variable [Field F] [LinearOrder F] [Counter κ]

/-- The variables of the vector loop. -/
structure EscapeVState (V : Nat) (F κ : Type*) where
  k : κ
  zr : Lanes V F
  zi : Lanes V F
  kv : Lanes V κ
  m : Mask V

/-- The body of the vector loop. -/
def escapeVBody (cr ci : Lanes V F) (s : EscapeVState V F κ) : EscapeVState V F κ :=
  let z := escapeStep (splat 2) cr ci s.zr s.zi
  let zr := maskedAssign s.zr s.m z.1
  let zi := maskedAssign s.zi s.m z.2
  let k := Counter.incr s.k
  { k := k
    zr := zr
    zi := zi
    kv := maskedAssign s.kv s.m (splat k)
    m := lanewise (fun a b => decide (a < b)) (zr * zr + zi * zi) (splat 4) }

/-- `k < max_iter && !MaskEmpty(m)`. -/
def escapeVCond (maxIter : κ) (s : EscapeVState V F κ) : Bool :=
  Counter.lt s.k maxIter && !maskEmpty s.m

/-- The do/while loop of `mandelbrot_v` and `julia_v` for one tile. -/
def escapeV (fuel : Nat) (maxIter : κ) (cr ci zr zi : Lanes V F) :
    Option (EscapeVState V F κ) :=
  doWhile (escapeVBody cr ci) (escapeVCond maxIter) fuel
    { k := Counter.zero, zr, zi, kv := splat Counter.zero, m := splat true }

end Vector

/-! ## Agreement of the two loops -/

section Agreement

variable [Field F] [LinearOrder F]

/-- One iteration on a point of the plane. -/
def escapeMap (cr ci : F) (z : F × F) : F × F := escapeStep 2 cr ci z.1 z.2

/-- The test `|z|^2 < 4` on a point of the plane. -/
def bounded (z : F × F) : Bool := decide (z.1 * z.1 + z.2 * z.2 < 4)

/-- The variables of the scalar loop that stand for a state of a search. -/
def ofSearch (s : Search (F × F)) : EscapeState F where
  k := s.k
  zr := s.z.1
  zi := s.z.2

/-- The scalar loop is a search of the orbit of the starting point. -/
theorem escape_exits (maxIter : Nat) (cr ci zr zi : F) {fuel : Nat}
    (hfuel : max 1 maxIter ≤ fuel) :
    ∃ n, ExitsAt (escapeMap cr ci) bounded maxIter (zr, zi) n ∧
      escape fuel maxIter cr ci zr zi =
        some { k := n
               zr := ((escapeMap cr ci)^[n] (zr, zi)).1
               zi := ((escapeMap cr ci)^[n] (zr, zi)).2 } := by
  obtain ⟨n, hexit, hrun⟩ :=
    search_exits (escapeMap cr ci) bounded maxIter (zr, zi) hfuel
  have hmap : (doWhile (searchBody (escapeMap cr ci)) (searchCond bounded maxIter) fuel
        ⟨0, (zr, zi)⟩).map ofSearch = escape fuel maxIter cr ci zr zi :=
    doWhile_map (escapeBody cr ci) (escapeCond maxIter) ofSearch (fun _ => rfl) (fun _ => rfl)
      fuel ⟨0, (zr, zi)⟩
  rw [hrun] at hmap
  exact ⟨n, hexit, hmap.symm⟩

/-- The variables of the vector loop that stand for a lockstep state. -/
def ofLockstep (s : Lockstep V (F × F)) : EscapeVState V F Nat where
  k := s.k
  zr i := (s.z i).1
  zi i := (s.z i).2
  kv := s.count
  m := s.mask

/-- The body of the vector loop is one lockstep iteration. -/
theorem escapeVBody_ofLockstep (cr ci : Lanes V F) (s : Lockstep V (F × F)) :
    ofLockstep (lockstepBody (fun i => escapeMap (cr i) (ci i)) bounded s) =
      escapeVBody cr ci (ofLockstep s) := by
  simp only [ofLockstep, lockstepBody, escapeVBody, EscapeVState.mk.injEq]
  refine ⟨rfl, ?_, ?_, ?_, ?_⟩
  · funext i
    rw [apply_ite Prod.fst, maskedAssign_apply]
    rfl
  · funext i
    rw [apply_ite Prod.snd, maskedAssign_apply]
    rfl
  · funext i
    rw [maskedAssign_apply]
    rfl
  · funext i
    simp only [bounded, lanewise_apply, Pi.add_apply, Pi.mul_apply, apply_ite Prod.fst,
      apply_ite Prod.snd, maskedAssign_apply]
    rfl

/-- The vector loop is a lockstep search of the lanes' orbits. -/
theorem escapeV_exits (maxIter : Nat) (cr ci zr zi : Lanes V F) {fuel : Nat}
    (hfuel : max 1 maxIter ≤ fuel) :
    ∃ s, escapeV fuel maxIter cr ci zr zi = some s ∧ ∀ i,
      ExitsAt (escapeMap (cr i) (ci i)) bounded maxIter (zr i, zi i) (s.kv i) ∧
        (s.zr i, s.zi i) = (escapeMap (cr i) (ci i))^[s.kv i] (zr i, zi i) := by
  obtain ⟨t, hrun, hexit⟩ :=
    lockstep_exits (fun i => escapeMap (cr i) (ci i)) bounded maxIter
      (fun i => (zr i, zi i)) hfuel
  have hmap : (doWhile (lockstepBody (fun i => escapeMap (cr i) (ci i)) bounded)
        (lockstepCond maxIter) fuel ⟨0, fun i => (zr i, zi i), splat 0, splat true⟩).map
        ofLockstep = escapeV fuel maxIter cr ci zr zi :=
    doWhile_map (escapeVBody cr ci) (escapeVCond maxIter) ofLockstep
      (escapeVBody_ofLockstep cr ci) (fun _ => rfl) fuel
      ⟨0, fun i => (zr i, zi i), splat 0, splat true⟩
  rw [hrun] at hmap
  exact ⟨ofLockstep t, hmap.symm, hexit⟩

/-- Each lane of the vector loop ends with the values and the iteration count of
the scalar loop run on that lane alone. -/
theorem escapeV_eq_escape (maxIter : Nat) (cr ci zr zi : Lanes V F) {fuel : Nat}
    (hfuel : max 1 maxIter ≤ fuel) :
    ∃ s, escapeV fuel maxIter cr ci zr zi = some s ∧ ∀ i,
      escape fuel maxIter (cr i) (ci i) (zr i) (zi i) =
        some { k := s.kv i, zr := s.zr i, zi := s.zi i } := by
  obtain ⟨s, hrun, hlanes⟩ := escapeV_exits maxIter cr ci zr zi hfuel
  refine ⟨s, hrun, ?_⟩
  intro i
  obtain ⟨hexit, hz⟩ := hlanes i
  obtain ⟨n, hexit', hscalar⟩ := escape_exits maxIter (cr i) (ci i) (zr i) (zi i) hfuel
  obtain rfl := hexit'.unique hexit
  rw [hscalar, ← hz]

end Agreement

end VecCore.Bench
