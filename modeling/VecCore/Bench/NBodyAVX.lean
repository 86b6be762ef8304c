/-
  Bench/NBodyAVX.lean --- TestNBodyAVX2 and the main program of bench/nbody.cc,
  with exact arithmetic.

  The intrinsics compute lane by lane what the vector program for eight lanes
  does; only the fused additions have their operands in another order.  `main`
  runs all versions on the same arrays, each from where the one before stopped.
-/
import VecCore.Bench.NBody
import VecCore.Foundation.Intrinsics
import Mathlib.Algebra.Field.Rat

set_option autoImplicit false

namespace VecCore.Bench

open VecCore.Foundation

variable {F : Type*} [Field F]

/-! ## The program -/

/-- `pPInteractionAVX2`. -/
def pPInteractionAVX2 (sqrt : F → F) (c : NBodyConstants F) (p1pos p1vel p2pos : Vec3 (M256 F))
    (p2mass : M256 F) : Vec3 (M256 F) :=
  let xdistance := mm256Sub p1pos.x p2pos.x
  let ydistance := mm256Sub p1pos.y p2pos.y
  let zdistance := mm256Sub p1pos.z p2pos.z
  let xdistanceSqr := mm256Mul xdistance xdistance
  let ydistanceSqr := mm256Mul ydistance ydistance
  let zdistanceSqr := mm256Mul zdistance zdistance
  let distSqr :=
    mm256Add (mm256Add (mm256Add (mm256Set1 c.eps2) xdistanceSqr) ydistanceSqr) zdistanceSqr
  let distSixth := mm256Mul (mm256Mul distSqr distSqr) distSqr
  let invDistCube := mm256Div (mm256Set1 c.one) (mm256Sqrt sqrt distSixth)
  let sts := mm256Mul (mm256Mul p2mass invDistCube) (mm256Set1 c.timeStep)
  { x := mm256Fmadd xdistanceSqr sts p1vel.x
    y := mm256Fmadd ydistanceSqr sts p1vel.y
    z := mm256Fmadd zdistanceSqr sts p1vel.z }

/-- The loop of the velocity phase of `TestNBodyAVX2` for the eight bodies from `i` on. -/
def velocityTileAVX2 (sqrt : F → F) (c : NBodyConstants F) (kN i : Nat) (s : Bodies F) :
    Option (Bodies F) :=
  let pipos : Vec3 (M256 F) := ⟨asVec 8 s.posx i, asVec 8 s.posy i, asVec 8 s.posz i⟩
  (forLoop 1 kN (fun j pivel => some
    (pPInteractionAVX2 sqrt c pipos pivel
      ⟨mm256Set1 (s.posx j), mm256Set1 (s.posy j), mm256Set1 (s.posz j)⟩
      (mm256Set1 (s.mass j)))) 0
    ⟨asVec 8 s.velx i, asVec 8 s.vely i, asVec 8 s.velz i⟩).map fun pivel =>
      { s with
        velx := store pivel.x s.velx i
        vely := store pivel.y s.vely i
        velz := store pivel.z s.velz i }

/-- The body of the position phase of `TestNBodyAVX2`. -/
def positionTileAVX2 (c : NBodyConstants F) (i : Nat) (s : Bodies F) : Option (Bodies F) :=
  let vTimestep := mm256Set1 c.timeStep
  some { s with
    posx := store (mm256Fmadd (asVec 8 s.velx i) vTimestep (asVec 8 s.posx i)) s.posx i
    posy := store (mm256Fmadd (asVec 8 s.vely i) vTimestep (asVec 8 s.posy i)) s.posy i
    posz := store (mm256Fmadd (asVec 8 s.velz i) vTimestep (asVec 8 s.posz i)) s.posz i }

/-- `TestNBodyAVX2`. -/
def testNBodyAVX2 (sqrt : F → F) (c : NBodyConstants F) (kNruns kN : Nat) (s : Bodies F) :
    Option (Bodies F) :=
  forLoop 1 kNruns (fun _ s =>
    (forLoop 8 kN (velocityTileAVX2 sqrt c kN) 0 s).bind
      (forLoop 8 kN (positionTileAVX2 c) 0)) 0 s

/-! ## Against the vector program -/

/-- A fused addition. -/
theorem mm256Fmadd_eq (a b c : M256 F) : mm256Fmadd a b c = c + a * b :=
  funext fun i => add_comm (a i * b i) (c i)

omit [Field F] in
theorem mm256Sqrt_eq (sqrt : F → F) (a : M256 F) : mm256Sqrt sqrt a = mathUnary sqrt a :=
  funext fun i => (mathUnary_apply sqrt a i).symm

theorem pPInteractionAVX2_eq (sqrt : F → F) (c : NBodyConstants F)
    (p1pos p1vel p2pos : Vec3 (M256 F)) (p2mass : M256 F) :
    pPInteractionAVX2 sqrt c p1pos p1vel p2pos p2mass =
      pPInteractionSIMD sqrt c p1pos p1vel p2pos p2mass := by
  unfold pPInteractionAVX2
  simp only [mm256Fmadd_eq, mm256Sqrt_eq]
  rfl

theorem velocityTileAVX2_eq (sqrt : F → F) (c : NBodyConstants F) (kN : Nat) :
    velocityTileAVX2 sqrt c kN = velocityTile 8 sqrt c kN := by
  funext i s
  unfold velocityTileAVX2 velocityTile
  simp only [pPInteractionAVX2_eq]
  rfl

theorem positionTileAVX2_eq (c : NBodyConstants F) :
    positionTileAVX2 c = positionTile 8 c := by
  funext i s
  simp only [positionTileAVX2, positionTile, mm256Fmadd_eq]
  rfl

/-- `TestNBodyAVX2` is `TestNBodySIMD` with eight lanes. -/
theorem testNBodyAVX2_eq (sqrt : F → F) (c : NBodyConstants F) (kNruns kN : Nat)
    (s : Bodies F) : testNBodyAVX2 sqrt c kNruns kN s = testNBodySIMD 8 sqrt c kNruns kN s := by
  rw [testNBodyAVX2, testNBodySIMD, velocityTileAVX2_eq, positionTileAVX2_eq]

/-! ## All runs of the main program -/

/-- The functions `main` calls. -/
inductive NBodyTest where
  | TestNBody
  | TestNBodyAVX2
  /-- `TestNBodySIMD` for a backend with `V` lanes. -/
  | TestNBodySIMD (V : Nat)

/-- The lanes of a tile. -/
def NBodyTest.lanes : NBodyTest → Nat
  | .TestNBody => 1
  | .TestNBodyAVX2 => 8
  | .TestNBodySIMD V => V

/-- One call. -/
def NBodyTest.run (sqrt : F → F) (c : NBodyConstants F) (kNruns kN : Nat) :
    NBodyTest → Bodies F → Option (Bodies F)
  | .TestNBody => testNBody sqrt c kNruns kN
  | .TestNBodyAVX2 => testNBodyAVX2 sqrt c kNruns kN
  | .TestNBodySIMD V => testNBodySIMD V sqrt c kNruns kN

/-- The calls of `main`, one after the other on the same arrays. -/
def nbodyMain (sqrt : F → F) (c : NBodyConstants F) (kNruns kN : Nat) :
    List NBodyTest → Bodies F → Option (Bodies F)
  | [], s => some s
  | t :: tests, s => (t.run sqrt c kNruns kN s).bind (nbodyMain sqrt c kNruns kN tests)

/-- A call makes `kNruns` runs, whichever it is. -/
theorem NBodyTest.run_eq_iterate (sqrt : F → F) (c : NBodyConstants F) (kNruns : Nat) {kN : Nat}
    (t : NBodyTest) (hpos : 0 < t.lanes) (hdvd : t.lanes ∣ kN) (s : Bodies F) :
    t.run sqrt c kNruns kN s = some ((nextRun sqrt c kN)^[kNruns] s) := by
  have hone := fun s => run_eq_nextRun sqrt c hpos hdvd s
  cases t with
  | TestNBody => exact forLoop_iterate (fun s => (hone s).1) kNruns s
  | TestNBodyAVX2 =>
    rw [NBodyTest.run, testNBodyAVX2_eq]
    exact forLoop_iterate (fun s => (hone s).2) kNruns s
  | TestNBodySIMD V => exact forLoop_iterate (fun s => (hone s).2) kNruns s

theorem nextRun_mass (sqrt : F → F) (c : NBodyConstants F) (kN n : Nat) (s : Bodies F) :
    ((nextRun sqrt c kN)^[n] s).mass = s.mass := by
  induction n with
  | zero => rfl
  | succ n ih =>
    rw [Function.iterate_succ_apply']
    exact ih

/-- Whatever versions `main` calls and in whatever order, the arrays end as the scalar
version leaves them after as many runs in all, and the masses are never changed. -/
theorem nbodyMain_eq_testNBody (sqrt : F → F) (c : NBodyConstants F) (kNruns : Nat) {kN : Nat}
    (tests : List NBodyTest) (htests : ∀ t ∈ tests, 0 < t.lanes ∧ t.lanes ∣ kN)
    (s : Bodies F) :
    ∃ s', nbodyMain sqrt c kNruns kN tests s = some s' ∧
      testNBody sqrt c (tests.length * kNruns) kN s = some s' ∧ s'.mass = s.mass := by
  have hscalar := fun n => NBodyTest.run_eq_iterate sqrt c n .TestNBody Nat.one_pos
    (Nat.one_dvd kN) s
  refine ⟨_, ?_, hscalar (tests.length * kNruns), nextRun_mass sqrt c kN _ s⟩
  clear hscalar
  induction tests generalizing s with
  | nil => rw [List.length_nil, Nat.zero_mul]; rfl
  | cons t tests ih =>
    obtain ⟨hpos, hdvd⟩ := htests t List.mem_cons_self
    rw [nbodyMain, t.run_eq_iterate sqrt c kNruns hpos hdvd, Option.bind_some,
      ih fun t' ht' => htests t' (List.mem_cons_of_mem t ht'), List.length_cons, Nat.succ_mul,
      Function.iterate_add_apply]

/-- Sixteen bodies through four versions. -/
theorem nbodyMain_eq_testNBody_sixteen :
    ∃ s', nbodyMain (fun x : ℚ => x) ⟨1, 2, 3⟩ 2 16
        [.TestNBody, .TestNBodyAVX2, .TestNBodySIMD 1, .TestNBodySIMD 4]
        ⟨fun i => i, fun i => i, fun i => i, fun _ => 1, fun _ => 1, fun _ => 1, fun _ => 5⟩ =
          some s' ∧
      testNBody (fun x : ℚ => x) ⟨1, 2, 3⟩ (4 * 2) 16
        ⟨fun i => i, fun i => i, fun i => i, fun _ => 1, fun _ => 1, fun _ => 1, fun _ => 5⟩ =
          some s' ∧
      s'.mass = fun _ => 5 :=
  nbodyMain_eq_testNBody _ _ 2 [.TestNBody, .TestNBodyAVX2, .TestNBodySIMD 1, .TestNBodySIMD 4]
    (by simp [NBodyTest.lanes]) _

end VecCore.Bench
