/-
  Bench/NBody.lean --- bench/nbody.cc, with uninterpreted arithmetic.

  Both programs alternate two phases.  The velocity phase lets every body
  interact with all bodies and only writes velocities; the position phase moves
  every body by its own velocity.  So each phase replaces its arrays, body by
  body or tile by tile, by arrays that only depend on what they were before it.
-/
import VecCore.Backend.VecMath
import VecCore.Foundation.Loop
import VecCore.Foundation.Prefix
import Mathlib.Algebra.Notation.Pi.Basic

set_option autoImplicit false

namespace VecCore.Bench

open VecCore.Foundation

variable {α : Type*} {V : Nat}

/-! ## Data -/

/-- Three coordinates. -/
structure Vec3 (T : Type*) where
  x : T
  y : T
  z : T

/-- Lane `k` of three vectors. -/
def Vec3.lane (v : Vec3 (Lanes V α)) (k : Fin V) : Vec3 α := ⟨v.x k, v.y k, v.z k⟩

/-- Three scalars as vectors. -/
def Vec3.splat (v : Vec3 α) : Vec3 (Lanes V α) :=
  ⟨Foundation.splat v.x, Foundation.splat v.y, Foundation.splat v.z⟩

/-- The constants `eps2`, `timeStep` and `1.0f`. -/
structure NBodyConstants (T : Type*) where
  eps2 : T
  timeStep : T
  one : T

/-- The arrays `posx, posy, posz, velx, vely, velz, mass`. -/
structure Bodies (α : Type*) where
  posx : Nat → α
  posy : Nat → α
  posz : Nat → α
  velx : Nat → α
  vely : Nat → α
  velz : Nat → α
  mass : Nat → α

/-! ## The interaction -/

/-- The velocity of the first body after its interaction with the second, for
scalars and vectors. -/
def interaction {T : Type*} [Add T] [Sub T] [Mul T] [Div T] (sqrt : T → T)
    (c : NBodyConstants T) (p1pos p1vel p2pos : Vec3 T) (p2mass : T) : Vec3 T :=
  let xdistance := p1pos.x - p2pos.x
  let ydistance := p1pos.y - p2pos.y
  let zdistance := p1pos.z - p2pos.z
  let xdistanceSqr := xdistance * xdistance
  let ydistanceSqr := ydistance * ydistance
  let zdistanceSqr := zdistance * zdistance
  let distSqr := c.eps2 + xdistanceSqr + ydistanceSqr + zdistanceSqr
  let distSixth := distSqr * distSqr * distSqr
  let invDistCube := c.one / sqrt distSixth
  let sts := p2mass * invDistCube * c.timeStep
  { x := p1vel.x + xdistanceSqr * sts
    y := p1vel.y + ydistanceSqr * sts
    z := p1vel.z + zdistanceSqr * sts }

section Interaction

variable [Add α] [Sub α] [Mul α] [Div α]

/-- `pPInteraction`. -/
def pPInteraction (sqrt : α → α) (c : NBodyConstants α) (p1pos p1vel p2pos : Vec3 α)
    (p2mass : α) : Vec3 α :=
  interaction sqrt c p1pos p1vel p2pos p2mass

/-- `pPInteractionSIMD`; its scalar constants are converted to vectors. -/
def pPInteractionSIMD (sqrt : α → α) (c : NBodyConstants α)
    (p1pos p1vel p2pos : Vec3 (Lanes V α)) (p2mass : Lanes V α) : Vec3 (Lanes V α) :=
  interaction (mathUnary sqrt)
    { eps2 := splat c.eps2, timeStep := splat c.timeStep, one := splat c.one }
    p1pos p1vel p2pos p2mass

/-- A lane of the vector interaction is the scalar interaction of that lane. -/
theorem pPInteractionSIMD_lane (sqrt : α → α) (c : NBodyConstants α)
    (p1pos p1vel : Vec3 (Lanes V α)) (p2pos : Vec3 α) (p2mass : α) (k : Fin V) :
    (pPInteractionSIMD sqrt c p1pos p1vel p2pos.splat (splat p2mass)).lane k =
      pPInteraction sqrt c (p1pos.lane k) (p1vel.lane k) p2pos p2mass := by
  simp only [pPInteractionSIMD, pPInteraction, interaction, Vec3.lane, Vec3.splat,
    Pi.add_apply, Pi.sub_apply, Pi.mul_apply, Pi.div_apply, mathUnary_apply, splat_apply]

end Interaction

/-! ## The programs -/

namespace Bodies

/-- Position of body `i`. -/
def pos (s : Bodies α) (i : Nat) : Vec3 α := ⟨s.posx i, s.posy i, s.posz i⟩

/-- Velocity of body `i`. -/
def vel (s : Bodies α) (i : Nat) : Vec3 α := ⟨s.velx i, s.vely i, s.velz i⟩

/-- `velx[i] = v.x; vely[i] = v.y; velz[i] = v.z`. -/
def setVel (s : Bodies α) (i : Nat) (v : Vec3 α) : Bodies α :=
  { s with
    velx := Function.update s.velx i v.x
    vely := Function.update s.vely i v.y
    velz := Function.update s.velz i v.z }

end Bodies

/-- Cells that are still to be rewritten, read as a vector. -/
theorem asVec_upTo (i : Nat) (new old : Nat → α) :
    asVec V (upTo i new old) i = asVec V old i := funext fun k => upTo_add i k new old

/-- The assignment of the next tile. -/
theorem store_upTo {i : Nat} {new old : Nat → α} {v : Lanes V α}
    (hv : ∀ k, v k = new (i + k)) : store v (upTo i new old) i = upTo (i + V) new old :=
  forLanes_update_upTo hv

section Code

variable [Add α] [Sub α] [Mul α] [Div α]

/-- The loop of the velocity phase of `TestNBody` for body `i`. -/
def velocityBody (sqrt : α → α) (c : NBodyConstants α) (kN i : Nat) (s : Bodies α) :
    Option (Bodies α) :=
  let pipos := s.pos i
  (forLoop 1 kN (fun j pivel => some
    (pPInteraction sqrt c pipos pivel (s.pos j) (s.mass j))) 0 (s.vel i)).map (s.setVel i)

/-- The body of the position phase of `TestNBody`. -/
def positionBody (c : NBodyConstants α) (i : Nat) (s : Bodies α) : Option (Bodies α) :=
  some { s with
    posx := Function.update s.posx i (s.posx i + s.velx i * c.timeStep)
    posy := Function.update s.posy i (s.posy i + s.vely i * c.timeStep)
    posz := Function.update s.posz i (s.posz i + s.velz i * c.timeStep) }

/-- `TestNBody`. -/
def testNBody (sqrt : α → α) (c : NBodyConstants α) (kNruns kN : Nat) (s : Bodies α) :
    Option (Bodies α) :=
  forLoop 1 kNruns (fun _ s =>
    (forLoop 1 kN (velocityBody sqrt c kN) 0 s).bind (forLoop 1 kN (positionBody c) 0)) 0 s

/-- The loop of the velocity phase of `TestNBodySIMD` for the tile from body `i` on. -/
def velocityTile (V : Nat) (sqrt : α → α) (c : NBodyConstants α) (kN i : Nat) (s : Bodies α) :
    Option (Bodies α) :=
  let pipos : Vec3 (Lanes V α) := ⟨asVec V s.posx i, asVec V s.posy i, asVec V s.posz i⟩
  (forLoop 1 kN (fun j pivel => some
    (pPInteractionSIMD sqrt c pipos pivel (s.pos j).splat (splat (s.mass j)))) 0
    ⟨asVec V s.velx i, asVec V s.vely i, asVec V s.velz i⟩).map fun pivel =>
      { s with
        velx := store pivel.x s.velx i
        vely := store pivel.y s.vely i
        velz := store pivel.z s.velz i }

/-- The body of the position phase of `TestNBodySIMD`. -/
def positionTile (V : Nat) (c : NBodyConstants α) (i : Nat) (s : Bodies α) :
    Option (Bodies α) :=
  some { s with
    posx := store (asVec V s.posx i + asVec V s.velx i * splat c.timeStep) s.posx i
    posy := store (asVec V s.posy i + asVec V s.vely i * splat c.timeStep) s.posy i
    posz := store (asVec V s.posz i + asVec V s.velz i * splat c.timeStep) s.posz i }

/-- `TestNBodySIMD`. -/
def testNBodySIMD (V : Nat) (sqrt : α → α) (c : NBodyConstants α) (kNruns kN : Nat)
    (s : Bodies α) : Option (Bodies α) :=
  forLoop 1 kNruns (fun _ s =>
    (forLoop V kN (velocityTile V sqrt c kN) 0 s).bind (forLoop V kN (positionTile V c) 0)) 0 s

/-! ## The velocity phase -/

/-- The velocity of body `i` after it has interacted with all bodies. -/
def pushed (sqrt : α → α) (c : NBodyConstants α) (kN : Nat) (s : Bodies α) (i : Nat) : Vec3 α :=
  (List.range kN).foldl
    (fun pivel j => pPInteraction sqrt c (s.pos i) pivel (s.pos j) (s.mass j)) (s.vel i)

/-- The velocities of the bodies below `i` are replaced. -/
def Bodies.pushedTo (sqrt : α → α) (c : NBodyConstants α) (kN : Nat) (s : Bodies α) (i : Nat) :
    Bodies α :=
  { s with
    velx := upTo i (fun a => (pushed sqrt c kN s a).x) s.velx
    vely := upTo i (fun a => (pushed sqrt c kN s a).y) s.vely
    velz := upTo i (fun a => (pushed sqrt c kN s a).z) s.velz }

/-- Positions and masses are those from before the phase. -/
@[simp] theorem pushedTo_pos (sqrt : α → α) (c : NBodyConstants α) (kN i j : Nat)
    (s : Bodies α) : (s.pushedTo sqrt c kN i).pos j = s.pos j := rfl

@[simp] theorem pushedTo_mass (sqrt : α → α) (c : NBodyConstants α) (kN i : Nat)
    (s : Bodies α) : (s.pushedTo sqrt c kN i).mass = s.mass := rfl

theorem pushedTo_zero (sqrt : α → α) (c : NBodyConstants α) (kN : Nat) (s : Bodies α) :
    s.pushedTo sqrt c kN 0 = s := by
  simp only [Bodies.pushedTo, upTo_zero]

/-- The next body. -/
theorem velocityBody_pushedTo (sqrt : α → α) (c : NBodyConstants α) (kN i : Nat)
    (s : Bodies α) :
    velocityBody sqrt c kN i (s.pushedTo sqrt c kN i) = some (s.pushedTo sqrt c kN (i + 1)) := by
  have hvel : (s.pushedTo sqrt c kN i).vel i = s.vel i := by
    simp only [Bodies.vel, Bodies.pushedTo, upTo_self]
  unfold velocityBody
  simp only [pushedTo_pos, pushedTo_mass, hvel, forLoop_eq_foldl, Option.map_some]
  refine congrArg some ?_
  simp only [Bodies.setVel, Bodies.pushedTo, Bodies.mk.injEq, true_and, and_true]
  exact ⟨update_upTo rfl, update_upTo rfl, update_upTo rfl⟩

/-- The lanes of a tile of bodies interact with all bodies as each body does. -/
theorem lane_foldl (sqrt : α → α) (c : NBodyConstants α) (kN i : Nat) (s : Bodies α)
    (k : Fin V) :
    ((List.range kN).foldl (fun pivel j =>
      pPInteractionSIMD sqrt c ⟨asVec V s.posx i, asVec V s.posy i, asVec V s.posz i⟩ pivel
        (s.pos j).splat (splat (s.mass j)))
      ⟨asVec V s.velx i, asVec V s.vely i, asVec V s.velz i⟩).lane k =
      pushed sqrt c kN s (i + k) := by
  unfold pushed
  rw [← List.foldl_hom (Vec3.lane · k)]
  · rfl
  · intro pivel j
    rw [pPInteractionSIMD_lane]
    rfl

/-- The next tile. -/
theorem velocityTile_pushedTo (sqrt : α → α) (c : NBodyConstants α) (kN i : Nat)
    (s : Bodies α) :
    velocityTile V sqrt c kN i (s.pushedTo sqrt c kN i) =
      some (s.pushedTo sqrt c kN (i + V)) := by
  have hvelx : asVec V (s.pushedTo sqrt c kN i).velx i = asVec V s.velx i := asVec_upTo i _ _
  have hvely : asVec V (s.pushedTo sqrt c kN i).vely i = asVec V s.vely i := asVec_upTo i _ _
  have hvelz : asVec V (s.pushedTo sqrt c kN i).velz i = asVec V s.velz i := asVec_upTo i _ _
  unfold velocityTile
  simp only [pushedTo_pos, pushedTo_mass, hvelx, hvely, hvelz, forLoop_eq_foldl,
    Option.map_some]
  have hlane := lane_foldl (V := V) sqrt c kN i s
  refine congrArg some ?_
  simp only [Bodies.pushedTo, Bodies.mk.injEq, true_and, and_true]
  exact ⟨store_upTo fun k => congrArg Vec3.x (hlane k),
    store_upTo fun k => congrArg Vec3.y (hlane k),
    store_upTo fun k => congrArg Vec3.z (hlane k)⟩

/-- Both loops of the velocity phase push every body once, from the positions before
the phase. -/
theorem velocityPhase_eq (sqrt : α → α) (c : NBodyConstants α) {kN : Nat} (hV : 0 < V)
    (hkN : V ∣ kN) (s : Bodies α) :
    forLoop 1 kN (velocityBody sqrt c kN) 0 s = some (s.pushedTo sqrt c kN kN) ∧
      forLoop V kN (velocityTile V sqrt c kN) 0 s = some (s.pushedTo sqrt c kN kN) := by
  have hbody := forLoop_through (s.pushedTo sqrt c kN) Nat.one_pos (Nat.one_dvd kN)
    fun j _ => velocityBody_pushedTo sqrt c kN j s
  have htile := forLoop_through (s.pushedTo sqrt c kN) hV hkN
    fun j _ => velocityTile_pushedTo sqrt c kN j s
  rw [pushedTo_zero] at hbody htile
  exact ⟨hbody, htile⟩

end Code

/-! ## The position phase -/

section Position

variable [Add α] [Mul α]

/-- The positions of the bodies below `i` are replaced. -/
def Bodies.movedTo (c : NBodyConstants α) (s : Bodies α) (i : Nat) : Bodies α :=
  { s with
    posx := upTo i (fun a => s.posx a + s.velx a * c.timeStep) s.posx
    posy := upTo i (fun a => s.posy a + s.vely a * c.timeStep) s.posy
    posz := upTo i (fun a => s.posz a + s.velz a * c.timeStep) s.posz }

theorem movedTo_zero (c : NBodyConstants α) (s : Bodies α) : s.movedTo c 0 = s := by
  simp only [Bodies.movedTo, upTo_zero]

theorem positionBody_movedTo (c : NBodyConstants α) (i : Nat) (s : Bodies α) :
    positionBody c i (s.movedTo c i) = some (s.movedTo c (i + 1)) := by
  simp only [positionBody, Bodies.movedTo, upTo_self]
  rw [update_upTo rfl, update_upTo rfl, update_upTo rfl]

theorem positionTile_movedTo (c : NBodyConstants α) (i : Nat) (s : Bodies α) :
    positionTile V c i (s.movedTo c i) = some (s.movedTo c (i + V)) := by
  have htile : ∀ pos vel : Nat → α,
      store (asVec V (upTo i (fun a => pos a + vel a * c.timeStep) pos) i +
          asVec V vel i * splat c.timeStep)
        (upTo i (fun a => pos a + vel a * c.timeStep) pos) i =
        upTo (i + V) (fun a => pos a + vel a * c.timeStep) pos := by
    intro pos vel
    rw [asVec_upTo]
    exact store_upTo fun k => rfl
  simp only [positionTile, Bodies.movedTo, htile]

/-- Both loops of the position phase move every body once. -/
theorem positionPhase_eq (c : NBodyConstants α) {kN : Nat} (hV : 0 < V) (hkN : V ∣ kN)
    (s : Bodies α) :
    forLoop 1 kN (positionBody c) 0 s = some (s.movedTo c kN) ∧
      forLoop V kN (positionTile V c) 0 s = some (s.movedTo c kN) := by
  have hbody := forLoop_through (s.movedTo c) Nat.one_pos (Nat.one_dvd kN)
    fun j _ => positionBody_movedTo c j s
  have htile := forLoop_through (s.movedTo c) hV hkN fun j _ => positionTile_movedTo c j s
  rw [movedTo_zero] at hbody htile
  exact ⟨hbody, htile⟩

end Position

/-! ## All runs -/

section Runs

variable [Add α] [Sub α] [Mul α] [Div α]

/-- What one run leaves. -/
def nextRun (sqrt : α → α) (c : NBodyConstants α) (kN : Nat) (s : Bodies α) : Bodies α :=
  (s.pushedTo sqrt c kN kN).movedTo c kN

/-- One run of either program. -/
theorem run_eq_nextRun (sqrt : α → α) (c : NBodyConstants α) {kN : Nat} (hV : 0 < V)
    (hkN : V ∣ kN) (s : Bodies α) :
    (forLoop 1 kN (velocityBody sqrt c kN) 0 s).bind (forLoop 1 kN (positionBody c) 0) =
        some (nextRun sqrt c kN s) ∧
      (forLoop V kN (velocityTile V sqrt c kN) 0 s).bind (forLoop V kN (positionTile V c) 0) =
        some (nextRun sqrt c kN s) := by
  obtain ⟨hbody, htile⟩ := velocityPhase_eq sqrt c hV hkN s
  obtain ⟨hbody', htile'⟩ := positionPhase_eq c hV hkN (s.pushedTo sqrt c kN kN)
  rw [hbody, htile, Option.bind_some, Option.bind_some]
  exact ⟨hbody', htile'⟩

/-- `TestNBodySIMD` leaves every array as `TestNBody` does, and both leave the masses
alone. -/
theorem testNBodySIMD_eq_testNBody (sqrt : α → α) (c : NBodyConstants α) (kNruns : Nat)
    {kN : Nat} (hV : 0 < V) (hkN : V ∣ kN) (s : Bodies α) :
    ∃ s', testNBody sqrt c kNruns kN s = some s' ∧
      testNBodySIMD V sqrt c kNruns kN s = some s' ∧ s'.mass = s.mass := by
  have hrun := run_eq_nextRun sqrt c hV hkN
  let Inv : Nat → Bodies α → Prop := fun _ t => t.mass = s.mass
  obtain ⟨n, s', hs', -, hmass⟩ := forLoop_invariant Inv Nat.one_pos
    (fun _ t _ ht => ⟨nextRun sqrt c kN t, (hrun t).1, ht⟩) (j := 0) (s := s) rfl
  refine ⟨s', hs', ?_, hmass⟩
  rw [← hs']
  unfold testNBodySIMD
  simp only [fun s => (hrun s).1, fun s => (hrun s).2]

end Runs

/-- Eight bodies in tiles of four, with integers for the uninterpreted numbers. -/
theorem testNBodySIMD_eq_testNBody_eight :
    ∃ s', testNBody (fun x : Int => x) ⟨1, 2, 3⟩ 2 8
        ⟨fun i => i, fun i => i, fun i => i, fun _ => 1, fun _ => 1, fun _ => 1, fun _ => 5⟩ =
          some s' ∧
      testNBodySIMD 4 (fun x : Int => x) ⟨1, 2, 3⟩ 2 8
        ⟨fun i => i, fun i => i, fun i => i, fun _ => 1, fun _ => 1, fun _ => 1, fun _ => 5⟩ =
          some s' ∧
      s'.mass = fun _ => 5 :=
  testNBodySIMD_eq_testNBody _ _ 2 (by decide) (by decide) _

end VecCore.Bench
