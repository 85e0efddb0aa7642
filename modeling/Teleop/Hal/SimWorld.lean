import Teleop.Lib.FloatOps
import Teleop.Lib.TransitionSystem

/-!
# The simulated world

Rigid boxes under gravity, with accumulated forces and torques, a quaternion attitude and a
ground plane.  Arrays of three and four numbers are vectors and quaternions by component.
-/

namespace Teleop.Hal

open Teleop.Lib Teleop.Lib.FloatOps

/-- An array of three: components 0, 1 and 2. -/
@[ext]
structure Vec3 (F : Type) where
  x : F
  y : F
  z : F
  deriving DecidableEq, Repr

/-- A quaternion `[w, x, y, z]`. -/
@[ext]
structure Quat (F : Type) where
  w : F
  x : F
  y : F
  z : F
  deriving DecidableEq, Repr

/-- The root and the trigonometric functions of the wide format. -/
class FloatTrig (F : Type) where
  sqrt : F → F
  sin : F → F
  cos : F → F

section Rotations

variable {F : Type} [FloatOps F]

def quatMul (a b : Quat F) : Quat F where
  w := a.w * b.w - a.x * b.x - a.y * b.y - a.z * b.z
  x := a.w * b.x + a.x * b.w + a.y * b.z - a.z * b.y
  y := a.w * b.y - a.x * b.z + a.y * b.w + a.z * b.x
  z := a.w * b.z + a.x * b.y - a.y * b.x + a.z * b.w

/-- Body frame to world frame: `t = 2 u × v` for the vector part `u`, and `v + w t + u × t`. -/
def quatRotate (q : Quat F) (v : Vec3 F) : Vec3 F :=
  let qx := q.x * ofRat 2
  let qy := q.y * ofRat 2
  let qz := q.z * ofRat 2
  let tx := qy * v.z - qz * v.y
  let ty := qz * v.x - qx * v.z
  let tz := qx * v.y - qy * v.x
  ⟨v.x + q.w * tx + (q.y * tz - q.z * ty),
    v.y + q.w * ty + (q.z * tx - q.x * tz),
    v.z + q.w * tz + (q.x * ty - q.y * tx)⟩

/-- World frame to body frame, by the conjugate. -/
def quatRotateInv (q : Quat F) (v : Vec3 F) : Vec3 F :=
  quatRotate ⟨q.w, -q.x, -q.y, -q.z⟩ v

def quatMulHalf (q wq : Quat F) : Quat F :=
  let p := quatMul q wq
  ⟨ofRat (1 / 2) * p.w, ofRat (1 / 2) * p.x, ofRat (1 / 2) * p.y, ofRat (1 / 2) * p.z⟩

end Rotations

/-- State of a rigid body; `omega` is in the body frame. -/
structure RigidState (F : Type) where
  pos : Vec3 F
  vel : Vec3 F
  quat : Quat F
  omega : Vec3 F
  mass : F
  invInertia : Vec3 F
  half : Vec3 F

variable {F : Type} [FloatOps F] [FloatTrig F]

namespace RigidState

/-- A box at rest, turned by `yaw`. -/
def new (mass : F) (half pos : Vec3 F) (yaw : F) : RigidState F :=
  let ix := mass / ofRat 3 * (half.y * half.y + half.z * half.z)
  let iy := mass / ofRat 3 * (half.x * half.x + half.z * half.z)
  let iz := mass / ofRat 3 * (half.x * half.x + half.y * half.y)
  { pos := pos
    vel := ⟨0, 0, 0⟩
    quat := ⟨FloatTrig.cos (yaw * ofRat (1 / 2)), 0, 0, FloatTrig.sin (yaw * ofRat (1 / 2))⟩
    omega := ⟨0, 0, 0⟩
    mass := mass
    invInertia := ⟨ofRat 1 / ix, ofRat 1 / iy, ofRat 1 / iz⟩
    half := half }

/-- Semi-implicit Euler for the center of mass. -/
def stepLinear (body : RigidState F) (gravity force : Vec3 F) (dt : F) : RigidState F :=
  let vel : Vec3 F :=
    ⟨body.vel.x + (gravity.x + force.x / body.mass) * dt,
      body.vel.y + (gravity.y + force.y / body.mass) * dt,
      body.vel.z + (gravity.z + force.z / body.mass) * dt⟩
  { body with
    vel := vel
    pos := ⟨body.pos.x + vel.x * dt, body.pos.y + vel.y * dt, body.pos.z + vel.z * dt⟩ }

/-- Angular velocity in the body frame, with the gyroscopic term. -/
def stepOmega (body : RigidState F) (torque : Vec3 F) (dt : F) : RigidState F :=
  let inv := body.invInertia
  let ix := ofRat 1 / inv.x
  let iy := ofRat 1 / inv.y
  let iz := ofRat 1 / inv.z
  let w := body.omega
  let gyro : Vec3 F :=
    ⟨w.y * iz * w.z - w.z * iy * w.y,
      w.z * ix * w.x - w.x * iz * w.z,
      w.x * iy * w.y - w.y * ix * w.x⟩
  { body with
    omega :=
      ⟨w.x + inv.x * (torque.x - gyro.x) * dt,
        w.y + inv.y * (torque.y - gyro.y) * dt,
        w.z + inv.z * (torque.z - gyro.z) * dt⟩ }

/-- The quaternion divided by its length, unless that is next to nothing. -/
def normalized (q : Quat F) : Quat F :=
  let n := FloatTrig.sqrt (q.w * q.w + q.x * q.x + q.y * q.y + q.z * q.z)
  if lt (ofRat (1 / 1000000000000)) n then ⟨q.w / n, q.x / n, q.y / n, q.z / n⟩ else q

/-- Attitude: half the product with the angular velocity, then normalization. -/
def stepAttitude (body : RigidState F) (dt : F) : RigidState F :=
  let dot := quatMulHalf body.quat ⟨0, body.omega.x, body.omega.y, body.omega.z⟩
  let q := body.quat
  { body with
    quat := normalized ⟨q.w + dot.w * dt, q.x + dot.x * dt, q.y + dot.y * dt, q.z + dot.z * dt⟩ }

/-- Contact with the ground plane, with restitution and friction. -/
def stepGround (body : RigidState F) (restitution : F) : RigidState F :=
  if lt (body.pos.z - body.half.z) 0 then
    let bounced :=
      if lt body.vel.z 0 then
        if lt (-body.vel.z) (ofRat (1 / 20)) then 0 else -body.vel.z * restitution
      else body.vel.z
    { body with
      pos := { body.pos with z := body.half.z }
      vel := ⟨body.vel.x * ofRat (197 / 200), body.vel.y * ofRat (197 / 200), bounced⟩
      omega :=
        ⟨body.omega.x * ofRat (97 / 100), body.omega.y * ofRat (97 / 100),
          body.omega.z * ofRat (97 / 100)⟩ }
  else body

def step (body : RigidState F) (gravity : Vec3 F) (restitution : F) (force torque : Vec3 F)
    (dt : F) : RigidState F :=
  ((((body.stepLinear gravity force dt).stepOmega torque dt).stepAttitude dt).stepGround
    restitution)

end RigidState

/-- The world: every body has an accumulator for its force and one for its torque. -/
structure World (F : Type) where
  bodies : List (RigidState F)
  force : List (Vec3 F)
  torque : List (Vec3 F)
  gravity : Vec3 F
  restitution : F
  forces : force.length = bodies.length
  torques : torque.length = bodies.length

namespace World

def new (gravity : Vec3 F) : World F where
  bodies := []
  force := []
  torque := []
  gravity := gravity
  restitution := ofRat (1 / 5)
  forces := rfl
  torques := rfl

/-- Add a box; its handle is the number of bodies before. -/
def addBox (world : World F) (mass : F) (half pos : Vec3 F) (yaw : F) : World F where
  bodies := world.bodies ++ [.new mass half pos yaw]
  force := world.force ++ [⟨0, 0, 0⟩]
  torque := world.torque ++ [⟨0, 0, 0⟩]
  gravity := world.gravity
  restitution := world.restitution
  forces := by simp [world.forces]
  torques := by simp [world.torques]

def accumulate (acc more : Vec3 F) : Vec3 F := ⟨acc.x + more.x, acc.y + more.y, acc.z + more.z⟩

/-- Accumulate a force in the world frame; `none` for a handle that is not one. -/
def addForce (world : World F) (id : Nat) (f : Vec3 F) : Option (World F) :=
  if id < world.force.length then
    some { world with
      force := world.force.modify id (accumulate · f)
      forces := by simp [world.forces] }
  else none

/-- Accumulate a torque in the body frame. -/
def addTorque (world : World F) (id : Nat) (tau : Vec3 F) : Option (World F) :=
  if id < world.torque.length then
    some { world with
      torque := world.torque.modify id (accumulate · tau)
      torques := by simp [world.torques] }
  else none

/-- Advance every body by `dt` and clear the accumulators. -/
def step (world : World F) (dt : F) : World F where
  bodies := (world.bodies.zip (world.force.zip world.torque)).map fun (body, force, torque) =>
    body.step world.gravity world.restitution force torque dt
  force := world.force.map fun _ => ⟨0, 0, 0⟩
  torque := world.torque.map fun _ => ⟨0, 0, 0⟩
  gravity := world.gravity
  restitution := world.restitution
  forces := by simp [world.forces, world.torques]
  torques := by simp [world.forces, world.torques]

/-- A world vector in the frame of a body. -/
def rotateToBody (world : World F) (id : Nat) (vWorld : Vec3 F) : Option (Vec3 F) :=
  world.bodies[id]?.map fun body => quatRotateInv body.quat vWorld

/-- A vector of the frame of a body in the world frame. -/
def rotateToWorld (world : World F) (id : Nat) (vBody : Vec3 F) : Option (Vec3 F) :=
  world.bodies[id]?.map fun body => quatRotate body.quat vBody

end World

inductive WorldAction (F : Type) where
  | addBox (mass : F) (half pos : Vec3 F) (yaw : F)
  | addForce (id : Nat) (f : Vec3 F)
  | addTorque (id : Nat) (tau : Vec3 F)
  | step (dt : F)

/-- The calls that change a world. -/
def World.next (world : World F) : WorldAction F → Option (World F)
  | .addBox mass half pos yaw => some (world.addBox mass half pos yaw)
  | .addForce id f => world.addForce id f
  | .addTorque id tau => world.addTorque id tau
  | .step dt => some (world.step dt)

/-- Worlds from their creation on. -/
def simulation (F : Type) [FloatOps F] [FloatTrig F] : TransitionSystem (World F) (WorldAction F) :=
  .ofNext (fun world => ∃ gravity, world = .new gravity) World.next

end Teleop.Hal
