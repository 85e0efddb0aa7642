import Teleop.Hal.Can
import Teleop.Hal.Euler
import Teleop.Hal.Motor
import Teleop.Safety.Stages

/-!
# The simulated quadrotor

Four motors on one box of a simulated world: frames of the virtual bus command the rotors,
actuation turns their speeds into a force and a torque, and the sensors are refreshed after a
step of the world.
-/

namespace Teleop.Hal

open Teleop.Core Teleop.Lib Teleop.Lib.FloatOps Teleop.Lib.FloatPair Teleop.Safety

/-- Motor command broadcast: four thrusts of two bytes each, high byte first. -/
def motorCmd : UInt32 := 0x200

/-- A quadrotor attached to a body of a world. -/
structure QuadDrone (S D : Type) where
  body : Nat
  motors : Fin 4 → SimMotor S
  prevVel : Vec3 D
  cmdSeq : UInt64

section Definitions

variable {S D : Type} [FloatOps S] [FloatTrig S] [FloatOps D] [FloatTrig D] [FloatAngles D]
  [FloatPair S D]

/-- Rotor layout, front left, front right, rear left and rear right, as x and y in metres. -/
def rotorPos : Fin 4 → D × D :=
  let arm : D := ofRat 0.22
  ![(-arm, arm), (arm, arm), (-arm, -arm), (arm, -arm)]

namespace QuadDrone

/-- Spawns the vehicle just above the ground plane. -/
def spawn (world : World D) : QuadDrone S D × World D :=
  let half : Vec3 D := ⟨ofRat 0.12, ofRat 0.12, ofRat 0.045⟩
  ({ body := world.bodies.length
     motors := fun _ => .new (ofRat 16)
     prevVel := ⟨0, 0, 0⟩
     cmdSeq := 1 },
    world.addBox (ofRat 1.1) half ⟨0, 0, half.z + ofRat 0.02⟩ 0)

/-- The thrust of one motor in the payload of a frame. -/
def rawThrust (frame : CanFrame) (i : Fin 4) : Nat :=
  frame.data[2 * i.val].toNat * 256 + frame.data[2 * i.val + 1].toNat

/-- Parses a motor command frame; `true` when it was one. -/
def handleCan (drone : QuadDrone S D) (frame : CanFrame) : QuadDrone S D × Bool :=
  if frame.id ≠ motorCmd ∨ frame.len < 8 then (drone, false)
  else
    ({ drone with
        motors := fun i =>
          (drone.motors i).apply {
            seq := drone.cmdSeq
            timestampNs := drone.cmdSeq * 5000000
            mode := MotorMode.thrust.asU8
            reserved := .replicate 3 0
            value := ofRat (rawThrust frame i) / ofRat 65535 }
        cmdSeq := drone.cmdSeq + 1 },
      true)

def thrusts (drone : QuadDrone S D) : Fin 4 → S := fun i => (drone.motors i).normalizedThrust

/-- The resultant of the rotors in the body frame: the thrust and the two torques of its arms. -/
def resultant (drone : QuadDrone S D) : D × D × D :=
  (List.finRange 4).foldl
    (fun (fz, tauX, tauY) i =>
      let fi : D := widen (drone.motors i).normalizedThrust * ofRat 5
      (fz + fi, tauX + (rotorPos i).2 * fi, tauY + -(rotorPos i).1 * fi))
    (0, 0, 0)

/-- The sum of some rotor speeds. -/
def speedSum (drone : QuadDrone S D) (motors : List (Fin 4)) : D :=
  motors.foldl (fun sum i => sum + widen (drone.motors i).omega) 0

/-- Accumulates a thrust along the up axis of a body and a torque in its frame. -/
def push (world : World D) (id : Nat) (fz : D) (tau : Vec3 D) : Option (World D) :=
  (world.rotateToWorld id ⟨0, 0, fz⟩).bind fun upWorld =>
    (world.addForce id upWorld).bind (·.addTorque id tau)

/-- Advances the motors and accumulates what the rotors exert; `none` where the handle of the
body is not one. -/
def applyActuation (drone : QuadDrone S D) (world : World D) (dtS : D) :
    Option (QuadDrone S D × World D) :=
  let drone := { drone with motors := fun i => (drone.motors i).tick (narrow dtS) }
  let body := drone.resultant
  let tauZ := ofRat 0.0009 * (drone.speedSum [0, 3] - drone.speedSum [1, 2])
  (push world drone.body body.1 ⟨body.2.1, body.2.2, tauZ⟩).map fun world => (drone, world)

/-- The datum of the flat-earth approximation. -/
def lat0 : D := ofRat 47.6062

def lon0 : D := ofRat (-122.3321)

/-- The inertial sample of a change of velocity: the acceleration without gravity, in the frame
of the body. -/
def sampleImu (drone : QuadDrone S D) (body : RigidState D) (dt : D) (imu : ImuSample S) :
    ImuSample S :=
  let acc : Vec3 D :=
    ⟨(body.vel.x - drone.prevVel.x) / dt, (body.vel.y - drone.prevVel.y) / dt,
      (body.vel.z - drone.prevVel.z) / dt⟩
  let specBody := quatRotateInv body.quat ⟨acc.x, acc.y, acc.z + ofRat 9.81⟩
  { imu with
    seq := imu.seq + 1
    gyroRps := ![narrow body.omega.x, narrow body.omega.y, narrow body.omega.z]
    accelG :=
      ![narrow (specBody.x / ofRat 9.81), narrow (specBody.y / ofRat 9.81),
        narrow (specBody.z / ofRat 9.81)] }

/-- The fix of a body; the course of a slow one is that of the fix before. -/
def sampleGps (body : RigidState D) (gps : GpsSample S D) : GpsSample S D :=
  let groundSpeed := hypot S body.vel.x body.vel.y
  { gps with
    seq := gps.seq + 1
    latDeg := lat0 + body.pos.x / ofRat 111320
    lonDeg := lon0 + body.pos.y / (ofRat 111320 * FloatTrig.cos (FloatAngles.toRadians lat0))
    altM := body.pos.z
    speedMps := narrow groundSpeed
    courseDeg :=
      if lt (ofRat 0.1) groundSpeed then
        narrow (FloatAngles.remEuclid
          (FloatAngles.toDegrees (FloatAngles.atan2 body.vel.y body.vel.x)) (ofRat 360))
      else gps.courseDeg
    sats := 14
    fixOk := 1 }

def samplePose (body : RigidState D) : Pose6D S D :=
  let (yaw, pitch, roll) := quatToEuler body.quat
  { x := body.pos.x
    y := body.pos.y
    z := body.pos.z
    yaw := narrow yaw
    pitch := narrow pitch
    roll := narrow roll
    reserved := 0 }

/-- Refreshes the sensors after a step of the world. -/
def postStep (drone : QuadDrone S D) (world : World D) (dt : D) (imu : ImuSample S)
    (gps : GpsSample S D) :
    Option (QuadDrone S D × ImuSample S × GpsSample S D × Pose6D S D) :=
  world.bodies[drone.body]?.map fun body =>
    ({ drone with prevVel := body.vel }, drone.sampleImu body dt imu, sampleGps body gps,
      samplePose body)

end QuadDrone

/-- A vehicle in its own world, with its sensor records. -/
structure Fixture (S D : Type) where
  world : World D
  drone : QuadDrone S D
  imu : ImuSample S
  gps : GpsSample S D
  pose : Pose6D S D

inductive FixtureAction (D : Type) where
  | handleCan (frame : CanFrame)
  | applyActuation (dtS : D)
  | step (dt : D)
  | postStep (dt : D)

namespace Fixture

def new : Fixture S D :=
  let (drone, world) := QuadDrone.spawn (.new ⟨0, 0, ofRat (-9.81)⟩)
  { world := world
    drone := drone
    imu := .zeroed 0 0
    gps := .zeroed 0 0
    pose := .default }

/-- The calls on a fixture; `none` where one panics. -/
def next (fixture : Fixture S D) : FixtureAction D → Option (Fixture S D)
  | .handleCan frame => some { fixture with drone := (fixture.drone.handleCan frame).1 }
  | .applyActuation dtS =>
      (fixture.drone.applyActuation fixture.world dtS).map fun (drone, world) =>
        { fixture with drone, world }
  | .step dt => some { fixture with world := fixture.world.step dt }
  | .postStep dt =>
      (fixture.drone.postStep fixture.world dt fixture.imu fixture.gps).map
        fun (drone, imu, gps, pose) => { fixture with drone, imu, gps, pose }

end Fixture

end Definitions

/-- A world of one body, with what has accumulated on it. -/
structure World.Holds (world : World ℝ) (body : RigidState ℝ) (force torque : Vec3 ℝ) : Prop where
  bodies : world.bodies = [body]
  force : world.force = [force]
  torque : world.torque = [torque]

section OneBody

variable {world : World ℝ} {body : RigidState ℝ} {force torque : Vec3 ℝ}

theorem World.Holds.step (holds : world.Holds body force torque) (dt : ℝ) :
    (world.step dt).Holds (body.step world.gravity world.restitution force torque dt) ⟨0, 0, 0⟩
      ⟨0, 0, 0⟩ where
  bodies := by simp [World.step, holds.bodies, holds.force, holds.torque]
  force := by simp [World.step, holds.force]
  torque := by simp [World.step, holds.torque]

theorem World.Holds.addForce (holds : world.Holds body force torque) (f : Vec3 ℝ) :
    ∃ pushed, world.addForce 0 f = some pushed ∧
      pushed.Holds body (World.accumulate force f) torque ∧ pushed.gravity = world.gravity ∧
      pushed.restitution = world.restitution := by
  have valid : 0 < world.force.length := by simp [holds.force]
  refine ⟨_, if_pos valid, ⟨holds.bodies, ?_, holds.torque⟩, rfl, rfl⟩
  simp [holds.force]

theorem World.Holds.addTorque (holds : world.Holds body force torque) (tau : Vec3 ℝ) :
    ∃ turned, world.addTorque 0 tau = some turned ∧
      turned.Holds body force (World.accumulate torque tau) ∧ turned.gravity = world.gravity ∧
      turned.restitution = world.restitution := by
  have valid : 0 < world.torque.length := by simp [holds.torque]
  refine ⟨_, if_pos valid, ⟨holds.bodies, holds.force, ?_⟩, rfl, rfl⟩
  simp [holds.torque]

/-- What the rotors exert on a body that is the only one. -/
theorem QuadDrone.push_of_holds (holds : world.Holds body force torque) (fz : ℝ) (tau : Vec3 ℝ) :
    ∃ after, QuadDrone.push world 0 fz tau = some after ∧
      after.Holds body (World.accumulate force (quatRotate body.quat ⟨0, 0, fz⟩))
        (World.accumulate torque tau) ∧
      after.gravity = world.gravity ∧ after.restitution = world.restitution := by
  have turned : world.rotateToWorld 0 ⟨0, 0, fz⟩ = some (quatRotate body.quat ⟨0, 0, fz⟩) := by
    simp [World.rotateToWorld, holds.bodies]
  obtain ⟨pushed, push, pushedHolds, gravity, restitution⟩ :=
    holds.addForce (quatRotate body.quat ⟨0, 0, fz⟩)
  obtain ⟨after, turn, afterHolds, gravity', restitution'⟩ := pushedHolds.addTorque tau
  refine ⟨after, ?_, afterHolds, gravity'.trans gravity, restitution'.trans restitution⟩
  rw [QuadDrone.push, turned, Option.bind_some, push, Option.bind_some, turn]

/-- A drone whose motors have advanced. -/
noncomputable def QuadDrone.ticked (drone : QuadDrone ℝ ℝ) (dtS : ℝ) : QuadDrone ℝ ℝ :=
  { drone with motors := fun i => (drone.motors i).tick dtS }

/-- The torque of the rotors. -/
noncomputable def QuadDrone.rotorTorque (drone : QuadDrone ℝ ℝ) : Vec3 ℝ :=
  ⟨drone.resultant.2.1, drone.resultant.2.2,
    (0.0009 : ℚ) * (drone.speedSum [0, 3] - drone.speedSum [1, 2])⟩

theorem QuadDrone.applyActuation_of_holds {drone : QuadDrone ℝ ℝ}
    (holds : world.Holds body force torque) (handle : drone.body = 0) (dtS : ℝ) :
    ∃ after, drone.applyActuation world dtS = some (drone.ticked dtS, after) ∧
      after.Holds body
        (World.accumulate force (quatRotate body.quat ⟨0, 0, (drone.ticked dtS).resultant.1⟩))
        (World.accumulate torque (drone.ticked dtS).rotorTorque) ∧
      after.gravity = world.gravity ∧ after.restitution = world.restitution := by
  obtain ⟨after, pushed, kept⟩ := QuadDrone.push_of_holds holds
    (drone.ticked dtS).resultant.1 (drone.ticked dtS).rotorTorque
  refine ⟨after, ?_, kept⟩
  have attached : (drone.ticked dtS).body = 0 := handle
  rw [← attached] at pushed
  exact congrArg (Option.map fun world => (drone.ticked dtS, world)) pushed

end OneBody

/-- The airframe: never below the ground plane. -/
structure Airframe (body : RigidState ℝ) : Prop where
  attitude : body.quat.Unit
  half : body.half.z = 0.045
  above : 0.045 ≤ body.pos.z

section Airframe

variable {body : RigidState ℝ}

theorem half_step (body : RigidState ℝ) (gravity : Vec3 ℝ) (restitution : ℝ)
    (force torque : Vec3 ℝ) (dt : ℝ) :
    (body.step gravity restitution force torque dt).half = body.half := by
  unfold RigidState.step RigidState.stepGround
  split <;> rfl

/-- Contact lifts a body that is below the ground plane onto it. -/
theorem half_le_step (body : RigidState ℝ) (gravity : Vec3 ℝ) (restitution : ℝ)
    (force torque : Vec3 ℝ) (dt : ℝ) :
    body.half.z ≤ (body.step gravity restitution force torque dt).pos.z := by
  unfold RigidState.step
  have kept : (((body.stepLinear gravity force dt).stepOmega torque dt).stepAttitude dt).half =
      body.half := rfl
  generalize ((body.stepLinear gravity force dt).stepOmega torque dt).stepAttitude dt = moved at kept
  rw [← kept]
  unfold RigidState.stepGround
  split
  · exact le_refl _
  · next clear =>
      rw [lt_real, decide_eq_true_eq, not_lt, sub_nonneg] at clear
      exact clear

theorem airframe_spawn : Airframe (RigidState.new (ofRat 1.1)
    ⟨ofRat 0.12, ofRat 0.12, ofRat 0.045⟩ ⟨0, 0, ofRat 0.045 + ofRat 0.02⟩ (0 : ℝ)) where
  attitude := unit_new _ _ _ _
  half := by norm_num [RigidState.new]
  above := by norm_num [RigidState.new]

theorem Airframe.step (airframe : Airframe body) (gravity : Vec3 ℝ) (restitution : ℝ)
    (force torque : Vec3 ℝ) (dt : ℝ) :
    Airframe (body.step gravity restitution force torque dt) where
  attitude := unit_step airframe.attitude gravity restitution force torque dt
  half := by
    rw [half_step]
    exact airframe.half
  above := by
    rw [← airframe.half]
    exact half_le_step body gravity restitution force torque dt

end Airframe

/-- A rotor that turns forwards only. -/
structure Rotor (motor : SimMotor ℝ) : Prop where
  sound : motor.Sound
  forwards : 0 ≤ motor.omega
  commanded : 0 ≤ motor.lastCmd.target

section Rotors

variable {motor : SimMotor ℝ}

theorem rotor_new (volts : ℝ) : Rotor (SimMotor.new volts) where
  sound := SimMotor.sound_new volts
  forwards := le_refl _
  commanded := by simp [SimMotor.new, MotorCommand.target, MotorCommand.idle]

theorem Rotor.apply (rotor : Rotor motor) {cmd : MotorCommand ℝ}
    (mode : cmd.mode = MotorMode.thrust.asU8) : Rotor (motor.apply cmd) where
  sound := rotor.sound.apply cmd
  forwards := rotor.forwards
  commanded := SimMotor.target_nonneg_of_thrust mode

theorem Rotor.tick (rotor : Rotor motor) {dtS : ℝ} (forward : 0 ≤ dtS) :
    Rotor (motor.tick dtS) where
  sound := rotor.sound.tick forward
  forwards :=
    le_smooth (SimMotor.alpha_nonneg forward) (SimMotor.alpha_le_one dtS) rotor.forwards
      rotor.commanded
  commanded := rotor.commanded

end Rotors

/-- What the sensor records say. -/
structure Readings (gps : GpsSample ℝ ℝ) (pose : Pose6D ℝ ℝ) : Prop where
  course : 0 ≤ gps.courseDeg ∧ gps.courseDeg < 360
  speed : 0 ≤ gps.speedMps
  fix : gps.fixOk = 1 → gps.altM = pose.z ∧ 0.045 ≤ pose.z
  yaw : -Real.pi < pose.yaw ∧ pose.yaw ≤ Real.pi
  pitch : |pose.pitch| ≤ Real.pi / 2
  roll : -Real.pi < pose.roll ∧ pose.roll ≤ Real.pi

section Sensors

theorem readings_zeroed : Readings (.zeroed 0 0) .default where
  course := by norm_num [GpsSample.zeroed]
  speed := le_refl _
  fix fixed := by cases fixed
  yaw := ⟨neg_neg_of_pos Real.pi_pos, Real.pi_pos.le⟩
  pitch := by
    rw [Pose6D.default, abs_zero]
    exact div_nonneg Real.pi_pos.le (by norm_num)
  roll := ⟨neg_neg_of_pos Real.pi_pos, Real.pi_pos.le⟩

/-- A remainder of degrees is a course. -/
theorem remEuclid_mem (x : ℝ) {m : ℝ} (positive : 0 < m) :
    0 ≤ FloatAngles.remEuclid x m ∧ FloatAngles.remEuclid x m < m := by
  have whole : |m| = m := abs_of_pos positive
  have below := Int.floor_le (x / m)
  have above := Int.lt_floor_add_one (x / m)
  rw [le_div_iff₀ positive] at below
  rw [div_lt_iff₀ positive] at above
  simp only [FloatAngles.remEuclid, whole]
  constructor <;> linarith

theorem Readings.sample {body : RigidState ℝ} {gps : GpsSample ℝ ℝ} {pose : Pose6D ℝ ℝ}
    (readings : Readings gps pose) (airframe : Airframe body) :
    Readings (QuadDrone.sampleGps body gps) (QuadDrone.samplePose body) := by
  obtain ⟨yaw, pitch, roll, -, -⟩ := reports_quatToEuler airframe.attitude
  refine ⟨?_, ?_, fun _ => ⟨rfl, airframe.above⟩, yaw, pitch, roll⟩
  · simp only [QuadDrone.sampleGps]
    split
    · have mem := remEuclid_mem
        (FloatAngles.toDegrees (FloatAngles.atan2 body.vel.y body.vel.x)) (m := 360) (by norm_num)
      simpa using mem
    · exact readings.course
  · exact Real.sqrt_nonneg _

end Sensors

/-- Motors are not advanced backwards. -/
def FixtureAction.Forward : FixtureAction ℝ → Prop
  | .applyActuation dtS => 0 ≤ dtS
  | _ => True

namespace Fixture

/-- Fixtures from their creation on, with frames of any content and the calls in any order. -/
noncomputable def system : TransitionSystem (Fixture ℝ ℝ) (FixtureAction ℝ) :=
  (TransitionSystem.ofNext (· = new) next).restrict fun _ action => action.Forward

/-- What holds of a fixture between two calls. -/
structure Airworthy (fixture : Fixture ℝ ℝ) : Prop where
  handle : fixture.drone.body = 0
  airframe : ∃ body force torque, fixture.world.Holds body force torque ∧ Airframe body
  rotors : ∀ i, Rotor (fixture.drone.motors i)
  readings : Readings fixture.gps fixture.pose

section Flights

variable {fixture : Fixture ℝ ℝ}

theorem airworthy_new : (new : Fixture ℝ ℝ).Airworthy where
  handle := rfl
  airframe := ⟨_, ⟨0, 0, 0⟩, ⟨0, 0, 0⟩, ⟨rfl, rfl, rfl⟩, airframe_spawn⟩
  rotors _ := rotor_new _
  readings := readings_zeroed

theorem Airworthy.handleCan (airworthy : fixture.Airworthy) (frame : CanFrame) :
    ({ fixture with drone := (fixture.drone.handleCan frame).1 } : Fixture ℝ ℝ).Airworthy := by
  unfold QuadDrone.handleCan
  split
  · exact airworthy
  · exact ⟨airworthy.handle, airworthy.airframe, fun i => (airworthy.rotors i).apply rfl,
      airworthy.readings⟩

theorem Airworthy.applyActuation (airworthy : fixture.Airworthy) {dtS : ℝ} (forward : 0 ≤ dtS) :
    ∃ target, fixture.next (.applyActuation dtS) = some target ∧ target.Airworthy := by
  obtain ⟨body, force, torque, holds, airframe⟩ := airworthy.airframe
  obtain ⟨after, actuated, afterHolds, -, -⟩ :=
    QuadDrone.applyActuation_of_holds holds airworthy.handle dtS
  refine ⟨{ fixture with drone := fixture.drone.ticked dtS, world := after }, ?_, ?_⟩
  · rw [next, actuated]
    rfl
  · exact ⟨airworthy.handle, ⟨body, _, _, afterHolds, airframe⟩,
      fun i => (airworthy.rotors i).tick forward, airworthy.readings⟩

theorem Airworthy.step (airworthy : fixture.Airworthy) (dt : ℝ) :
    ({ fixture with world := fixture.world.step dt } : Fixture ℝ ℝ).Airworthy := by
  obtain ⟨body, force, torque, holds, airframe⟩ := airworthy.airframe
  exact ⟨airworthy.handle, ⟨_, _, _, holds.step dt, airframe.step _ _ _ _ dt⟩, airworthy.rotors,
    airworthy.readings⟩

theorem Airworthy.postStep (airworthy : fixture.Airworthy) (dt : ℝ) :
    ∃ target, fixture.next (.postStep dt) = some target ∧ target.Airworthy := by
  obtain ⟨body, force, torque, holds, airframe⟩ := airworthy.airframe
  have held : fixture.world.bodies[fixture.drone.body]? = some body := by
    rw [holds.bodies, airworthy.handle]
    rfl
  refine ⟨{ fixture with
    drone := { fixture.drone with prevVel := body.vel }
    imu := fixture.drone.sampleImu body dt fixture.imu
    gps := QuadDrone.sampleGps body fixture.gps
    pose := QuadDrone.samplePose body }, ?_, ?_⟩
  · rw [next, QuadDrone.postStep, held]
    rfl
  · exact ⟨airworthy.handle, ⟨body, force, torque, holds, airframe⟩, airworthy.rotors,
      airworthy.readings.sample airframe⟩

/-- No call on an airworthy fixture fails, and each leaves it airworthy. -/
theorem Airworthy.next (airworthy : fixture.Airworthy) {action : FixtureAction ℝ}
    (forward : action.Forward) : ∃ target, fixture.next action = some target ∧ target.Airworthy := by
  cases action with
  | handleCan frame => exact ⟨_, rfl, airworthy.handleCan frame⟩
  | applyActuation dtS => exact airworthy.applyActuation forward
  | step dt => exact ⟨_, rfl, airworthy.step dt⟩
  | postStep dt => exact airworthy.postStep dt

end Flights

/-- In every run, whatever the frames on the bus, the fixture stays airworthy, and the next call
does not fail. -/
theorem airworthy_of_reachable {fixture : Fixture ℝ ℝ} (reached : system.Reachable fixture) :
    fixture.Airworthy ∧ ∀ action : FixtureAction ℝ, action.Forward →
      (fixture.next action).isSome := by
  have airworthy : fixture.Airworthy := by
    apply reached.invariant
    · rintro _ rfl
      exact airworthy_new
    · rintro fixture action target airworthy ⟨forward, stepped⟩
      obtain ⟨_, result, after⟩ := airworthy.next forward
      obtain rfl := Option.some.inj (stepped.symm.trans result)
      exact after
  refine ⟨airworthy, ?_⟩
  intro action forward
  obtain ⟨target, result, -⟩ := airworthy.next forward
  rw [result]
  rfl

/-- A frame that commands one rotor only, and a step of the world under its thrust. -/
theorem airworthy_oneRotor : ∃ fixture : Fixture ℝ ℝ,
    system.Execution new [.handleCan (.new motorCmd [255, 255, 0, 0, 0, 0, 0, 0]),
      .applyActuation 0.005, .step 0.005] fixture ∧ fixture.Airworthy ∧
      ∀ action : FixtureAction ℝ, action.Forward → (fixture.next action).isSome := by
  have forward : (0 : ℝ) ≤ 0.005 := by norm_num
  obtain ⟨actuated, result, -⟩ :=
    (airworthy_new.handleCan (.new motorCmd [255, 255, 0, 0, 0, 0, 0, 0])).applyActuation forward
  have execution : system.Execution new [.handleCan (.new motorCmd [255, 255, 0, 0, 0, 0, 0, 0]),
      .applyActuation 0.005, .step 0.005]
      { actuated with world := actuated.world.step 0.005 } := by
    refine .cons ⟨trivial, rfl⟩ (.cons ⟨?_, result⟩ (.cons ⟨trivial, rfl⟩ (.nil _)))
    norm_num [FixtureAction.Forward]
  exact ⟨_, execution, airworthy_of_reachable ⟨_, _, rfl, execution⟩⟩

end Fixture

end Teleop.Hal
