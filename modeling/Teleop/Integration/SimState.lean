import Teleop.Core.Command
import Teleop.Hal.Drone

/-!
# The vehicle of the pipeline

The physics sink of the harness: a command becomes a thrust frame on a virtual bus, which moves
the quadrotor by one step.  Since all rotors get the same thrust, the vehicle climbs and sinks
over the point where it stands, level and without turning.
-/

namespace Teleop.Integration

open Teleop.Core Teleop.Hal Teleop.Lib Teleop.Lib.FloatOps Teleop.Ring Teleop.Safety

/-- `as u16`, which rounds towards 0 and saturates. -/
class FloatToU16 (F : Type) where
  toU16 : F → UInt16

/-- A fixture with its side of the bus and that of the operator. -/
structure SimState (S D : Type) extends Fixture S D where
  can : CanPair

section Definitions

variable {S D : Type} [FloatOps S] [FloatTrig S] [FloatOps D] [FloatTrig D] [FloatAngles D]
  [FloatPair S D] [FloatToU16 S]

/-- The fixed step of the simulator, in seconds. -/
def stepS : D := ofRat 0.005

/-- One thrust for all motors, high byte first. -/
def thrustFrame (raw : UInt16) : CanFrame :=
  let high := (raw >>> 8).toUInt8
  let low := raw.toUInt8
  .new motorCmd [high, low, high, low, high, low, high, low]

/-- The frame a flight controller expects. -/
def motorFrame (thrust : S) : CanFrame :=
  thrustFrame (FloatToU16.toU16 (clamp thrust 0 (ofRat 1) * ofRat 65535))

namespace SimState

def new : SimState S D where
  toFixture := .new
  can := canPair 16

/-- What a command puts on the bus, where nothing else is. -/
def transmit (sim : SimState S D) (safe : ControlCommand S) : SimState S D :=
  let thrust := clamp (safe.axes throttle) 0 (ofRat 1)
  let (operator, ring, _) := (sim.can.endpoint .a).send (sim.can.ring .a) (motorFrame thrust)
  { sim with
    can :=
      { endpoint := Function.update sim.can.endpoint .a operator
        ring := Function.update sim.can.ring .a ring } }

/-- The vehicle handles every frame that is pending. -/
def receive (sim : SimState S D) : SimState S D :=
  let (frames, ring) := (sim.can.ring .a).drain
  { sim with
    can := { sim.can with ring := Function.update sim.can.ring .a ring }
    drone := frames.foldl (fun drone frame => (drone.handleCan frame).1) sim.drone }

/-- One step of the vehicle under a command; `none` where a call of the fixture panics. -/
def tick (sim : SimState S D) (safe : ControlCommand S) : Option (SimState S D) :=
  let sim := (sim.transmit safe).receive
  ([.applyActuation stepS, .step stepS, .postStep stepS].foldlM Fixture.next
    sim.toFixture).map fun fixture => { sim with toFixture := fixture }

end SimState

end Definitions

noncomputable instance : FloatToU16 ℝ where
  toU16 x := .ofNat (min ⌊x⌋₊ 65535)

/-- The throttle as the vehicle gets it: in steps of 1/65535, rounded down. -/
noncomputable def carried (thrust : ℝ) : ℝ := ⌊clamp thrust 0 1 * 65535⌋₊ / 65535

section Frame

theorem clamp_clamp_unit (x : ℝ) : clamp (clamp x 0 1) 0 1 = clamp x 0 1 := by
  obtain ⟨low, high⟩ := clamp_unit_mem x
  rw [clamp.eq_def (clamp x 0 1), lt_real, lt_real, decide_eq_false (not_lt.mpr low),
    decide_eq_false (not_lt.mpr high)]
  rfl

/-- The two bytes of a 16-bit number, put together. -/
theorem join_bytes (raw : UInt16) :
    (raw >>> 8).toUInt8.toNat * 256 + raw.toUInt8.toNat = raw.toNat := by
  have bound := raw.toNat_lt
  have shift : (raw >>> 8).toNat = raw.toNat / 256 := by
    rw [UInt16.toNat_shiftRight, Nat.shiftRight_eq_div_pow]
    rfl
  rw [UInt16.toNat_toUInt8, UInt16.toNat_toUInt8, shift]
  omega

theorem rawThrust_thrustFrame (raw : UInt16) (i : Fin 4) :
    QuadDrone.rawThrust (thrustFrame raw) i = raw.toNat := by
  refine Eq.trans ?_ (join_bytes raw)
  fin_cases i <;> rfl

/-- Every motor reads the thrust that the frame was made of. -/
theorem rawThrust_motorFrame (thrust : ℝ) (i : Fin 4) :
    (QuadDrone.rawThrust (motorFrame thrust) i : ℝ) / 65535 = carried thrust := by
  obtain ⟨low, high⟩ := clamp_unit_mem thrust
  have bound : ⌊clamp thrust 0 1 * 65535⌋₊ ≤ 65535 := by
    apply Nat.floor_le_of_le
    norm_num
    linarith
  have raw : (FloatToU16.toU16 (clamp thrust 0 (ofRat 1) * ofRat 65535)).toNat =
      ⌊clamp thrust 0 1 * 65535⌋₊ := by
    simp only [FloatToU16.toU16, ofRat_real, Rat.cast_one, Rat.cast_ofNat]
    rw [Nat.min_eq_left bound]
    exact UInt16.toNat_ofNat_of_lt' (Nat.lt_succ_of_le bound)
  rw [motorFrame, rawThrust_thrustFrame, raw, carried]

theorem handled_motorFrame (thrust : ℝ) :
    (motorFrame thrust).id = motorCmd ∧ ¬(motorFrame thrust).len < 8 :=
  ⟨rfl, show ¬UInt16.ofNat 8 < 8 by decide⟩

end Frame

/-- A body over the origin, level and without spin, that moves up and down only. -/
structure Upright (body : RigidState ℝ) : Prop where
  attitude : body.quat = ⟨1, 0, 0, 0⟩
  still : body.omega = ⟨0, 0, 0⟩
  overOrigin : body.pos.x = 0 ∧ body.pos.y = 0
  vertical : body.vel.x = 0 ∧ body.vel.y = 0
  half : body.half.z = 0.045
  above : 0.045 ≤ body.pos.z

section Upright

variable {body : RigidState ℝ}

theorem upright_spawn : Upright (RigidState.new (ofRat 1.1)
    ⟨ofRat 0.12, ofRat 0.12, ofRat 0.045⟩ ⟨0, 0, ofRat 0.045 + ofRat 0.02⟩ (0 : ℝ)) where
  attitude := by simp [RigidState.new, FloatTrig.cos, FloatTrig.sin]
  still := rfl
  overOrigin := ⟨rfl, rfl⟩
  vertical := ⟨rfl, rfl⟩
  half := airframe_spawn.half
  above := airframe_spawn.above

theorem normalized_level : RigidState.normalized (⟨1, 0, 0, 0⟩ : Quat ℝ) = ⟨1, 0, 0, 0⟩ := by
  simp [RigidState.normalized, FloatTrig.sqrt]

/-- The part of a step before the contact. -/
theorem Upright.fly (upright : Upright body) {gravity force : Vec3 ℝ} (dt : ℝ)
    (down : gravity.x = 0 ∧ gravity.y = 0) (up : force.x = 0 ∧ force.y = 0) :
    let moved := ((body.stepLinear gravity force dt).stepOmega ⟨0, 0, 0⟩ dt).stepAttitude dt
    moved.quat = ⟨1, 0, 0, 0⟩ ∧ moved.omega = ⟨0, 0, 0⟩ ∧
      (moved.pos.x = 0 ∧ moved.pos.y = 0) ∧ (moved.vel.x = 0 ∧ moved.vel.y = 0) := by
  obtain ⟨attitude, still, overOrigin, vertical, -, -⟩ := upright
  refine ⟨?_, ?_, ?_, ?_⟩
  · simp [RigidState.stepLinear, RigidState.stepOmega, RigidState.stepAttitude, attitude, still,
      quatMulHalf, quatMul, normalized_level]
  · simp [RigidState.stepLinear, RigidState.stepOmega, RigidState.stepAttitude, still]
  · simp [RigidState.stepLinear, RigidState.stepOmega, RigidState.stepAttitude, overOrigin,
      vertical, down, up]
  · simp [RigidState.stepLinear, RigidState.stepOmega, RigidState.stepAttitude, vertical, down, up]

theorem Upright.step (upright : Upright body) {gravity force : Vec3 ℝ} (restitution dt : ℝ)
    (down : gravity.x = 0 ∧ gravity.y = 0) (up : force.x = 0 ∧ force.y = 0) :
    Upright (body.step gravity restitution force ⟨0, 0, 0⟩ dt) := by
  obtain ⟨attitude, still, overOrigin, vertical⟩ := upright.fly dt down up
  have half := half_step body gravity restitution force ⟨0, 0, 0⟩ dt
  have above := half_le_step body gravity restitution force ⟨0, 0, 0⟩ dt
  rw [upright.half] at above
  refine ⟨?_, ?_, ?_, ?_, (congrArg (·.z) half).trans upright.half, above⟩
  · rw [RigidState.step, quat_stepGround]
    exact attitude
  all_goals
    unfold RigidState.step RigidState.stepGround
    split
  · simp [still]
  · exact still
  · exact overOrigin
  · exact overOrigin
  · simp [vertical]
  · exact vertical

/-- A level body turns nothing. -/
theorem Upright.rotate (upright : Upright body) (v : Vec3 ℝ) :
    quatRotate body.quat v = v ∧ quatRotateInv body.quat v = v := by
  rw [upright.attitude]
  constructor <;> ext <;> simp [quatRotate, quatRotateInv]

theorem Upright.euler (upright : Upright body) : quatToEuler body.quat = (0, 0, 0) := by
  have origin : FloatAngles.atan2 (0 : ℝ) 1 = 0 := Complex.arg_one
  rw [upright.attitude, quatToEuler_real]
  norm_num [Quat.row1, Quat.row2, Quat.row3, origin, clamp]

end Upright

/-- A level flight: the rotors agree, the body moves up and down only, and so say the sensors. -/
structure Level (sim : SimState ℝ ℝ) : Prop where
  handle : sim.drone.body = 0
  body : ∃ body, sim.world.Holds body ⟨0, 0, 0⟩ ⟨0, 0, 0⟩ ∧ Upright body
  down : sim.world.gravity.x = 0 ∧ sim.world.gravity.y = 0
  rotors : ∀ i, Rotor (sim.drone.motors i)
  alike : ∀ i, sim.drone.motors i = sim.drone.motors 0
  idle : sim.can.ring .a = .withCapacity 16 ∧ (sim.can.endpoint .a).dropEvery = 0
  pose : sim.pose.x = 0 ∧ sim.pose.y = 0 ∧ 0 ≤ sim.pose.z
  facing : sim.pose.yaw = 0 ∧ sim.pose.pitch = 0 ∧ sim.pose.roll = 0
  gyro : ∀ axis, sim.imu.gyroRps axis = 0

section Ticks

variable {sim : SimState ℝ ℝ}

theorem level_new : Level (SimState.new : SimState ℝ ℝ) where
  handle := rfl
  body := ⟨_, ⟨rfl, rfl, rfl⟩, upright_spawn⟩
  down := ⟨rfl, rfl⟩
  rotors _ := rotor_new _
  alike _ := rfl
  idle := ⟨rfl, rfl⟩
  pose := ⟨rfl, rfl, le_refl _⟩
  facing := ⟨rfl, rfl, rfl⟩
  gyro _ := rfl

/-- The command that all motors get. -/
noncomputable def SimState.command (sim : SimState ℝ ℝ) (safe : ControlCommand ℝ) :
    MotorCommand ℝ where
  seq := sim.drone.cmdSeq
  timestampNs := sim.drone.cmdSeq * 5000000
  mode := MotorMode.thrust.asU8
  reserved := .replicate 3 0
  value := carried (clamp (safe.axes throttle) 0 1)

/-- On an idle bus a transmit succeeds. -/
theorem send_idle {endpoint : CanEndpoint} (intact : endpoint.dropEvery = 0) (frame : CanFrame) :
    endpoint.send (.withCapacity 16) frame =
      ({ endpoint with txCount := endpoint.txCount + 1 },
        ⟨16, [frame], Nat.le_of_ble_eq_true rfl⟩, .ok ()) := by
  rw [CanEndpoint.send, intact]
  rfl

theorem handleCan_motorFrame (drone : QuadDrone ℝ ℝ) (thrust : ℝ) :
    (drone.handleCan (motorFrame thrust)).1 =
      { drone with
        motors := fun i => (drone.motors i).apply {
          seq := drone.cmdSeq
          timestampNs := drone.cmdSeq * 5000000
          mode := MotorMode.thrust.asU8
          reserved := .replicate 3 0
          value := carried thrust }
        cmdSeq := drone.cmdSeq + 1 } := by
  obtain ⟨id, long⟩ := handled_motorFrame thrust
  rw [QuadDrone.handleCan, if_neg (not_or.mpr ⟨not_not.mpr id, long⟩)]
  simp only [ofRat_real, Rat.cast_natCast, Rat.cast_ofNat, rawThrust_motorFrame]

/-- The frame of a command is the only one on the bus, and the vehicle takes it. -/
theorem Level.receive_transmit (level : Level sim) (safe : ControlCommand ℝ) :
    (sim.transmit safe).receive.can.ring .a = .withCapacity 16 ∧
      ((sim.transmit safe).receive.can.endpoint .a).dropEvery = 0 ∧
      (sim.transmit safe).receive.toFixture =
        { sim.toFixture with
          drone :=
            { sim.drone with
              motors := fun i => (sim.drone.motors i).apply (sim.command safe)
              cmdSeq := sim.drone.cmdSeq + 1 } } := by
  obtain ⟨empty, intact⟩ := level.idle
  have sent := send_idle intact (motorFrame (clamp (safe.axes throttle) 0 (ofRat 1)))
  rw [← empty] at sent
  refine ⟨?_, ?_, ?_⟩
  · simp only [SimState.receive, SimState.transmit, sent, Function.update_self]
    rfl
  · simp only [SimState.receive, SimState.transmit, sent, Function.update_self]
    exact intact
  · simp only [SimState.receive, SimState.transmit, sent, Function.update_self, SpscRing.drain,
      List.foldl_cons, List.foldl_nil, handleCan_motorFrame]
    simp only [ofRat_real, Rat.cast_one]
    rfl

/-- Rotors that agree exert no torque. -/
theorem rotorTorque_of_alike {drone : QuadDrone ℝ ℝ}
    (alike : ∀ i, drone.motors i = drone.motors 0) : drone.rotorTorque = ⟨0, 0, 0⟩ := by
  have turn (motors : List (Fin 4)) :
      drone.speedSum motors = motors.foldl (fun sum _ => sum + (drone.motors 0).omega) 0 := by
    unfold QuadDrone.speedSum
    congr 1
    funext sum i
    rw [alike i, widen_real]
  have arms : drone.resultant.2 = (0, 0) := by
    simp only [QuadDrone.resultant, List.finRange_succ, List.finRange_zero, List.map_nil,
      List.map_cons, List.foldl_cons, List.foldl_nil, alike]
    simp [rotorPos]
  rw [QuadDrone.rotorTorque, turn, turn, arms]
  simp

/-- The fixture after the vehicle has moved by one step. -/
theorem Level.fly (level : Level sim) :
    ∃ fixture, [FixtureAction.applyActuation stepS, .step stepS, .postStep stepS].foldlM
        Fixture.next sim.toFixture = some fixture ∧
      fixture.drone.motors = (sim.drone.ticked stepS).motors ∧
      Level { sim with toFixture := fixture } := by
  obtain ⟨body, holds, upright⟩ := level.body
  obtain ⟨world, actuated, worldHolds, gravity, -⟩ :=
    QuadDrone.applyActuation_of_holds holds level.handle (stepS : ℝ)
  have forward : (0 : ℝ) ≤ stepS := by norm_num [stepS]
  have worldDown := level.down
  have tickedAlike : ∀ i, (sim.drone.ticked stepS).motors i = (sim.drone.ticked stepS).motors 0 := by
    intro i
    exact congrArg (·.tick stepS) (level.alike i)
  have torque := rotorTorque_of_alike tickedAlike
  rw [torque, (upright.rotate _).1] at worldHolds
  simp only [World.accumulate, add_zero, zero_add] at worldHolds
  rw [← gravity] at worldDown
  have stepped := worldHolds.step (stepS : ℝ)
  have up : (⟨0, 0, (sim.drone.ticked stepS).resultant.1⟩ : Vec3 ℝ).x = 0 ∧
      (⟨0, 0, (sim.drone.ticked stepS).resultant.1⟩ : Vec3 ℝ).y = 0 := ⟨rfl, rfl⟩
  have moved := upright.step world.restitution stepS worldDown up
  generalize body.step world.gravity world.restitution _ _ stepS = after at stepped moved
  have held : (world.step stepS).bodies[(sim.drone.ticked stepS).body]? = some after := by
    have attached : (sim.drone.ticked stepS).body = 0 := level.handle
    rw [stepped.bodies, attached]
    rfl
  refine ⟨{
    world := world.step stepS
    drone := { sim.drone.ticked stepS with prevVel := after.vel }
    imu := (sim.drone.ticked stepS).sampleImu after stepS sim.imu
    gps := QuadDrone.sampleGps after sim.gps
    pose := QuadDrone.samplePose after }, ?_, rfl, ?_⟩
  · simp only [List.foldlM_cons, List.foldlM_nil, Fixture.next, actuated, Option.map_some,
      Option.bind_eq_bind, Option.bind_some, QuadDrone.postStep, held]
    rfl
  · refine ⟨level.handle, ⟨after, stepped, moved⟩, worldDown, fun i => (level.rotors i).tick forward,
      tickedAlike, level.idle, ?_, ?_, ?_⟩
    · exact ⟨moved.overOrigin.1, moved.overOrigin.2, le_trans (by norm_num) moved.above⟩
    · simp [QuadDrone.samplePose, moved.euler]
    · simp [QuadDrone.sampleImu, moved.still, Fin.forall_fin_succ]

/-- The vehicle has taken its frame. -/
theorem Level.receive (level : Level sim) (safe : ControlCommand ℝ) :
    Level (sim.transmit safe).receive ∧ ∀ i, ((sim.transmit safe).receive.drone.motors i) =
      (sim.drone.motors i).apply (sim.command safe) := by
  obtain ⟨ring, intact, fixture⟩ := level.receive_transmit safe
  generalize (sim.transmit safe).receive = received at ring intact fixture ⊢
  obtain ⟨received, can⟩ := received
  dsimp only at ring intact fixture
  subst fixture
  refine ⟨⟨level.handle, level.body, level.down, fun i => (level.rotors i).apply rfl, ?_,
    ⟨ring, intact⟩, level.pose, level.facing, level.gyro⟩, fun _ => rfl⟩
  intro i
  exact congrArg (·.apply (sim.command safe)) (level.alike i)

/-- A tick does not panic, the vehicle stays level, and its motors have got the throttle. -/
theorem Level.tick (level : Level sim) (safe : ControlCommand ℝ) :
    ∃ target, sim.tick safe = some target ∧ Level target ∧
      ∀ i, (target.drone.motors i).lastCmd = sim.command safe := by
  obtain ⟨received, commanded⟩ := level.receive safe
  obtain ⟨fixture, flown, motors, after⟩ := received.fly
  refine ⟨{ (sim.transmit safe).receive with toFixture := fixture }, ?_, after, ?_⟩
  · rw [SimState.tick]
    exact congrArg (Option.map _) flown
  · intro i
    change (fixture.drone.motors i).lastCmd = _
    rw [motors]
    exact congrArg (·.lastCmd) (commanded i)

end Ticks

/-- A vehicle in level flight; there is no other. -/
abbrev Vehicle : Type := { sim : SimState ℝ ℝ // Level sim }

namespace Vehicle

noncomputable def fresh : Vehicle := ⟨.new, level_new⟩

/-- One step under a command, which a vehicle in level flight survives. -/
noncomputable def tick (vehicle : Vehicle) (safe : ControlCommand ℝ) : Vehicle :=
  ⟨(vehicle.1.tick safe).get (by
      obtain ⟨target, ticked, -⟩ := vehicle.2.tick safe
      simp [ticked]), by
    obtain ⟨target, ticked, level, -⟩ := vehicle.2.tick safe
    simpa [ticked] using level⟩

theorem tick_spec (vehicle : Vehicle) (safe : ControlCommand ℝ) :
    vehicle.1.tick safe = some (vehicle.tick safe).1 ∧
      ∀ i, ((vehicle.tick safe).1.drone.motors i).lastCmd = vehicle.1.command safe := by
  obtain ⟨target, ticked, -, commanded⟩ := vehicle.2.tick safe
  have value : (vehicle.tick safe).1 = target := by simp [tick, ticked]
  rw [value]
  exact ⟨ticked, commanded⟩

end Vehicle

end Teleop.Integration
