import Mathlib.Analysis.SpecificLimits.Basic
import Mathlib.Data.UInt
import Teleop.Hal.SimRotations
import Teleop.Lib.Smoothing

/-!
# The simulated motor

A first-order lag of the rotor towards its setpoint, and a winding that warms with the load and
cools to the ambient temperature.  Over the reals the rotor settles geometrically at the
setpoint without overshooting it, and the thrust at the commanded fraction.
-/

namespace Teleop.Hal

open Teleop.Lib Teleop.Lib.FloatOps

inductive MotorMode where
  | idle
  | speed
  | thrust
  deriving DecidableEq, Repr

def MotorMode.asU8 : MotorMode → UInt8
  | .idle => 0
  | .speed => 1
  | .thrust => 2

/-- Inverse mapping; `none` on corrupt values. -/
def MotorMode.fromU8 (v : UInt8) : Option MotorMode :=
  if v = 0 then some .idle
  else if v = 1 then some .speed
  else if v = 2 then some .thrust
  else none

@[simp] theorem MotorMode.fromU8_asU8 (mode : MotorMode) : fromU8 mode.asU8 = some mode := by
  cases mode <;> rfl

/-- Command sent to one motor; `mode` is the discriminant of a `MotorMode`. -/
structure MotorCommand (S : Type) where
  seq : UInt64
  timestampNs : UInt64
  mode : UInt8
  reserved : Vector UInt8 3
  value : S

/-- Read-back state from one motor. -/
structure MotorTelemetry (S : Type) where
  seq : UInt64
  timestampNs : UInt64
  rpm : S
  tempC : S
  volts : S
  errors : UInt32

/-- One simulated channel. -/
structure SimMotor (S : Type) where
  lastCmd : MotorCommand S
  omega : S
  tempC : S
  volts : S
  steps : UInt64

section Definitions

variable {S : Type} [FloatOps S] [FloatTrig S]

/-- Rated no-load rotor speed, in rad/s. -/
def maxRotorSpeed : S := ofRat 300

/-- Time constant of the rotor, in seconds. -/
def tauS : S := ofRat 0.15

def ambientC : S := ofRat 25

def MotorCommand.idle (seq timestampNs : UInt64) : MotorCommand S where
  seq := seq
  timestampNs := timestampNs
  mode := MotorMode.idle.asU8
  reserved := .replicate 3 0
  value := 0

/-- The speed a command asks for; that of a thrust is the root of it, since thrust grows with
the square of the speed. -/
def MotorCommand.target (cmd : MotorCommand S) : S :=
  match MotorMode.fromU8 cmd.mode with
  | some .speed => clamp cmd.value (-maxRotorSpeed) maxRotorSpeed
  | some .thrust => FloatTrig.sqrt (clamp cmd.value 0 (ofRat 1)) * maxRotorSpeed
  | some .idle | none => 0

namespace SimMotor

/-- At rest, at ambient temperature. -/
def new (volts : S) : SimMotor S where
  lastCmd := .idle 0 0
  omega := 0
  tempC := ambientC
  volts := volts
  steps := 0

/-- The part of the way to the setpoint that one step covers. -/
def alpha (dtS : S) : S := FloatOps.min (dtS / tauS) (ofRat 1)

def tick (motor : SimMotor S) (dtS : S) : SimMotor S :=
  let omega := motor.omega + (motor.lastCmd.target - motor.omega) * alpha dtS
  let heat := FloatOps.abs omega / maxRotorSpeed * ofRat 30 - (motor.tempC - ambientC)
  { motor with
    omega := omega
    tempC := motor.tempC + heat * alpha dtS * ofRat 0.1
    steps := motor.steps + 1 }

/-- Thrust as a fraction of the rated one. -/
def normalizedThrust (motor : SimMotor S) : S :=
  let x := motor.omega / maxRotorSpeed
  x * x

def apply (motor : SimMotor S) (cmd : MotorCommand S) : SimMotor S := { motor with lastCmd := cmd }

def read (motor : SimMotor S) : MotorTelemetry S where
  seq := motor.lastCmd.seq
  timestampNs := motor.lastCmd.timestampNs + motor.steps * 5000000
  rpm := motor.omega
  tempC := motor.tempC
  volts := motor.volts
  errors := 0

end SimMotor

inductive MotorAction (S : Type) where
  | apply (cmd : MotorCommand S)
  | tick (dtS : S)

def SimMotor.next (motor : SimMotor S) : MotorAction S → SimMotor S
  | .apply cmd => motor.apply cmd
  | .tick dtS => motor.tick dtS

end Definitions

/-- Time does not run backwards. -/
def MotorAction.Forward : MotorAction ℝ → Prop
  | .apply _ => True
  | .tick dtS => 0 ≤ dtS

namespace SimMotor

/-- Motors from their creation on, with commands and ticks of any length. -/
noncomputable def system : TransitionSystem (SimMotor ℝ) (MotorAction ℝ) :=
  (TransitionSystem.ofTotal (fun motor => ∃ volts, motor = new volts) next).restrict
    fun _ action => action.Forward

section Setpoint

theorem alpha_real (dtS : ℝ) : alpha dtS = Min.min (dtS / 0.15) 1 := by
  simp [alpha, tauS]

theorem alpha_nonneg {dtS : ℝ} (forward : 0 ≤ dtS) : 0 ≤ alpha dtS := by
  rw [alpha_real]
  exact le_min (div_nonneg forward (by norm_num)) zero_le_one

theorem alpha_le_one (dtS : ℝ) : alpha dtS ≤ 1 := by
  rw [alpha_real]
  exact min_le_right _ _

theorem alpha_pos {dtS : ℝ} (forward : 0 < dtS) : 0 < alpha dtS := by
  rw [alpha_real]
  exact lt_min (div_pos forward (by norm_num)) one_pos

/-- A thrust asks for a speed that yields it. -/
theorem target_of_thrust {cmd : MotorCommand ℝ} (mode : cmd.mode = MotorMode.thrust.asU8) :
    cmd.target = √(clamp cmd.value 0 1) * 300 := by
  unfold MotorCommand.target
  rw [mode, MotorMode.fromU8_asU8]
  simp [maxRotorSpeed, FloatTrig.sqrt]

theorem target_nonneg_of_thrust {cmd : MotorCommand ℝ} (mode : cmd.mode = MotorMode.thrust.asU8) :
    0 ≤ cmd.target := by
  rw [target_of_thrust mode]
  exact mul_nonneg (Real.sqrt_nonneg _) (by norm_num)

/-- No command asks for more than the rated speed. -/
theorem abs_target_le (cmd : MotorCommand ℝ) : |cmd.target| ≤ 300 := by
  cases decoded : MotorMode.fromU8 cmd.mode with
  | none => simp [MotorCommand.target, decoded]
  | some mode =>
      cases mode with
      | idle => simp [MotorCommand.target, decoded]
      | speed =>
          have bound : (maxRotorSpeed : ℝ) = 300 := by simp [maxRotorSpeed]
          simp only [MotorCommand.target, decoded, bound]
          exact (abs_clamp_le (by norm_num) cmd.value).1
      | thrust =>
          have unit := clamp_unit_mem cmd.value
          have root : √(clamp cmd.value 0 1) ≤ 1 := Real.sqrt_le_one.mpr unit.2
          have value : cmd.target = √(clamp cmd.value 0 1) * 300 := by
            simp [MotorCommand.target, decoded, maxRotorSpeed, FloatTrig.sqrt]
          rw [value, abs_of_nonneg (mul_nonneg (Real.sqrt_nonneg _) (by norm_num))]
          linarith

end Setpoint

/-- What a simulated channel can be: inside the rated speed, between the ambient temperature and
that of full load, with a thrust that is a fraction. -/
structure Sound (motor : SimMotor ℝ) : Prop where
  speed : -300 ≤ motor.omega ∧ motor.omega ≤ 300
  temperature : 25 ≤ motor.tempC ∧ motor.tempC ≤ 55
  thrust : 0 ≤ motor.normalizedThrust ∧ motor.normalizedThrust ≤ 1

section Dynamics

variable {motor : SimMotor ℝ}

/-- The winding is smoothed, ten times slower, towards the temperature of its load. -/
theorem tempC_tick (motor : SimMotor ℝ) (dtS : ℝ) :
    (motor.tick dtS).tempC =
      smooth motor.tempC (25 + |(motor.tick dtS).omega| / 10) (alpha dtS / 10) := by
  have load : (motor.tick dtS).tempC = motor.tempC +
      (|(motor.tick dtS).omega| / 300 * 30 - (motor.tempC - 25)) * alpha dtS * 0.1 := by
    simp [tick, maxRotorSpeed, ambientC]
  rw [load, smooth]
  ring

theorem thrust_of_speed (speed : -300 ≤ motor.omega ∧ motor.omega ≤ 300) :
    0 ≤ motor.normalizedThrust ∧ motor.normalizedThrust ≤ 1 := by
  have fraction : motor.normalizedThrust = motor.omega / 300 * (motor.omega / 300) := by
    simp [normalizedThrust, maxRotorSpeed]
  rw [fraction]
  refine ⟨mul_self_nonneg _, ?_⟩
  have bound : |motor.omega / 300| ≤ 1 := by
    rw [abs_div, abs_of_pos (show (0 : ℝ) < 300 by norm_num), div_le_one (by norm_num)]
    exact abs_le.mpr speed
  rw [← abs_mul_abs_self]
  exact mul_le_one₀ bound (abs_nonneg _) bound

theorem sound_new (volts : ℝ) : (new volts).Sound where
  speed := by simp [new]
  temperature := by norm_num [new, ambientC]
  thrust := by simp [new, normalizedThrust]

theorem Sound.tick (sound : motor.Sound) {dtS : ℝ} (forward : 0 ≤ dtS) :
    (motor.tick dtS).Sound := by
  have setpoint := abs_le.mp (abs_target_le motor.lastCmd)
  have speed : -300 ≤ (motor.tick dtS).omega ∧ (motor.tick dtS).omega ≤ 300 :=
    smooth_mem (alpha_nonneg forward) (alpha_le_one dtS) sound.speed setpoint
  refine ⟨speed, ?_, thrust_of_speed speed⟩
  have load := abs_le.mpr speed
  have nonneg := abs_nonneg (motor.tick dtS).omega
  have part := alpha_nonneg forward
  have most := alpha_le_one dtS
  rw [tempC_tick]
  apply smooth_mem
  · linarith
  · linarith
  · exact sound.temperature
  · constructor <;> linarith

theorem Sound.apply (sound : motor.Sound) (cmd : MotorCommand ℝ) : (motor.apply cmd).Sound :=
  ⟨sound.speed, sound.temperature, sound.thrust⟩

theorem Sound.next (sound : motor.Sound) {action : MotorAction ℝ}
    (forward : action.Forward) : (motor.next action).Sound := by
  cases action with
  | apply cmd => exact sound.apply cmd
  | tick dtS => exact sound.tick forward

theorem sound_of_reachable (reached : system.Reachable motor) : motor.Sound := by
  apply reached.invariant
  · rintro _ ⟨volts, rfl⟩
    exact sound_new volts
  · rintro motor action _ sound ⟨forward, rfl⟩
    exact sound.next forward

/-- Ticks of the given lengths. -/
noncomputable def advance (motor : SimMotor ℝ) (steps : List ℝ) : SimMotor ℝ :=
  steps.foldl tick motor

theorem advance_spec (motor : SimMotor ℝ) (steps : List ℝ) :
    (motor.advance steps).lastCmd = motor.lastCmd ∧
      (motor.advance steps).omega =
        settle motor.omega motor.lastCmd.target (steps.map alpha) := by
  induction steps generalizing motor with
  | nil => exact ⟨rfl, rfl⟩
  | cons dtS rest inductionHypothesis =>
      obtain ⟨command, speed⟩ := inductionHypothesis (motor.tick dtS)
      exact ⟨command, speed⟩

end Dynamics

/-- What follows on a command: the distance to the setpoint shrinks by what each tick covers,
from the same side, and under a thrust command the thrust settles at the commanded fraction. -/
structure Settles (motor : SimMotor ℝ) (cmd : MotorCommand ℝ) : Prop where
  distance : ∀ steps : List ℝ,
    ((motor.apply cmd).advance steps).omega - cmd.target =
      (steps.map fun dtS => 1 - Min.min (dtS / 0.15) 1).prod * (motor.omega - cmd.target)
  steady : cmd.mode = MotorMode.thrust.asU8 → ∀ dtS : ℝ, 0 < dtS →
    Filter.Tendsto (fun n => ((motor.apply cmd).advance (List.replicate n dtS)).normalizedThrust)
      Filter.atTop (nhds (clamp cmd.value 0 1))

section Settling

variable (motor : SimMotor ℝ) (cmd : MotorCommand ℝ)

theorem omega_advance_sub (steps : List ℝ) :
    ((motor.apply cmd).advance steps).omega - cmd.target =
      (steps.map fun dtS => 1 - Min.min (dtS / 0.15) 1).prod * (motor.omega - cmd.target) := by
  have parts : (steps.map alpha).map (1 - ·) = steps.map fun dtS => 1 - Min.min (dtS / 0.15) 1 := by
    rw [List.map_map]
    apply List.map_congr_left
    intro dtS _
    exact congrArg (1 - ·) (alpha_real dtS)
  rw [(advance_spec (motor.apply cmd) steps).2, ← parts]
  exact settle_sub motor.omega cmd.target _

/-- Under ticks of one length the rotor settles at the setpoint. -/
theorem tendsto_omega {dtS : ℝ} (forward : 0 < dtS) :
    Filter.Tendsto (fun n => ((motor.apply cmd).advance (List.replicate n dtS)).omega)
      Filter.atTop (nhds cmd.target) := by
  have part := alpha_pos forward
  have most := alpha_le_one dtS
  rw [tendsto_iff_dist_tendsto_zero]
  have remaining (n : Nat) :
      dist ((motor.apply cmd).advance (List.replicate n dtS)).omega cmd.target =
        (1 - alpha dtS) ^ n * |motor.omega - cmd.target| := by
    rw [Real.dist_eq, (advance_spec (motor.apply cmd) _).2, List.map_replicate]
    exact abs_settle_replicate_sub _ _ most n
  simp only [remaining]
  have vanishes := tendsto_pow_atTop_nhds_zero_of_lt_one (r := 1 - alpha dtS) (by linarith)
    (by linarith)
  simpa using vanishes.mul_const |motor.omega - cmd.target|

/-- The thrust of a speed. -/
theorem thrust_target {cmd : MotorCommand ℝ} (mode : cmd.mode = MotorMode.thrust.asU8) :
    cmd.target / 300 * (cmd.target / 300) = clamp cmd.value 0 1 := by
  rw [target_of_thrust mode, mul_div_assoc, div_self (by norm_num), mul_one]
  exact Real.mul_self_sqrt (clamp_unit_mem cmd.value).1

theorem settles : motor.Settles cmd where
  distance := omega_advance_sub motor cmd
  steady mode dtS forward := by
    have fraction := (tendsto_omega motor cmd forward).div_const 300
    have square := fraction.mul fraction
    rw [thrust_target mode] at square
    refine square.congr ?_
    intro n
    simp [normalizedThrust, maxRotorSpeed]

end Settling

/-- In every run the channel stays sound, and from wherever a command finds it the rotor
settles at the setpoint. -/
theorem settles_of_reachable {motor : SimMotor ℝ} (reached : system.Reachable motor) :
    motor.Sound ∧ ∀ cmd, motor.Settles cmd :=
  ⟨sound_of_reachable reached, motor.settles⟩

/-- Full thrust for one time constant. -/
noncomputable def fullThrust : SimMotor ℝ :=
  [.apply ⟨1, 0, 2, .replicate 3 0, 1⟩, .tick 0.15].foldl next (new 16)

theorem settles_fullThrust : fullThrust.Sound ∧ ∀ cmd, fullThrust.Settles cmd := by
  have started : (TransitionSystem.restrict (.ofTotal (fun motor => ∃ volts, motor = new volts)
      next) fun _ action => MotorAction.Forward action).initial (new 16) := ⟨16, rfl⟩
  have reached : system.Reachable fullThrust := by
    refine ⟨new 16, [.apply ⟨1, 0, 2, .replicate 3 0, 1⟩, .tick 0.15], started, ?_⟩
    refine .cons ⟨trivial, rfl⟩ (.cons ⟨?_, rfl⟩ (.nil _))
    norm_num [MotorAction.Forward]
  exact settles_of_reachable reached

end SimMotor

end Teleop.Hal
