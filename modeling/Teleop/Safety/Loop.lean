import Teleop.Core.Machine
import Teleop.Safety.Stages

/-!
# The safety intercept loop

One tick drains the input ring, keeps the newest command, runs every stage on it and
pushes the result.  The mode machine and the rings are shared with others; within a
tick the loop runs alone.
-/

namespace Teleop.Safety

open Teleop.Core Teleop.Ring Teleop.Lib Teleop.Lib.FloatOps

variable {S D : Type} [FloatOps S] [FloatOps D] [FloatPair S D]

/-- Tunables for one loop instance. -/
structure SafetyConfig (S D : Type) where
  fence : GeoFence D
  limits : KinematicLimits S
  transitionS : S
  tickPeriodUs : UInt64
  maxLatencyNs : UInt64

def SafetyConfig.default : SafetyConfig S D where
  fence := .default
  limits := .default
  transitionS := ofRat 1
  tickPeriodUs := 5000
  maxLatencyNs := 50000000

/-- Commands drained from the input ring in one tick. -/
structure InterceptStats where
  drained : Nat
  deriving DecidableEq, Repr

structure SafetyLoop (S D : Type) where
  input : SpscRing (ControlCommand S)
  output : SpscRing (ControlCommand S)
  machine : StateMachine
  cfg : SafetyConfig S D
  authority : S
  blend : Option (AuthorityBlend S)
  latency : LatencyCompensator D
  baseline : ControlCommand S
  lastOut : ControlCommand S
  pose : Pose6D S D
  estopLatched : Bool
  droppedOut : UInt64
  veto : VetoGate S
  prevZ : D
  havePrevZ : Bool
  vzEst : D
  brakeLatched : Bool

namespace SafetyLoop

def new (input output : SpscRing (ControlCommand S)) (machine : StateMachine)
    (cfg : SafetyConfig S D) : SafetyLoop S D where
  input := input
  output := output
  machine := machine
  cfg := cfg
  authority := authorityTarget machine.current
  blend := none
  latency := .new (ofRat 0.2) cfg.maxLatencyNs
  baseline := .zeroed .auto
  lastOut := .zeroed machine.current
  pose := .default
  estopLatched := false
  droppedOut := 0
  veto := .new
  prevZ := 0
  havePrevZ := false
  vzEst := 0
  brakeLatched := false

/-- Feeds the freshest pose and maintains the vertical-speed estimate. -/
def setPose (loop : SafetyLoop S D) (pose : Pose6D S D) : SafetyLoop S D :=
  let dtS : D := ofRat loop.cfg.tickPeriodUs.toNat / ofRat 1e6
  { loop with
    vzEst := if loop.havePrevZ && lt 0 dtS then (pose.z - loop.prevZ) / dtS else loop.vzEst
    prevZ := pose.z
    havePrevZ := true
    pose := pose }

def setAutonomyBaseline (loop : SafetyLoop S D) (cmd : ControlCommand S) : SafetyLoop S D :=
  { loop with baseline := cmd }

/-- Requests a mode change and starts a blend toward its authority target; a refused
transition changes nothing. -/
def requestMode (loop : SafetyLoop S D) (mode : Mode) (atUnixNs : UInt64) :
    SafetyLoop S D × Except ModeError Unit :=
  match loop.machine.tryTransition mode atUnixNs with
  | (machine, .error refused) => ({ loop with machine }, .error refused)
  | (machine, .ok _) =>
      let target : S := authorityTarget mode
      ({ loop with
          machine
          blend :=
            if lt (ofRat 1e-6) (FloatOps.abs (target - loop.authority)) then
              some (.new loop.authority target loop.cfg.transitionS)
            else loop.blend },
        .ok ())

/-- Latches the emergency stop. -/
def emergencyStop (loop : SafetyLoop S D) (atUnixNs : UInt64) : SafetyLoop S D :=
  { loop with
    estopLatched := true
    machine := (loop.machine.forceEmergencyStop atUnixNs).1 }

def engageAiVeto (loop : SafetyLoop S D) (maxTranslationalNorm : S) : SafetyLoop S D :=
  { loop with veto := loop.veto.engage maxTranslationalNorm }

def disengageAiVeto (loop : SafetyLoop S D) : SafetyLoop S D :=
  { loop with veto := loop.veto.disengage }

/-- Moves a running blend on by one tick period. -/
def advanceBlend (loop : SafetyLoop S D) : SafetyLoop S D :=
  match loop.blend with
  | none => loop
  | some blend =>
      let (blend, authority) := blend.advance D (ofRat loop.cfg.tickPeriodUs.toNat / ofRat 1e6)
      { loop with blend := some blend, authority }

/-- Mixes the autonomy baseline into the command by the authority weight. -/
def mixAuthority (loop : SafetyLoop S D) (cmd : ControlCommand S) : ControlCommand S :=
  if lt loop.authority (ofRat 0.9999) then
    { cmd with
      axes := fun k =>
        loop.baseline.axes k * (ofRat 1 - loop.authority) + cmd.axes k * loop.authority
      mode := if le (ofRat 0.5) loop.authority then cmd.mode else loop.baseline.mode }
  else cmd

/-- Stage 3: project the command into the fence; a hard breach latches the stop. -/
def projectFence (loop : SafetyLoop S D) (cmd : ControlCommand S) (atUnixNs : UInt64) :
    SafetyLoop S D × ControlCommand S :=
  let verdict := loop.cfg.fence.evaluate loop.pose
  if verdict ≠ .inside then
    (if verdict = .hardBreach ∧ loop.estopLatched = false then loop.emergencyStop atUnixNs
      else loop,
      loop.cfg.fence.clampCommand loop.pose verdict cmd)
  else (loop, cmd)

/-- Stage 4b: the predictive vertical brake with its hysteresis. -/
def brake (loop : SafetyLoop S D) (cmd : ControlCommand S) :
    SafetyLoop S D × ControlCommand S :=
  let v := loop.vzEst
  let stopDist := v * v / (ofRat 2 * ofRat 3.45) + v * ofRat 0.15
  let overshoot := le loop.cfg.fence.maxAltM (loop.pose.z + stopDist)
  let triggered := loop.brakeLatched || overshoot
  let released := le v (ofRat 0.5) && le loop.pose.z (loop.cfg.fence.maxAltM * ofRat 0.9)
  let latched := triggered && !released
  let cmd :=
    if latched && lt (ofRat 0.3) (cmd.axes throttle) then cmd.setAxis throttle (ofRat 0.3)
    else cmd
  let cmd :=
    if overshoot && lt throttleNeutral (cmd.axes throttle) then cmd.setAxis throttle (ofRat 0.3)
    else cmd
  ({ loop with brakeLatched := latched }, cmd)

/-- Stages 1 to 2b: latency compensation, authority blend and AI veto. -/
def prepare (loop : SafetyLoop S D) (cmd : ControlCommand S) (nowNs : UInt64) :
    SafetyLoop S D × ControlCommand S :=
  let loop := { loop with latency := (loop.latency.observe nowNs cmd.timestampNs).1 }
  let cmd := loop.latency.compensate cmd
  let loop := loop.advanceBlend
  let cmd := loop.mixAuthority cmd
  (loop, (loop.veto.apply cmd).1)

/-- Stages 4 and 4b: the kinematic limits against the last accepted command, then the
brake. -/
def limit (loop : SafetyLoop S D) (cmd : ControlCommand S) : SafetyLoop S D × ControlCommand S :=
  loop.brake (loop.cfg.limits.apply loop.lastOut cmd).1

/-- All stages on the newest command, the emergency override last; the result becomes the
last accepted command. -/
def intercept (loop : SafetyLoop S D) (cmd : ControlCommand S) (nowNs atUnixNs : UInt64) :
    SafetyLoop S D × ControlCommand S :=
  let (loop, cmd) := loop.prepare cmd nowNs
  let (loop, cmd) := loop.projectFence cmd atUnixNs
  let (loop, cmd) := loop.limit cmd
  let cmd := if loop.estopLatched then writeEmergencyStop cmd.seq nowNs else cmd
  ({ loop with lastOut := cmd }, cmd)

/-- The part of a tick before the push: the loop after it, the command it is about to push
and the number of commands drained; `none` on an idle tick. -/
def handle (loop : SafetyLoop S D) (nowNs atUnixNs : UInt64) :
    Option (SafetyLoop S D × ControlCommand S × Nat) :=
  let loop := loop.advanceBlend
  let (drained, input) := loop.input.drain
  match drained.getLast? with
  | none => none
  | some newest =>
      let (loop, cmd) := { loop with input }.intercept newest nowNs atUnixNs
      some (loop, cmd, drained.length)

/-- Whether a tick stops the thread: on a command it applies the configured limits.  The other
bounds that it clamps between are literals, or at least 0.01 each way. -/
def panics (loop : SafetyLoop S D) : Bool :=
  !loop.input.items.isEmpty && loop.cfg.limits.panics

/-- A command that is processed is the newest one, through the loop as it is after the drain. -/
theorem handle_eq_some {loop after : SafetyLoop S D} {nowNs atUnixNs : UInt64}
    {cmd : ControlCommand S} {drained : Nat}
    (handled : loop.handle nowNs atUnixNs = some (after, cmd, drained)) :
    ∃ newest, loop.advanceBlend.input.drain.1.getLast? = some newest ∧
      { loop.advanceBlend with input := loop.advanceBlend.input.drain.2 }.intercept newest nowNs
        atUnixNs = (after, cmd) := by
  unfold handle at handled
  dsimp only at handled
  split at handled
  · cases handled
  · rename_i newest found
    cases handled
    exact ⟨newest, found, rfl⟩

/-- One tick.  A full output ring drops the command and counts the drop. -/
def processOne (loop : SafetyLoop S D) (nowNs atUnixNs : UInt64) :
    SafetyLoop S D × InterceptStats :=
  match loop.handle nowNs atUnixNs with
  | none => (loop.advanceBlend, ⟨0⟩)
  | some (loop, cmd, drained) =>
      match loop.output.push cmd with
      | .ok output => ({ loop with output }, ⟨drained⟩)
      | .error _ => ({ loop with droppedOut := loop.droppedOut + 1 }, ⟨drained⟩)

end SafetyLoop

end Teleop.Safety
