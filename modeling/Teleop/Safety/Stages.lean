import Teleop.Core.Command
import Teleop.Lib.FloatOps
import Teleop.Lib.Word

/-!
# The stages of the safety pipeline

Latency compensation, authority blending, the AI veto, the geofence, the kinematic
envelope and the emergency override, each a function on the command in flight.
`S` is the format of the axes and `D` the wide format of poses and delays.
-/

namespace Teleop.Safety

open Teleop.Core Teleop.Core.ControlCommand Teleop.Lib Teleop.Lib.FloatOps Teleop.Lib.FloatPair

def roll : Fin 6 := 0
def pitch : Fin 6 := 1
def yaw : Fin 6 := 2
def throttle : Fin 6 := 3
def latX : Fin 6 := 4
def latY : Fin 6 := 5

variable {S D : Type} [FloatOps S] [FloatOps D] [FloatPair S D]

/-- EWMA-based delay tracker with attenuation policy. -/
structure LatencyCompensator (D : Type) where
  ewmaNs : D
  alpha : D
  maxNs : D
  samples : UInt64

namespace LatencyCompensator

def new (alpha : D) (maxNs : UInt64) : LatencyCompensator D where
  ewmaNs := 0
  alpha := clamp alpha (ofRat 0.01) (ofRat 1)
  maxNs := ofRat (Nat.max maxNs.toNat 1)
  samples := 0

/-- Records one observation; returns the raw delay. -/
def observe (latency : LatencyCompensator D) (nowNs stampNs : UInt64) :
    LatencyCompensator D × UInt64 :=
  let delay := saturatingSub nowNs stampNs
  let d : D := ofRat delay.toNat
  ({ latency with
      ewmaNs :=
        if latency.samples = 0 then d
        else latency.ewmaNs * (ofRat 1 - latency.alpha) + d * latency.alpha
      samples := latency.samples + 1 },
    delay)

/-- Confidence multiplier of the translational axes, down to a floor of 0.2. -/
def attenuation (latency : LatencyCompensator D) : S :=
  if le latency.ewmaNs 0 then ofRat 1
  else
    let conf : D := ofRat 1 - FloatOps.min (latency.ewmaNs / latency.maxNs) (ofRat 1) * ofRat 0.8
    narrow conf

def compensate (latency : LatencyCompensator D) (cmd : ControlCommand S) : ControlCommand S :=
  let k : S := latency.attenuation
  if lt k (ofRat 1) then
    [roll, pitch, latX, latY].foldl (fun cmd axis => cmd.setAxis axis (cmd.axes axis * k)) cmd
  else cmd

theorem sameHeader_compensate (latency : LatencyCompensator D) (cmd : ControlCommand S) :
    cmd.SameHeader (latency.compensate cmd) := by
  unfold compensate
  dsimp only
  split
  · apply sameHeader_foldl (f := id)
    intro axis _ cmd
    exact sameHeader_setAxis ..
  · exact .refl cmd

end LatencyCompensator

/-- Quintic smootherstep. -/
def smootherstep (x : D) : D :=
  let x := clamp x 0 (ofRat 1)
  x * x * x * (x * (x * ofRat 6 - ofRat 15) + ofRat 10)

/-- Target authority fraction of each mode. -/
def authorityTarget : Mode → S
  | .auto => 0
  | .assist => ofRat 0.5
  | .fullTeleop => ofRat 1
  | .emergencyStop => 0

/-- Animated authority blend from one target to another. -/
structure AuthorityBlend (S : Type) where
  fromWeight : S
  toWeight : S
  durationS : S
  elapsedS : S

namespace AuthorityBlend

def new (fromWeight toWeight durationS : S) : AuthorityBlend S where
  fromWeight := fromWeight
  toWeight := toWeight
  durationS := FloatOps.max durationS (ofRat 0.001)
  elapsedS := 0

variable (D) in
/-- Current weight without advancing. -/
def weight (blend : AuthorityBlend S) : S :=
  let s : S := narrow (smootherstep (widen blend.elapsedS / widen blend.durationS : D))
  blend.fromWeight + (blend.toWeight - blend.fromWeight) * s

variable (D) in
/-- Advances time; returns the current authority weight. -/
def advance (blend : AuthorityBlend S) (dtS : S) : AuthorityBlend S × S :=
  let blend := { blend with elapsedS := FloatOps.min (blend.elapsedS + dtS) blend.durationS }
  (blend, blend.weight D)

end AuthorityBlend

/-- Lock-free AI-veto gate: the flag and the translational cap. -/
structure VetoGate (S : Type) where
  active : Bool
  cap : S

namespace VetoGate

def new : VetoGate S := ⟨false, 0⟩

def engage (_ : VetoGate S) (maxTranslationalNorm : S) : VetoGate S :=
  ⟨true, clamp maxTranslationalNorm (ofRat 0.01) (ofRat 1)⟩

def disengage (gate : VetoGate S) : VetoGate S := { gate with active := false }

/-- Clamps the translational axes; returns whether anything changed. -/
def apply (gate : VetoGate S) (cmd : ControlCommand S) : ControlCommand S × Bool :=
  if !gate.active then (cmd, false)
  else
    let cap := FloatOps.max gate.cap (ofRat 0.01)
    [roll, pitch, latX, latY].foldl
      (fun (cmd, touched) axis =>
        let before := cmd.axes axis
        let after := clamp before (-cap) cap
        if !eq after before then (cmd.setAxis axis after, true) else (cmd, touched))
      (cmd, false)

theorem sameHeader_apply (gate : VetoGate S) (cmd : ControlCommand S) :
    cmd.SameHeader (gate.apply cmd).1 := by
  unfold apply
  dsimp only
  split
  · exact .refl cmd
  · apply sameHeader_foldl (f := Prod.fst)
    rintro axis _ ⟨cmd, touched⟩
    dsimp only
    split
    · exact sameHeader_setAxis ..
    · exact .refl cmd

end VetoGate

/-- 6-DOF pose: metres and radians. -/
structure Pose6D (S D : Type) where
  x : D
  y : D
  z : D
  yaw : S
  pitch : S
  roll : S
  reserved : UInt32

def Pose6D.default : Pose6D S D := ⟨0, 0, 0, 0, 0, 0, 0⟩

def throttleNeutral : S := ofRat 0.5

/-- Cylindrical keep-in geofence. -/
structure GeoFence (D : Type) where
  centerEastM : D
  centerNorthM : D
  radiusM : D
  minAltM : D
  maxAltM : D

def GeoFence.default : GeoFence D := ⟨0, 0, ofRat 500, 0, ofRat 120⟩

inductive FenceVerdict where
  | inside
  | softWarn
  | hardBreach
  deriving DecidableEq, Repr

namespace GeoFence

/-- Horizontal distance from the fence centre. -/
def horizontalDist (fence : GeoFence D) (pose : Pose6D S D) : D :=
  hypot S (pose.x - fence.centerEastM) (pose.y - fence.centerNorthM)

/-- Classifies a pose; the soft band is the outer 5 % of the radius and of the ceiling. -/
def evaluate (fence : GeoFence D) (pose : Pose6D S D) : FenceVerdict :=
  let d := fence.horizontalDist pose
  let softR := fence.radiusM * ofRat 0.95
  let softHi := fence.maxAltM * ofRat 0.95
  if lt fence.radiusM d || lt fence.maxAltM pose.z || lt pose.z fence.minAltM then .hardBreach
  else if lt softR d || lt softHi pose.z then .softWarn
  else .inside

/-- Removes the outward part of one axis along a unit component `u`. -/
def suppress (severity : D) (cmd : ControlCommand S) (axis : Fin 6) (u : D) :
    ControlCommand S :=
  let outward : D := widen (cmd.axes axis) * u
  if lt 0 outward then
    cmd.setAxis axis (cmd.axes axis - narrow (outward * severity * u))
  else cmd

/-- How much of the outward motion is removed at distance `dist` from the centre. -/
def severity (fence : GeoFence D) (verdict : FenceVerdict) (dist : D) : D :=
  if verdict = .hardBreach then ofRat 1
  else clamp ((dist - fence.radiusM * ofRat 0.95) / (fence.radiusM * ofRat 0.05)) 0 (ofRat 1)

/-- The horizontal half of `clamp_command`. -/
def clampHorizontal (fence : GeoFence D) (pose : Pose6D S D) (verdict : FenceVerdict)
    (cmd : ControlCommand S) : ControlCommand S :=
  let dx := pose.x - fence.centerEastM
  let dy := pose.y - fence.centerNorthM
  let dist := hypot S dx dy
  if lt (ofRat 1e-9) dist && lt 0 (fence.severity verdict dist) then
    [(latX, dx / dist), (latY, dy / dist), (roll, dx / dist), (pitch, dy / dist)].foldl
      (fun cmd (axis, u) => suppress (fence.severity verdict dist) cmd axis u) cmd
  else cmd

/-- Pins the throttle to hover-neutral. -/
def neutralThrottle (when : Bool) (cmd : ControlCommand S) : ControlCommand S :=
  if when then cmd.setAxis throttle throttleNeutral else cmd

/-- Suppresses the components that push the vehicle further outside. -/
def clampCommand (fence : GeoFence D) (pose : Pose6D S D) (verdict : FenceVerdict)
    (cmd : ControlCommand S) : ControlCommand S :=
  let cmd := fence.clampHorizontal pose verdict cmd
  let cmd := neutralThrottle
    (le (fence.maxAltM * ofRat 0.95) pose.z && lt throttleNeutral (cmd.axes throttle)) cmd
  neutralThrottle (le pose.z fence.minAltM && lt (cmd.axes throttle) throttleNeutral) cmd

theorem sameHeader_suppress (severity : D) (cmd : ControlCommand S) (axis : Fin 6) (u : D) :
    cmd.SameHeader (suppress severity cmd axis u) := by
  unfold suppress
  dsimp only
  split
  · exact sameHeader_setAxis ..
  · exact .refl cmd

theorem sameHeader_clampHorizontal (fence : GeoFence D) (pose : Pose6D S D)
    (verdict : FenceVerdict) (cmd : ControlCommand S) :
    cmd.SameHeader (fence.clampHorizontal pose verdict cmd) := by
  unfold clampHorizontal
  dsimp only
  split
  · apply sameHeader_foldl (f := id)
    rintro ⟨axis, u⟩ _ cmd
    exact sameHeader_suppress ..
  · exact .refl cmd

theorem sameHeader_neutralThrottle (when : Bool) (cmd : ControlCommand S) :
    cmd.SameHeader (neutralThrottle when cmd) := by
  cases when with
  | false => exact .refl cmd
  | true => exact sameHeader_setAxis ..

theorem sameHeader_clampCommand (fence : GeoFence D) (pose : Pose6D S D)
    (verdict : FenceVerdict) (cmd : ControlCommand S) :
    cmd.SameHeader (fence.clampCommand pose verdict cmd) := by
  apply SameHeader.trans (sameHeader_clampHorizontal fence pose verdict cmd)
  apply SameHeader.trans (sameHeader_neutralThrottle _ _)
  exact sameHeader_neutralThrottle _ _

end GeoFence

/-- Kinematic envelope applied to every command. -/
structure KinematicLimits (S : Type) where
  maxTiltNorm : S
  maxYawNorm : S
  maxLateralNorm : S
  maxAxisStep : S
  maxThrottleStep : S

def KinematicLimits.default : KinematicLimits S :=
  ⟨ofRat 0.35, ofRat 0.5, ofRat 0.8, ofRat 0.02, ofRat 0.01⟩

namespace KinematicLimits

/-- Whether the limits stop the thread when they are applied: each is the bound of a `clamp`. -/
def panics (limits : KinematicLimits S) : Bool :=
  [limits.maxTiltNorm, limits.maxYawNorm, limits.maxLateralNorm, limits.maxAxisStep,
    limits.maxThrottleStep].any fun bound => clampPanics (-bound) bound

def clampAbs (limit : S) (axis : Fin 6) (cmd : ControlCommand S) : ControlCommand S × Bool :=
  let before := cmd.axes axis
  let cmd := cmd.setAxis axis (clamp before (-limit) limit)
  (cmd, !eq before (cmd.axes axis))

def slew (prev : ControlCommand S) (maxStep : S) (axis : Fin 6) (cmd : ControlCommand S) :
    ControlCommand S × Bool :=
  let target := cmd.axes axis
  let last := prev.axes axis
  let delta := clamp (target - last) (-maxStep) maxStep
  let limited := last + delta
  (cmd.setAxis axis limited, !eq limited target)

/-- `touched |= stage(cmd)` for each stage in turn. -/
def touchAll (stages : List (ControlCommand S → ControlCommand S × Bool))
    (cmd : ControlCommand S) : ControlCommand S × Bool :=
  stages.foldl (fun state stage => ((stage state.1).1, state.2 || (stage state.1).2)) (cmd, false)

def clamps (limits : KinematicLimits S) : List (ControlCommand S → ControlCommand S × Bool) :=
  [clampAbs limits.maxTiltNorm roll, clampAbs limits.maxTiltNorm pitch,
    clampAbs limits.maxYawNorm yaw, clampAbs limits.maxLateralNorm latX,
    clampAbs limits.maxLateralNorm latY]

def slews (limits : KinematicLimits S) (prev : ControlCommand S) :
    List (ControlCommand S → ControlCommand S × Bool) :=
  [slew prev limits.maxAxisStep roll, slew prev limits.maxAxisStep pitch,
    slew prev limits.maxAxisStep yaw, slew prev limits.maxAxisStep latX,
    slew prev limits.maxAxisStep latY, slew prev limits.maxThrottleStep throttle]

/-- Clamps the absolutes, then slews each axis from the last accepted command; returns
whether any limited component was modified. -/
def apply (limits : KinematicLimits S) (prev cmd : ControlCommand S) :
    ControlCommand S × Bool :=
  let (cmd, clamped) := touchAll limits.clamps cmd
  let cmd := cmd.setAxis throttle (clamp (cmd.axes throttle) 0 (ofRat 1))
  let (cmd, slewed) := touchAll (limits.slews prev) cmd
  (cmd, clamped || slewed)

omit [FloatOps S] in
theorem sameHeader_touchAll {stages : List (ControlCommand S → ControlCommand S × Bool)}
    (each : ∀ stage ∈ stages, ∀ cmd, SameHeader cmd (stage cmd).1) (cmd : ControlCommand S) :
    cmd.SameHeader (touchAll stages cmd).1 := by
  apply sameHeader_foldl (f := Prod.fst)
  intro stage listed state
  exact each stage listed state.1

theorem sameHeader_apply (limits : KinematicLimits S) (prev cmd : ControlCommand S) :
    cmd.SameHeader (limits.apply prev cmd).1 := by
  have clampsOnlyAxes : ∀ stage ∈ limits.clamps, ∀ cmd, SameHeader cmd (stage cmd).1 := by
    intro stage listed cmd
    simp only [clamps, List.mem_cons, List.not_mem_nil, or_false] at listed
    rcases listed with rfl | rfl | rfl | rfl | rfl <;> exact sameHeader_setAxis ..
  have slewsOnlyAxes : ∀ stage ∈ limits.slews prev, ∀ cmd, SameHeader cmd (stage cmd).1 := by
    intro stage listed cmd
    simp only [slews, List.mem_cons, List.not_mem_nil, or_false] at listed
    rcases listed with rfl | rfl | rfl | rfl | rfl | rfl <;> exact sameHeader_setAxis ..
  apply SameHeader.trans (sameHeader_touchAll clampsOnlyAxes cmd)
  apply SameHeader.trans (sameHeader_setAxis _ throttle _)
  exact sameHeader_touchAll slewsOnlyAxes _

end KinematicLimits

/-- The latched safe state: axes neutral, mode forced to the emergency stop, flag bit 0
raised. -/
def writeEmergencyStop (seq timestampNs : UInt64) : ControlCommand S :=
  let cmd : ControlCommand S := .zeroed .emergencyStop
  { cmd with seq, timestampNs, flags := cmd.flags ||| 0b00000001 }

end Teleop.Safety
