import Mathlib.Data.Fintype.Basic
import Mathlib.Data.UInt
import Teleop.Core.Mode

/-!
# The control command, telemetry packet and sensor samples of the wire
-/

namespace Teleop.Core

def magicCommand : UInt32 := 0x434D4401

/-- Operator or autonomy command; the axes are roll, pitch, yaw, throttle, lateral x and
lateral y, in any representation of `f32`. -/
structure ControlCommand (S : Type) where
  magic : UInt32
  version : UInt16
  reserved : UInt16
  seq : UInt64
  timestampNs : UInt64
  mode : UInt8
  flags : UInt8
  axisCount : UInt8
  pad0 : UInt8
  axes : Fin 6 → S
  crc : UInt32
  deriving DecidableEq

/-- Telemetry frame of eight values. -/
structure TelemetryPacket (S : Type) where
  magic : UInt32
  kind : UInt16
  reserved : UInt16
  seq : UInt64
  timestampNs : UInt64
  values : Fin 8 → S
  deriving DecidableEq

/-- 6-axis inertial sample. -/
structure ImuSample (S : Type) where
  magic : UInt32
  version : UInt16
  reserved : UInt16
  seq : UInt64
  timestampNs : UInt64
  gyroRps : Fin 3 → S
  accelG : Fin 3 → S
  deriving DecidableEq

/-- GNSS fix, in representations of `f32` and `f64`. -/
structure GpsSample (S D : Type) where
  magic : UInt32
  version : UInt16
  reserved : UInt16
  seq : UInt64
  timestampNs : UInt64
  latDeg : D
  lonDeg : D
  altM : D
  speedMps : S
  courseDeg : S
  sats : UInt32
  fixOk : UInt32
  deriving DecidableEq

def ImuSample.zeroed {S : Type} [Zero S] (seq timestampNs : UInt64) : ImuSample S where
  magic := 0x544C4D01
  version := 1
  reserved := 0
  seq := seq
  timestampNs := timestampNs
  gyroRps _ := 0
  accelG _ := 0

def GpsSample.zeroed {S D : Type} [Zero S] [Zero D] (seq timestampNs : UInt64) :
    GpsSample S D where
  magic := 0x544C4D02
  version := 1
  reserved := 0
  seq := seq
  timestampNs := timestampNs
  latDeg := 0
  lonDeg := 0
  altM := 0
  speedMps := 0
  courseDeg := 0
  sats := 0
  fixOk := 0

/-- A literal names each of the axes. -/
instance neZero_axes : NeZero 6 := ⟨by decide⟩

/-- A literal names each of the values of a telemetry frame and of the slots of a device. -/
instance neZero_values : NeZero 8 := ⟨by decide⟩

namespace ControlCommand

variable {S : Type}

/-- All-zero command with correct magic and version. -/
def zeroed [Zero S] (mode : Mode) : ControlCommand S where
  magic := magicCommand
  version := 1
  reserved := 0
  seq := 0
  timestampNs := 0
  mode := mode.asU8
  flags := 0
  axisCount := 6
  pad0 := 0
  axes _ := 0
  crc := 0

/-- The mode a command names; an unknown byte names none. -/
def getMode (cmd : ControlCommand S) : Option Mode := Mode.fromU8 cmd.mode

def setAxis (cmd : ControlCommand S) (axis : Fin 6) (value : S) : ControlCommand S :=
  { cmd with axes := fun k => if k = axis then value else cmd.axes k }

/-- `other` differs from `cmd` at most in its axes. -/
def SameHeader (cmd other : ControlCommand S) : Prop := other = { cmd with axes := other.axes }

theorem SameHeader.refl (cmd : ControlCommand S) : SameHeader cmd cmd := rfl

theorem SameHeader.trans {first second third : ControlCommand S}
    (left : SameHeader first second) (right : SameHeader second third) :
    SameHeader first third := by
  unfold SameHeader at left right ⊢
  rw [right, left]

theorem sameHeader_setAxis (cmd : ControlCommand S) (axis : Fin 6) (value : S) :
    SameHeader cmd (cmd.setAxis axis value) := rfl

theorem SameHeader.flags {cmd other : ControlCommand S} (same : SameHeader cmd other) :
    other.flags = cmd.flags := by
  rw [same]

/-- A loop whose passes only change axes only changes axes. -/
theorem sameHeader_foldl {State Item : Type} {f : State → ControlCommand S}
    {pass : State → Item → State} {items : List Item}
    (each : ∀ item ∈ items, ∀ state, SameHeader (f state) (f (pass state item)))
    (state : State) : SameHeader (f state) (f (items.foldl pass state)) := by
  induction items generalizing state with
  | nil => exact SameHeader.refl _
  | cons item rest inductionHypothesis =>
      have first := each item List.mem_cons_self state
      have others := inductionHypothesis fun later listed =>
        each later (List.mem_cons_of_mem item listed)
      exact first.trans (others (pass state item))

end ControlCommand

end Teleop.Core
