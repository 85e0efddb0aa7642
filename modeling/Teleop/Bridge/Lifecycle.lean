import Mathlib.Logic.Basic
import Teleop.Core.Mode

/-!
# The handover lifecycle of a domain

The states one domain session goes through between autonomy and teleoperation, the edges
between them, and the core mode each of them corresponds to.
-/

namespace Teleop.Bridge

open Teleop.Core

/-- Handover state of one domain session. -/
inductive HandoverState where
  | autonomous
  | requestingTeleop
  | teleopActive
  | returningToAutonomy
  | emergencyStop
  deriving DecidableEq, Repr

namespace HandoverState

def name : HandoverState → String
  | .autonomous => "AUTONOMOUS"
  | .requestingTeleop => "REQUESTING_TELEOP"
  | .teleopActive => "TELEOP_ACTIVE"
  | .returningToAutonomy => "RETURNING_TO_AUTONOMY"
  | .emergencyStop => "EMERGENCY_STOP"

/-- Whether the lifecycle permits `source → target`; the emergency stop is reachable from
everywhere. -/
def canTransitionTo (source target : HandoverState) : Bool :=
  if target = .emergencyStop then true
  else
    match source, target with
    | .autonomous, .requestingTeleop => true
    | .requestingTeleop, .autonomous => true
    | .requestingTeleop, .teleopActive => true
    | .teleopActive, .returningToAutonomy => true
    | .returningToAutonomy, .teleopActive => true
    | .returningToAutonomy, .autonomous => true
    | .emergencyStop, .returningToAutonomy => true
    | _, _ => false

/-- The core mode of a handover state: a pending request is still autonomous, the way back is
blended. -/
def toMode : HandoverState → Mode
  | .autonomous | .requestingTeleop => .auto
  | .returningToAutonomy => .assist
  | .teleopActive => .fullTeleop
  | .emergencyStop => .emergencyStop

end HandoverState

/-- Sixteen opaque bytes. -/
structure OperatorId where
  bytes : Vector UInt8 16
  deriving DecidableEq

inductive DomainError where
  | illegalTransition (source target : HandoverState)
  | notEngaged (state : HandoverState)
  | adapter (msg : String)
  deriving DecidableEq, Repr

def DomainError.display : DomainError → String
  | .illegalTransition source target =>
      "handover transition " ++ source.name ++ " -> " ++ target.name ++ " is not permitted"
  | .notEngaged state =>
      "control command rejected: session is " ++ state.name ++ ", not TELEOP_ACTIVE"
  | .adapter msg => "domain adapter error: " ++ msg

end Teleop.Bridge
