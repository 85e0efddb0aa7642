import Teleop.Bridge.Lifecycle
import Teleop.Link.Crc

/-!
# The handover driver in front of a domain adapter

A session owns one adapter and calls it only in the order of the lifecycle.  The adapter
and the link to the operators are arbitrary states with the calls of their traits, so that
they may fail at any call; what the adapter reports of its domain is a parameter.
-/

namespace Teleop.Bridge

open Teleop.Core Teleop.Link

/-- Why a domain asks for an operator. -/
inductive AssistanceReason where
  | sensorFault
  | actuatorFault
  | geofenceViolation
  | degraded
  | other
  deriving DecidableEq, Repr

/-- The contract a domain adapter implements. -/
class DomainTeleopInterface (D : Type) (DomainState SensorFeed : outParam Type) where
  onTeleopEngage : D → OperatorId → D × Except DomainError Unit
  onTeleopDisengage : D → D × Except DomainError Unit
  onControlCommand : D → Command → D × Except DomainError Unit
  getDomainState : D → DomainState
  getSensorFeed : D → D × SensorFeed
  onEmergencyStop : D → D := id

/-- The way a request for an operator takes. -/
class TeleopLink (L : Type) where
  requestTeleopAssistance : L → AssistanceReason → L × Except DomainError Unit

structure DomainSession (D : Type) where
  adapter : D
  state : HandoverState
  operator : Option OperatorId

namespace DomainSession

variable {D : Type}

def new (adapter : D) : DomainSession D where
  adapter := adapter
  state := .autonomous
  operator := none

def mode (session : DomainSession D) : Mode := session.state.toMode

/-- Passes only in one of the states of `source`, along an edge of the lifecycle. -/
def check (session : DomainSession D) (source : List HandoverState) (target : HandoverState) :
    Except DomainError Unit :=
  if source.contains session.state && session.state.canTransitionTo target then .ok ()
  else .error (.illegalTransition session.state target)

/-- The domain asks for help; the link is called before the state changes. -/
def requestAssistance {L : Type} [TeleopLink L] (session : DomainSession D) (link : L)
    (reason : AssistanceReason) : DomainSession D × L × Except DomainError Unit :=
  match session.check [.autonomous] .requestingTeleop with
  | .error failure => (session, link, .error failure)
  | .ok () =>
      match TeleopLink.requestTeleopAssistance link reason with
      | (link, .error failure) => (session, link, .error failure)
      | (link, .ok ()) => ({ session with state := .requestingTeleop }, link, .ok ())

def cancelRequest (session : DomainSession D) : DomainSession D × Except DomainError Unit :=
  match session.check [.requestingTeleop] .autonomous with
  | .error failure => (session, .error failure)
  | .ok () => ({ session with state := .autonomous }, .ok ())

def completeHandover (session : DomainSession D) : DomainSession D × Except DomainError Unit :=
  match session.check [.returningToAutonomy] .autonomous with
  | .error failure => (session, .error failure)
  | .ok () => ({ session with state := .autonomous }, .ok ())

/-- The operator acknowledges an emergency stop. -/
def acknowledgeEmergencyStop (session : DomainSession D) :
    DomainSession D × Except DomainError Unit :=
  match session.check [.emergencyStop] .returningToAutonomy with
  | .error failure => (session, .error failure)
  | .ok () => ({ session with state := .returningToAutonomy }, .ok ())

variable {DomainState SensorFeed : Type} [DomainTeleopInterface D DomainState SensorFeed]

/-- An operator takes control. -/
def engage (session : DomainSession D) (operator : OperatorId) :
    DomainSession D × Except DomainError Unit :=
  match session.check [.requestingTeleop, .returningToAutonomy] .teleopActive with
  | .error failure => (session, .error failure)
  | .ok () =>
      match DomainTeleopInterface.onTeleopEngage session.adapter operator with
      | (adapter, .error failure) => ({ session with adapter }, .error failure)
      | (adapter, .ok ()) => (⟨adapter, .teleopActive, some operator⟩, .ok ())

/-- The operator releases control. -/
def disengage (session : DomainSession D) : DomainSession D × Except DomainError Unit :=
  match session.check [.teleopActive] .returningToAutonomy with
  | .error failure => (session, .error failure)
  | .ok () =>
      match DomainTeleopInterface.onTeleopDisengage session.adapter with
      | (adapter, .error failure) => ({ session with adapter }, .error failure)
      | (adapter, .ok ()) => (⟨adapter, .returningToAutonomy, none⟩, .ok ())

/-- Latched hard stop, from any state and never refused. -/
def emergencyStop (session : DomainSession D) : DomainSession D :=
  if session.state = .emergencyStop then session
  else ⟨DomainTeleopInterface.onEmergencyStop session.adapter, .emergencyStop, none⟩

/-- Forwards one command to the adapter; a command to stop is routed to the emergency stop. -/
def command (session : DomainSession D) (cmd : Command) :
    DomainSession D × Except DomainError Unit :=
  if session.state ≠ .teleopActive then (session, .error (.notEngaged session.state))
  else if cmd.getMode = some .emergencyStop then (session.emergencyStop, .ok ())
  else
    let (adapter, result) := DomainTeleopInterface.onControlCommand session.adapter cmd
    ({ session with adapter }, result)

def domainState (session : DomainSession D) : DomainState :=
  DomainTeleopInterface.getDomainState session.adapter

def sensorFeed (session : DomainSession D) : DomainSession D × SensorFeed :=
  let (adapter, feed) := DomainTeleopInterface.getSensorFeed session.adapter
  ({ session with adapter }, feed)

end DomainSession

/-- The adapter of the session's tests, told which calls to refuse. -/
structure MockAdapter where
  failEngage : Bool
  failDisengage : Bool
  deriving DecidableEq

instance : DomainTeleopInterface MockAdapter Unit Unit where
  onTeleopEngage adapter _ :=
    (adapter, if adapter.failEngage then .error (.adapter "actuators not ready") else .ok ())
  onTeleopDisengage adapter :=
    (adapter, if adapter.failDisengage then .error (.adapter "ramp-down failed") else .ok ())
  onControlCommand adapter _ := (adapter, .ok ())
  getDomainState _ := ()
  getSensorFeed adapter := (adapter, ())

/-- A link that either accepts or rejects the request. -/
structure MockLink where
  accept : Bool
  deriving DecidableEq

instance : TeleopLink MockLink where
  requestTeleopAssistance link _ :=
    (link, if link.accept then .ok () else .error (.adapter "link down"))

end Teleop.Bridge
