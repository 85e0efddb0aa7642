import Teleop.Core.Mode
import Teleop.Ring.Spsc

/-!
# The central mode state machine

The calls of `StateMachine` when each runs without interruption.  The mode is
one byte; a byte that is no discriminant reads as the emergency stop.
-/

namespace Teleop.Core

open Teleop.Ring

/-- Decoding of the stored byte, the body of `StateMachine::current`. -/
def decodeMode (stored : UInt8) : Mode :=
  match Mode.fromU8 stored with
  | some mode => mode
  | none => .emergencyStop

@[simp] theorem decodeMode_asU8 (mode : Mode) : decodeMode mode.asU8 = mode := by
  simp [decodeMode]

/-- Mode state machine: the atomic byte, its rules and the best-effort event ring. -/
structure StateMachine where
  stored : UInt8
  rules : TransitionTable
  events : SpscRing Transition

namespace StateMachine

/-- New machine with a custom event-ring capacity. -/
def withEventRing (eventCapacity : Nat) : StateMachine where
  stored := Mode.auto.asU8
  rules := .specDefault
  events := .withCapacity eventCapacity

/-- New machine with the default event ring of 64 records. -/
def new : StateMachine := withEventRing 64

def current (machine : StateMachine) : Mode := decodeMode machine.stored

/-- Store the new mode and record the change; a full event ring drops the record. -/
def commit (machine : StateMachine) (source target : Mode) (atUnixNs : UInt64) : StateMachine :=
  { machine with
    stored := target.asU8
    events := machine.events.pushOrDrop ⟨source, target, atUnixNs⟩ }

/-- Attempts `current → target` under the table; returns the previous mode. -/
def tryTransition (machine : StateMachine) (target : Mode) (atUnixNs : UInt64) :
    StateMachine × Except ModeError Mode :=
  let source := machine.current
  if !machine.rules.allows source target then
    (machine, .error (.disallowed source target))
  else
    (machine.commit source target atUnixNs, .ok source)

/-- Unconditional emergency stop, bypassing the table; returns the previous mode. -/
def forceEmergencyStop (machine : StateMachine) (atUnixNs : UInt64) : StateMachine × Mode :=
  let source := machine.current
  if source = .emergencyStop then (machine, source)
  else (machine.commit source .emergencyStop atUnixNs, source)

/-- Drains the pending transition records in order. -/
def takeTransitions (machine : StateMachine) : StateMachine × List Transition :=
  ({ machine with events := { machine.events with items := [], bounded := Nat.zero_le _ } },
    machine.events.items)

@[simp] theorem commit_current (machine : StateMachine) (source target : Mode) (at_ : UInt64) :
    (machine.commit source target at_).current = target := by
  simp [commit, current]

/-- A transition either is refused and changes nothing, or is granted and stores its target. -/
theorem tryTransition_cases (machine : StateMachine) (target : Mode) (at_ : UInt64) :
    (machine.rules.allows machine.current target = false ∧
      machine.tryTransition target at_ =
        (machine, .error (.disallowed machine.current target))) ∨
    (machine.rules.allows machine.current target = true ∧
      machine.tryTransition target at_ =
        (machine.commit machine.current target at_, .ok machine.current)) := by
  cases allowed : machine.rules.allows machine.current target <;>
    simp [tryTransition, allowed]

end StateMachine

end Teleop.Core
