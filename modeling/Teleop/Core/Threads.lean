import Teleop.Core.Machine
import Teleop.Lib.TransitionSystem

/-!
# The mode state machine under concurrent calls

Any number of threads run `try_transition` and `force_emergency_stop` on one
machine.  A call is a load of the mode byte, a check on the loaded value and a
store; the load and the store are one step each and the steps of different
calls interleave arbitrarily.  A call returns with its last step.  The event
ring is left out: no call reads it.
-/

namespace Teleop.Core.Threads

open Teleop.Lib

/-- The two methods that write the mode. -/
inductive Operation where
  | tryTransition (target : Mode)
  | forceEmergencyStop
  deriving DecidableEq, Repr

/-- The mode an operation stores. -/
def Operation.target : Operation → Mode
  | .tryTransition target => target
  | .forceEmergencyStop => .emergencyStop

/-- How far one call has come. -/
inductive Progress where
  /-- Called, nothing loaded yet. -/
  | called
  /-- The load read `source` and the check passed; the store is outstanding. -/
  | loaded (source : Mode)
  | returned (result : Except ModeError Mode)

structure Call where
  operation : Operation
  progress : Progress

/-- The shared byte and the calls made so far, by an identifier of the call. -/
structure State where
  stored : UInt8
  calls : Nat → Option Call

def State.current (state : State) : Mode := decodeMode state.stored

def State.setCall (state : State) (id : Nat) (call : Call) : State :=
  { state with calls := Function.update state.calls id (some call) }

@[simp] theorem State.setCall_current (state : State) (id : Nat) (call : Call) :
    (state.setCall id call).current = state.current := rfl

@[simp] theorem State.setCall_self (state : State) (id : Nat) (call : Call) :
    (state.setCall id call).calls id = some call := Function.update_self id _ _

theorem State.setCall_of_ne (state : State) {id other : Nat} (call : Call) (distinct : other ≠ id) :
    (state.setCall id call).calls other = state.calls other :=
  Function.update_of_ne distinct _ _

inductive Action where
  | call (id : Nat) (operation : Operation)
  | load (id : Nat)
  | store (id : Nat)
  deriving DecidableEq, Repr

/-- What a call has become after its load read `source`: refused by the table, already
stopped, or about to store. -/
def afterLoad (source : Mode) : Operation → Progress
  | .tryTransition target =>
      if !TransitionTable.specDefault.allows source target then
        .returned (.error (.disallowed source target))
      else .loaded source
  | .forceEmergencyStop =>
      if source = .emergencyStop then .returned (.ok source) else .loaded source

/-- One atomic step. -/
def next (state : State) : Action → Option State
  | .call id operation =>
      match state.calls id with
      | none => some (state.setCall id ⟨operation, .called⟩)
      | some _ => none
  | .load id =>
      match state.calls id with
      | some ⟨operation, .called⟩ =>
          some (state.setCall id ⟨operation, afterLoad state.current operation⟩)
      | _ => none
  | .store id =>
      match state.calls id with
      | some ⟨operation, .loaded source⟩ =>
          some { state.setCall id ⟨operation, .returned (.ok source)⟩ with
            stored := operation.target.asU8 }
      | _ => none

theorem next_call {state : State} {id : Nat} (operation : Operation)
    (fresh : state.calls id = none) :
    next state (.call id operation) = some (state.setCall id ⟨operation, .called⟩) := by
  simp [next, fresh]

theorem next_load {state : State} {id : Nat} {operation : Operation}
    (waiting : state.calls id = some ⟨operation, .called⟩) :
    next state (.load id) =
      some (state.setCall id ⟨operation, afterLoad state.current operation⟩) := by
  simp [next, waiting]

theorem next_store {state : State} {id : Nat} {operation : Operation} {source : Mode}
    (waiting : state.calls id = some ⟨operation, .loaded source⟩) :
    next state (.store id) =
      some { state.setCall id ⟨operation, .returned (.ok source)⟩ with
        stored := operation.target.asU8 } := by
  simp [next, waiting]

/-- A machine in `auto` on which nothing was called yet. -/
def start : State where
  stored := Mode.auto.asU8
  calls _ := none

/-- All interleavings of all calls on a new machine. -/
def threads : TransitionSystem State Action := .ofNext (· = start) next

/-- The steps a state can take, one case for each kind of action. -/
theorem next_cases {state target : State} {action : Action}
    (stepped : next state action = some target) :
    (∃ id operation, action = .call id operation ∧ state.calls id = none ∧
      target = state.setCall id ⟨operation, .called⟩) ∨
    (∃ id operation, action = .load id ∧ state.calls id = some ⟨operation, .called⟩ ∧
      target = state.setCall id ⟨operation, afterLoad state.current operation⟩) ∨
    (∃ id operation source, action = .store id ∧
      state.calls id = some ⟨operation, .loaded source⟩ ∧
      target = { state.setCall id ⟨operation, .returned (.ok source)⟩ with
        stored := operation.target.asU8 }) := by
  cases action with
  | call id operation =>
      simp only [next] at stepped
      split at stepped
      · rename_i fresh
        exact .inl ⟨id, operation, rfl, fresh, (Option.some.inj stepped).symm⟩
      · cases stepped
  | load id =>
      simp only [next] at stepped
      split at stepped
      · rename_i operation pending
        exact .inr (.inl ⟨id, operation, rfl, pending, (Option.some.inj stepped).symm⟩)
      · cases stepped
  | store id =>
      simp only [next] at stepped
      split at stepped
      · rename_i operation source pending
        exact .inr (.inr ⟨id, operation, source, rfl, pending, (Option.some.inj stepped).symm⟩)
      · cases stepped

/-- The method a call runs, on a machine nobody else touches. -/
def Operation.run (machine : StateMachine) (at_ : UInt64) :
    Operation → StateMachine × Except ModeError Mode
  | .tryTransition target => machine.tryTransition target at_
  | .forceEmergencyStop =>
      let (stopped, source) := machine.forceEmergencyStop at_
      (stopped, .ok source)

/-- The load and the store, taken together, are the method. -/
theorem run_of_afterLoad (machine : StateMachine) (at_ : UInt64)
    (spec : machine.rules = .specDefault) (operation : Operation) :
    match afterLoad machine.current operation with
    | .called => False
    | .loaded source =>
        (operation.run machine at_).1.stored = operation.target.asU8 ∧
          (operation.run machine at_).2 = .ok source
    | .returned result =>
        (operation.run machine at_).1.stored = machine.stored ∧
          (operation.run machine at_).2 = result := by
  cases operation with
  | tryTransition target =>
      rcases machine.tryTransition_cases target at_ with ⟨refused, result⟩ | ⟨granted, result⟩
      · rw [spec] at refused
        simp [afterLoad, Operation.run, refused, result]
      · rw [spec] at granted
        simp [afterLoad, Operation.run, granted, result, Operation.target, StateMachine.commit]
  | forceEmergencyStop =>
      by_cases stopped : machine.current = .emergencyStop <;>
        simp [afterLoad, Operation.run, StateMachine.forceEmergencyStop, stopped,
          Operation.target, StateMachine.commit]

/-- Run without interruption, the steps of a call do what the method does. -/
theorem runs_alone (machine : StateMachine) (at_ : UInt64) (spec : machine.rules = .specDefault)
    (operation : Operation) (state : State) (same : state.stored = machine.stored)
    (id : Nat) (fresh : state.calls id = none) :
    ∃ actions final,
      TransitionSystem.perform next state (.call id operation :: .load id :: actions) =
        some final ∧
      final.stored = (operation.run machine at_).1.stored ∧
      final.calls id = some ⟨operation, .returned (operation.run machine at_).2⟩ := by
  have called := next_call operation fresh
  have loaded := next_load (state.setCall_self id ⟨operation, .called⟩)
  have sameMode : (state.setCall id ⟨operation, .called⟩).current = machine.current := by
    rw [State.setCall_current]
    simp only [State.current, StateMachine.current, same]
  rw [sameMode] at loaded
  have outcome := run_of_afterLoad machine at_ spec operation
  cases progress : afterLoad machine.current operation with
  | called => simp [progress] at outcome
  | loaded source =>
      rw [progress] at outcome loaded
      have stored := next_store
        ((state.setCall id ⟨operation, .called⟩).setCall_self id ⟨operation, .loaded source⟩)
      have performed := (TransitionSystem.perform_cons called [.load id, .store id]).trans
        ((TransitionSystem.perform_cons loaded [.store id]).trans
          (TransitionSystem.perform_cons stored []))
      refine ⟨[.store id], _, performed, outcome.1.symm, ?_⟩
      simp [outcome.2]
  | returned result =>
      rw [progress] at outcome loaded
      have performed := (TransitionSystem.perform_cons called [.load id]).trans
        (TransitionSystem.perform_cons loaded [])
      refine ⟨[], _, performed, same.trans outcome.1.symm, ?_⟩
      simp [outcome.2]

end Teleop.Core.Threads
