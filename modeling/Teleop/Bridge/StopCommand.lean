import Teleop.Bridge.SessionLifecycle

/-!
# A stop in the command stream

A command whose mode is the emergency stop is routed to the emergency stop, but only after
the session has checked that an operator is engaged.
-/

namespace Teleop.Bridge

open Teleop.Core Teleop.Link Teleop.Lib

variable {D DomainState SensorFeed L : Type} [DomainTeleopInterface D DomainState SensorFeed]
  [TeleopLink L]

/-- The emergency stop was entered with its callback, and has been latched since. -/
def Latched (steps : List (Step L)) : Prop :=
  ∃ earlier entry later, steps = earlier ++ entry :: later ∧ entry.before ≠ .emergencyStop ∧
    entry.after = .emergencyStop ∧ .onEmergencyStop ∈ entry.callbacks ∧
    ∀ step ∈ later, step.before = .emergencyStop ∧ step.after = .emergencyStop

omit [TeleopLink L] in
theorem Latched.append {steps : List (Step L)} {step : Step L} (latched : Latched steps)
    (before : step.before = .emergencyStop) (after : step.after = .emergencyStop) :
    Latched (steps ++ [step]) := by
  obtain ⟨earlier, entry, later, rfl, entered, stopped, called, since⟩ := latched
  refine ⟨earlier, entry, later ++ [step], by simp, entered, stopped, called, ?_⟩
  intro other among
  rcases List.mem_append.mp among with old | new
  · exact since other old
  · exact List.mem_singleton.mp new ▸ ⟨before, after⟩

/-- Every stay in the emergency stop began with its callback. -/
theorem latched_of_emergencyStop {history : History D L}
    (reached : (History.system D L).Reachable history)
    (stopped : history.session.state = .emergencyStop) : Latched history.steps := by
  revert stopped
  apply reached.invariant_of_reachable
    (P := fun history => history.session.state = .emergencyStop → Latched history.steps)
  · rintro _ ⟨inner, rfl⟩ stopped
    cases stopped
  · rintro history call _ visited latched made stopped
    obtain rfl := Option.some.inj made
    have lifecycle := Lifecycle.reachable visited |>.make call
    by_cases already : history.session.state = .emergencyStop
    · exact (latched already).append already stopped
    · have once := lifecycle.stoppedOnce (history.session.made call)
        (List.mem_append_right _ List.mem_cons_self)
      rw [if_pos ⟨already, stopped⟩] at once
      have called : .onEmergencyStop ∈ (history.session.made call).callbacks :=
        List.count_pos_iff.mp (once ▸ Nat.one_pos)
      refine ⟨history.steps, history.session.made call, [], rfl, already, stopped, called, ?_⟩
      simp

/-- The session is stopped, nobody holds it, and the adapter was told at this latch. -/
structure Stopped (history : History D L) : Prop where
  state : history.session.state = .emergencyStop
  operator : history.session.operator = none
  latched : Latched history.steps

theorem stopped_of_emergencyStop {history : History D L}
    (reached : (History.system D L).Reachable history)
    (state : history.session.state = .emergencyStop) : Stopped history where
  state := state
  operator := by
    have held := (Lifecycle.reachable reached).held
    simpa [state] using held
  latched := latched_of_emergencyStop reached state

/-- Where a stop command leads, in each state. -/
theorem state_of_stop (session : DomainSession D) {cmd : Command}
    (stops : cmd.getMode = some .emergencyStop) :
    (session.command cmd).1.state =
      if session.state = .teleopActive then .emergencyStop else session.state := by
  by_cases active : session.state = .teleopActive <;>
    simp [DomainSession.command, DomainSession.emergencyStop, active, stops]

/-- A stop in the command stream takes effect exactly while an operator is engaged or the stop
is already latched. -/
theorem stopCommand_takes_effect_iff {history : History D L} {cmd : Command}
    (reached : (History.system D L).Reachable history)
    (stops : cmd.getMode = some .emergencyStop) :
    Stopped (history.make (.command cmd)) ↔
      history.session.state = .teleopActive ∨ history.session.state = .emergencyStop := by
  have after : (history.make (.command cmd)).session.state = _ :=
    state_of_stop history.session stops
  constructor
  · intro stopped
    rw [stopped.state] at after
    by_cases active : history.session.state = .teleopActive
    · exact .inl active
    · rw [if_neg active] at after
      exact .inr after.symm
  · intro condition
    apply stopped_of_emergencyStop (reached.step rfl)
    rcases condition with active | latched
    · simp [after, active]
    · simp [after, latched]

theorem stopCommand_takes_effect_mock :
    Stopped ((mockStart.run (mockCalls.take 3)).make (.command (.zeroed .emergencyStop))) :=
  (stopCommand_takes_effect_iff (reachable_mock _) rfl).mpr (.inl rfl)

/-- A pending request for an operator, and a stop command that is refused. -/
theorem stopCommand_refused :
    (History.system MockAdapter MockLink).Reachable (mockStart.run (mockCalls.take 2)) ∧
      (ControlCommand.zeroed .emergencyStop : Command).getMode = some .emergencyStop ∧
      ¬ Stopped ((mockStart.run (mockCalls.take 2)).make (.command (.zeroed .emergencyStop))) := by
  refine ⟨reachable_mock _, rfl, ?_⟩
  intro stopped
  cases stopped.state

end Teleop.Bridge
