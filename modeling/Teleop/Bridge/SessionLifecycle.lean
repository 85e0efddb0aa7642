import Teleop.Bridge.SessionTrace

/-!
# The lifecycle over whole runs

Who holds control, when the adapter is commanded and when the emergency stop is entered and
left, in every history of a session.  Each part is first a fact about the effect of one call.
-/

namespace Teleop.Bridge

open Teleop.Core Teleop.Link Teleop.Lib

/-- A callback after which the adapter is not held by an operator. -/
def AdapterCall.Releases : AdapterCall → Prop
  | .onTeleopDisengage accepted => accepted = true
  | .onEmergencyStop => True
  | _ => False

/-- The last successful engagement in `log` has not been released. -/
def Engaged (log : List AdapterCall) : Prop :=
  ∃ earlier operator later, log = earlier ++ .onTeleopEngage operator true :: later ∧
    ∀ call ∈ later, ¬ call.Releases

theorem Engaged.append {log added : List AdapterCall} (engaged : Engaged log)
    (kept : ∀ call ∈ added, ¬ call.Releases) : Engaged (log ++ added) := by
  obtain ⟨earlier, operator, later, rfl, unreleased⟩ := engaged
  refine ⟨earlier, operator, later ++ added, by simp, ?_⟩
  intro call among
  rcases List.mem_append.mp among with old | new
  · exact unreleased call old
  · exact kept call new

theorem engaged_of_engage (log : List AdapterCall) (operator : OperatorId) :
    Engaged (log ++ [.onTeleopEngage operator true]) :=
  ⟨log, operator, [], rfl, by simp⟩

/-- The operator a successful engagement gives control to. -/
def Step.engaged {L : Type} (step : Step L) : Option OperatorId :=
  match step.call, step.result with
  | .engage operator, .ok () => some operator
  | _, _ => none

def History.lastEngaged {D L : Type} (history : History D L) : Option OperatorId :=
  (history.steps.filterMap Step.engaged).getLast?

namespace Effect

variable {L : Type} {holder holder' : Option OperatorId} {step : Step L}

theorem held_iff (effect : Effect holder step holder')
    (held : holder.isSome ↔ step.before = .teleopActive) :
    holder'.isSome ↔ step.after = .teleopActive := by
  cases effect <;> simp_all

theorem holder_eq (effect : Effect holder step holder') (active : step.after = .teleopActive) :
    (step.before = .teleopActive ∧ step.engaged = none ∧ holder' = holder) ∨
      (step.engaged.isSome ∧ holder' = step.engaged) := by
  cases effect <;> simp_all [Step.engaged]

/-- Control that is not taken by the step was taken before it and not released by it. -/
theorem engaged_log (effect : Effect holder step holder') (active : step.after = .teleopActive) :
    (∃ operator, step.callbacks = [.onTeleopEngage operator true]) ∨
      (step.before = .teleopActive ∧ ∀ call ∈ step.callbacks, ¬ call.Releases) := by
  cases effect <;> simp_all [AdapterCall.Releases]

theorem callbacks_eq_of_command (effect : Effect holder step holder') {cmd : Command} {accepted : Bool}
    (among : .onControlCommand cmd accepted ∈ step.callbacks) :
    step.before = .teleopActive ∧ step.callbacks = [.onControlCommand cmd accepted] := by
  cases effect <;> simp_all

theorem count_onEmergencyStop (effect : Effect holder step holder') :
    step.callbacks.count .onEmergencyStop =
      if step.before ≠ .emergencyStop ∧ step.after = .emergencyStop then 1 else 0 := by
  cases effect <;> simp_all

theorem leaves_emergencyStop (effect : Effect holder step holder')
    (latched : step.before = .emergencyStop) (released : step.after ≠ .emergencyStop) :
    step.call = .acknowledgeEmergencyStop := by
  cases effect <;> simp_all

end Effect

section Runs

variable {D DomainState SensorFeed L : Type} [DomainTeleopInterface D DomainState SensorFeed]
  [TeleopLink L]

/-- What the calls of a session show, whatever failed among them. -/
structure Lifecycle (history : History D L) : Prop where
  held : history.session.operator.isSome ↔ history.session.state = .teleopActive
  holder : history.session.state = .teleopActive →
    history.session.operator = history.lastEngaged
  engaged : history.session.state = .teleopActive → Engaged history.session.adapter.log
  commanded : ∀ earlier cmd accepted later,
    history.session.adapter.log = earlier ++ .onControlCommand cmd accepted :: later →
    Engaged earlier
  logged : history.session.adapter.log = history.steps.flatMap (·.callbacks)
  chained : history.session.state = (history.steps.getLast?.map (·.after)).getD .autonomous ∧
    ∀ earlier step later, history.steps = earlier ++ step :: later →
      step.before = (earlier.getLast?.map (·.after)).getD .autonomous
  stoppedOnce : ∀ step ∈ history.steps, step.callbacks.count .onEmergencyStop =
    if step.before ≠ .emergencyStop ∧ step.after = .emergencyStop then 1 else 0
  acknowledged : ∀ step ∈ history.steps, step.before = .emergencyStop →
    step.after ≠ .emergencyStop → step.call = .acknowledgeEmergencyStop

namespace Lifecycle

omit [TeleopLink L] in
theorem initial {history : History D L} (start : History.Initial history) :
    Lifecycle history := by
  obtain ⟨inner, rfl⟩ := start
  constructor <;> simp [DomainSession.new]

theorem make {history : History D L} (holds : Lifecycle history) (call : Call L) :
    Lifecycle (history.make call) := by
  have effect := effect_made history.session call
  have grown := log_perform history.session call
  have before : (history.session.made call).before = history.session.state := rfl
  have state : (history.session.perform call.logged).1.state =
    (history.session.made call).after := rfl
  unfold History.make
  generalize history.session.made call = step,
    (history.session.perform call.logged).1 = session at *
  constructor
  case held =>
    rw [state]
    exact effect.held_iff (before ▸ holds.held)
  case holder =>
    intro active
    rw [state] at active
    rcases effect.holder_eq active with ⟨already, none, kept⟩ | ⟨some, taken⟩
    · have same := holds.holder (before ▸ already)
      simpa [History.lastEngaged, none, kept] using same
    · obtain ⟨operator, engaged⟩ := Option.isSome_iff_exists.mp some
      simp [History.lastEngaged, engaged, taken]
  case engaged =>
    intro active
    rw [state] at active
    rw [grown]
    rcases effect.engaged_log active with ⟨operator, only⟩ | ⟨already, kept⟩
    · simpa [only] using engaged_of_engage _ operator
    · exact (holds.engaged (before ▸ already)).append kept
  case commanded =>
    intro earlier cmd accepted later split
    rw [grown] at split
    rcases List.append_eq_append_iff.mp split with
      ⟨middle, rfl, new⟩ | ⟨_ | ⟨first, middle⟩, old, rest⟩
    · -- The command is among the callbacks of this step, hence the only one of them.
      have among : .onControlCommand cmd accepted ∈ step.callbacks := by simp [new]
      obtain ⟨active, only⟩ := effect.callbacks_eq_of_command among
      obtain rfl : middle = [] := by
        rw [only] at new
        cases middle <;> simp_all
      simpa using holds.engaged (before ▸ active)
    · have among : .onControlCommand cmd accepted ∈ [] ++ step.callbacks := by simp [← rest]
      obtain ⟨active, -⟩ := effect.callbacks_eq_of_command among
      rw [List.append_nil] at old
      exact old ▸ holds.engaged (before ▸ active)
    · obtain ⟨rfl, -⟩ := List.cons.inj rest
      exact holds.commanded earlier cmd accepted middle old
  case logged => simp [grown, holds.logged]
  case chained =>
    refine ⟨by simp [state], ?_⟩
    intro earlier other later split
    rcases List.eq_nil_or_concat later with rfl | ⟨rest, last, rfl⟩
    · obtain ⟨rfl, rfl⟩ : history.steps = earlier ∧ step = other := by simpa using split
      rw [before, holds.chained.1]
    · have moved : history.steps ++ [step] = (earlier ++ other :: rest) ++ [last] := by
        simpa using split
      exact holds.chained.2 earlier other rest (List.append_inj' moved rfl).1
  case stoppedOnce =>
    intro other among
    rcases List.mem_append.mp among with old | new
    · exact holds.stoppedOnce other old
    · obtain rfl := List.mem_singleton.mp new
      exact effect.count_onEmergencyStop
  case acknowledged =>
    intro other among
    rcases List.mem_append.mp among with old | new
    · exact holds.acknowledged other old
    · obtain rfl := List.mem_singleton.mp new
      exact effect.leaves_emergencyStop

theorem reachable {history : History D L}
    (reached : (History.system D L).Reachable history) : Lifecycle history := by
  apply reached.invariant
  · intro history start
    exact initial start
  · intro history call after holds made
    exact Option.some.inj made ▸ holds.make call

end Lifecycle

/-- Every history of a session keeps the lifecycle.  A call that fails leaves the state and the
operator of any session, and one out of order reaches neither the adapter nor the link. -/
theorem session_lifecycle :
    (∀ history : History D L, (History.system D L).Reachable history → Lifecycle history) ∧
      ∀ (session : DomainSession D) (call : Call L),
        (∀ failure, (session.perform call).2.2 = .error failure →
          (session.perform call).1.state = session.state ∧
            (session.perform call).1.operator = session.operator) ∧
        (¬ call.InOrder session.state →
          ∃ failure, session.perform call = (session, call.link, .error failure)) := by
  refine ⟨fun history reached => .reachable reached, ?_⟩
  intro session call
  exact ⟨fun failure failed => perform_error failed, perform_outOfOrder⟩

end Runs

section Mock

/-- A release that fails, before the emergency stop and its acknowledgement. -/
def mockCalls : List (Call MockLink) :=
  [.requestAssistance ⟨false⟩ .sensorFault, .requestAssistance ⟨true⟩ .sensorFault,
    .engage ⟨.replicate 16 7⟩, .command (.zeroed .fullTeleop), .disengage, .emergencyStop,
    .acknowledgeEmergencyStop]

def mockStart : History MockAdapter MockLink := ⟨.new ⟨⟨false, true⟩, []⟩, []⟩

theorem reachable_mock (calls : List (Call MockLink)) :
    (History.system MockAdapter MockLink).Reachable (mockStart.run calls) :=
  History.reachable_run (.of_initial ⟨_, rfl⟩) calls

theorem session_lifecycle_mock :
    Lifecycle (mockStart.run mockCalls) ∧
      (mockStart.run mockCalls).steps.map (·.after) = [.autonomous, .requestingTeleop,
        .teleopActive, .teleopActive, .teleopActive, .emergencyStop, .returningToAutonomy] ∧
      (mockStart.run mockCalls).session.adapter.log = [.onTeleopEngage ⟨.replicate 16 7⟩ true,
        .onControlCommand (.zeroed .fullTeleop) true, .onTeleopDisengage false,
        .onEmergencyStop] ∧
      ∃ failure, mockStart.session.inner.perform (L := MockLink) .disengage =
        (mockStart.session.inner, none, .error failure) := by
  exact ⟨session_lifecycle.1 _ (reachable_mock mockCalls), rfl, rfl,
    (session_lifecycle.2 _ _).2 nofun⟩

end Mock

end Teleop.Bridge
