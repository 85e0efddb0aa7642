import Teleop.Bridge.Session
import Teleop.Lib.TransitionSystem

/-!
# The trace of a domain session

A session with a history: each call with the states around it, its result, and what reached
the adapter and the link meanwhile.  In every run, whatever fails, the adapter is engaged,
commanded and released in the order of the lifecycle.
-/

namespace Teleop.Bridge

open Teleop.Core Teleop.Link Teleop.Lib

/-- A call that changes the adapter, and whether it succeeded. -/
inductive AdapterCall where
  | onTeleopEngage (operator : OperatorId) (accepted : Bool)
  | onTeleopDisengage (accepted : Bool)
  | onControlCommand (cmd : Command) (accepted : Bool)
  | getSensorFeed
  | onEmergencyStop
  deriving DecidableEq

/-- A request for an operator, and whether it was delivered. -/
structure LinkCall where
  reason : AssistanceReason
  delivered : Bool
  deriving DecidableEq

/-- A state with a log of the calls made on it. -/
structure Logged (S E : Type) where
  inner : S
  log : List E

section Logging

variable {S E A : Type}

def Logged.record (before : Logged S E) (event : Except DomainError Unit → E)
    (outcome : S × Except DomainError Unit) : Logged S E × Except DomainError Unit :=
  (⟨outcome.1, before.log ++ [event outcome.2]⟩, outcome.2)

instance {D DomainState SensorFeed : Type} [DomainTeleopInterface D DomainState SensorFeed] :
    DomainTeleopInterface (Logged D AdapterCall) DomainState SensorFeed where
  onTeleopEngage adapter operator :=
    adapter.record (.onTeleopEngage operator ·.isOk)
      (DomainTeleopInterface.onTeleopEngage adapter.inner operator)
  onTeleopDisengage adapter :=
    adapter.record (.onTeleopDisengage ·.isOk)
      (DomainTeleopInterface.onTeleopDisengage adapter.inner)
  onControlCommand adapter cmd :=
    adapter.record (.onControlCommand cmd ·.isOk)
      (DomainTeleopInterface.onControlCommand adapter.inner cmd)
  getDomainState adapter := DomainTeleopInterface.getDomainState adapter.inner
  getSensorFeed adapter :=
    let (inner, feed) := DomainTeleopInterface.getSensorFeed adapter.inner
    (⟨inner, adapter.log ++ [.getSensorFeed]⟩, feed)
  onEmergencyStop adapter :=
    ⟨DomainTeleopInterface.onEmergencyStop adapter.inner, adapter.log ++ [.onEmergencyStop]⟩

instance {L : Type} [TeleopLink L] : TeleopLink (Logged L LinkCall) where
  requestTeleopAssistance link reason :=
    link.record (⟨reason, ·.isOk⟩) (TeleopLink.requestTeleopAssistance link.inner reason)

end Logging

/-- The calls of a session; the link of a request is handed over with it. -/
inductive Call (L : Type) where
  | requestAssistance (link : L) (reason : AssistanceReason)
  | cancelRequest
  | engage (operator : OperatorId)
  | disengage
  | completeHandover
  | command (cmd : Command)
  | emergencyStop
  | acknowledgeEmergencyStop
  | domainState
  | sensorFeed

namespace Call

variable {L : Type}

def link : Call L → Option L
  | requestAssistance link _ => some link
  | _ => none

/-- The calls the lifecycle permits in a state. -/
def InOrder : Call L → HandoverState → Prop
  | requestAssistance _ _, state => state = .autonomous
  | cancelRequest, state => state = .requestingTeleop
  | engage _, state => state = .requestingTeleop ∨ state = .returningToAutonomy
  | disengage, state | command _, state => state = .teleopActive
  | completeHandover, state => state = .returningToAutonomy
  | acknowledgeEmergencyStop, state => state = .emergencyStop
  | emergencyStop, _ | domainState, _ | sensorFeed, _ => True

/-- The same call with a log on its link. -/
def logged : Call L → Call (Logged L LinkCall)
  | requestAssistance link reason => requestAssistance ⟨link, []⟩ reason
  | cancelRequest => cancelRequest
  | engage operator => engage operator
  | disengage => disengage
  | completeHandover => completeHandover
  | command cmd => command cmd
  | emergencyStop => emergencyStop
  | acknowledgeEmergencyStop => acknowledgeEmergencyStop
  | domainState => domainState
  | sensorFeed => sensorFeed

end Call

/-- One call of the session, with the link it leaves. -/
def DomainSession.perform {D DomainState SensorFeed L : Type}
    [DomainTeleopInterface D DomainState SensorFeed] [TeleopLink L] (session : DomainSession D) :
    Call L → DomainSession D × Option L × Except DomainError Unit
  | .requestAssistance link reason =>
      let (session, link, result) := session.requestAssistance link reason
      (session, some link, result)
  | .cancelRequest => (session.cancelRequest.1, none, session.cancelRequest.2)
  | .engage operator => ((session.engage operator).1, none, (session.engage operator).2)
  | .disengage => (session.disengage.1, none, session.disengage.2)
  | .completeHandover => (session.completeHandover.1, none, session.completeHandover.2)
  | .command cmd => ((session.command cmd).1, none, (session.command cmd).2)
  | .emergencyStop => (session.emergencyStop, none, .ok ())
  | .acknowledgeEmergencyStop =>
      (session.acknowledgeEmergencyStop.1, none, session.acknowledgeEmergencyStop.2)
  | .domainState => (session, none, .ok ())
  | .sensorFeed => (session.sensorFeed.1, none, .ok ())

/-- A call that was made. -/
structure Step (L : Type) where
  call : Call L
  before : HandoverState
  after : HandoverState
  result : Except DomainError Unit
  callbacks : List AdapterCall
  requests : List LinkCall

/-- The step a call makes of a session whose adapter keeps a log. -/
def DomainSession.made {D DomainState SensorFeed L : Type}
    [DomainTeleopInterface D DomainState SensorFeed] [TeleopLink L]
    (session : DomainSession (Logged D AdapterCall)) (call : Call L) : Step L :=
  let (after, link, result) := session.perform call.logged
  { call
    before := session.state
    after := after.state
    result
    callbacks := after.adapter.log.drop session.adapter.log.length
    requests := (link.map (·.log)).getD [] }

/-- A session and the calls made on it. -/
structure History (D L : Type) where
  session : DomainSession (Logged D AdapterCall)
  steps : List (Step L)

namespace History

variable {D DomainState SensorFeed L : Type} [DomainTeleopInterface D DomainState SensorFeed]
  [TeleopLink L]

/-- A new session on an adapter in any state. -/
def Initial (history : History D L) : Prop :=
  ∃ inner, history = ⟨.new ⟨inner, []⟩, []⟩

def make (history : History D L) (call : Call L) : History D L where
  session := (history.session.perform call.logged).1
  steps := history.steps ++ [history.session.made call]

variable (D L) in
/-- Any call can be made at any time. -/
def system : TransitionSystem (History D L) (Call L) := .ofNext Initial (some <| make · ·)

/-- The calls made in order. -/
def run (history : History D L) (calls : List (Call L)) : History D L := calls.foldl make history

theorem reachable_run {history : History D L} (reached : (system D L).Reachable history)
    (calls : List (Call L)) : (system D L).Reachable (history.run calls) := by
  induction calls generalizing history with
  | nil => exact reached
  | cons call rest inductionHypothesis => exact inductionHypothesis (reached.step rfl)

end History

section Effects

variable {L : Type}

/-- What a call can do, with the operator before and after it. -/
inductive Effect : Option OperatorId → Step L → Option OperatorId → Prop
  | outOfOrder {holder : Option OperatorId} {call : Call L} {state : HandoverState}
      {failure : DomainError} :
      ¬ call.InOrder state → Effect holder ⟨call, state, state, .error failure, [], []⟩ holder
  | undelivered {holder : Option OperatorId} {link : L} {reason : AssistanceReason}
      {failure : DomainError} :
      Effect holder ⟨.requestAssistance link reason, .autonomous, .autonomous, .error failure, [],
        [⟨reason, false⟩]⟩ holder
  | requested {holder : Option OperatorId} {link : L} {reason : AssistanceReason} :
      Effect holder ⟨.requestAssistance link reason, .autonomous, .requestingTeleop, .ok (), [],
        [⟨reason, true⟩]⟩ holder
  | canceled {holder : Option OperatorId} :
      Effect holder ⟨.cancelRequest, .requestingTeleop, .autonomous, .ok (), [], []⟩ holder
  | unengaged {holder : Option OperatorId} {operator : OperatorId} {state : HandoverState}
      {failure : DomainError} :
      Effect holder ⟨.engage operator, state, state, .error failure,
        [.onTeleopEngage operator false], []⟩ holder
  | engaged {holder : Option OperatorId} {operator : OperatorId} {state : HandoverState} :
      state = .requestingTeleop ∨ state = .returningToAutonomy →
      Effect holder ⟨.engage operator, state, .teleopActive, .ok (),
        [.onTeleopEngage operator true], []⟩ (some operator)
  | undisengaged {holder : Option OperatorId} {failure : DomainError} :
      Effect holder ⟨.disengage, .teleopActive, .teleopActive, .error failure,
        [.onTeleopDisengage false], []⟩ holder
  | disengaged {holder : Option OperatorId} :
      Effect holder ⟨.disengage, .teleopActive, .returningToAutonomy, .ok (),
        [.onTeleopDisengage true], []⟩ none
  | completed {holder : Option OperatorId} :
      Effect holder ⟨.completeHandover, .returningToAutonomy, .autonomous, .ok (), [], []⟩ holder
  | commanded {holder : Option OperatorId} {cmd : Command} {result : Except DomainError Unit} :
      Effect holder ⟨.command cmd, .teleopActive, .teleopActive, result,
        [.onControlCommand cmd result.isOk], []⟩ holder
  | stopCommanded {holder : Option OperatorId} {cmd : Command} :
      cmd.getMode = some .emergencyStop →
      Effect holder ⟨.command cmd, .teleopActive, .emergencyStop, .ok (), [.onEmergencyStop], []⟩
        none
  | stopped {holder : Option OperatorId} {state : HandoverState} :
      state ≠ .emergencyStop →
      Effect holder ⟨.emergencyStop, state, .emergencyStop, .ok (), [.onEmergencyStop], []⟩ none
  | alreadyStopped {holder : Option OperatorId} :
      Effect holder ⟨.emergencyStop, .emergencyStop, .emergencyStop, .ok (), [], []⟩ holder
  | acknowledged {holder : Option OperatorId} :
      Effect holder ⟨.acknowledgeEmergencyStop, .emergencyStop, .returningToAutonomy, .ok (), [],
        []⟩ holder
  | looked {holder : Option OperatorId} {state : HandoverState} :
      Effect holder ⟨.domainState, state, state, .ok (), [], []⟩ holder
  | fed {holder : Option OperatorId} {state : HandoverState} :
      Effect holder ⟨.sensorFeed, state, state, .ok (), [.getSensorFeed], []⟩ holder

@[simp] theorem inOrder_logged {call : Call L} {state : HandoverState} :
    call.logged.InOrder state ↔ call.InOrder state := by
  cases call <;> rfl

theorem link_logged (call : Call L) : (call.logged.link.map (·.log)).getD [] = [] := by
  cases call <;> rfl

variable {D DomainState SensorFeed : Type} [DomainTeleopInterface D DomainState SensorFeed]
  [TeleopLink L]

/-- A call out of order fails before it reaches the adapter or the link. -/
theorem perform_outOfOrder {session : DomainSession D} {call : Call L}
    (outOfOrder : ¬ call.InOrder session.state) :
    ∃ failure, session.perform call = (session, call.link, .error failure) := by
  obtain ⟨adapter, state, operator⟩ := session
  cases call with
  | requestAssistance link reason =>
      refine ⟨.illegalTransition state .requestingTeleop, ?_⟩
      cases state <;> first | exact absurd rfl outOfOrder | rfl
  | cancelRequest =>
      refine ⟨.illegalTransition state .autonomous, ?_⟩
      cases state <;> first | exact absurd rfl outOfOrder | rfl
  | engage operator =>
      refine ⟨.illegalTransition state .teleopActive, ?_⟩
      cases state <;>
        first | exact absurd (.inl rfl) outOfOrder | exact absurd (.inr rfl) outOfOrder | rfl
  | disengage =>
      refine ⟨.illegalTransition state .returningToAutonomy, ?_⟩
      cases state <;> first | exact absurd rfl outOfOrder | rfl
  | completeHandover =>
      refine ⟨.illegalTransition state .autonomous, ?_⟩
      cases state <;> first | exact absurd rfl outOfOrder | rfl
  | command cmd =>
      refine ⟨.notEngaged state, ?_⟩
      cases state <;> first | exact absurd rfl outOfOrder | rfl
  | acknowledgeEmergencyStop =>
      refine ⟨.illegalTransition state .returningToAutonomy, ?_⟩
      cases state <;> first | exact absurd rfl outOfOrder | rfl
  | emergencyStop => exact absurd trivial outOfOrder
  | domainState => exact absurd trivial outOfOrder
  | sensorFeed => exact absurd trivial outOfOrder

/-- A call only adds to the log of the adapter. -/
theorem log_prefix (session : DomainSession (Logged D AdapterCall)) (call : Call L) :
    session.adapter.log <+: (session.perform call.logged).1.adapter.log := by
  obtain ⟨⟨inner, log⟩, state, holder⟩ := session
  cases call with
  | requestAssistance link reason =>
      simp only [Call.logged, DomainSession.perform, DomainSession.requestAssistance]
      split
      · simp
      · split <;> simp
  | cancelRequest =>
      simp only [Call.logged, DomainSession.perform, DomainSession.cancelRequest]
      split <;> simp
  | engage operator =>
      simp only [Call.logged, DomainSession.perform, DomainSession.engage,
        DomainTeleopInterface.onTeleopEngage, Logged.record]
      split
      · simp
      · split <;> rename_i answered <;> simp [← (Prod.mk.inj answered).1]
  | disengage =>
      simp only [Call.logged, DomainSession.perform, DomainSession.disengage,
        DomainTeleopInterface.onTeleopDisengage, Logged.record]
      split
      · simp
      · split <;> rename_i answered <;> simp [← (Prod.mk.inj answered).1]
  | completeHandover =>
      simp only [Call.logged, DomainSession.perform, DomainSession.completeHandover]
      split <;> simp
  | command cmd =>
      simp only [Call.logged, DomainSession.perform, DomainSession.command,
        DomainSession.emergencyStop, DomainTeleopInterface.onControlCommand,
        DomainTeleopInterface.onEmergencyStop, Logged.record]
      split
      · simp
      · split
        · split <;> simp
        · simp
  | emergencyStop =>
      simp only [Call.logged, DomainSession.perform, DomainSession.emergencyStop,
        DomainTeleopInterface.onEmergencyStop]
      split <;> simp
  | acknowledgeEmergencyStop =>
      simp only [Call.logged, DomainSession.perform, DomainSession.acknowledgeEmergencyStop]
      split <;> simp
  | domainState => simp [Call.logged, DomainSession.perform]
  | sensorFeed =>
      simp [Call.logged, DomainSession.perform, DomainSession.sensorFeed,
        DomainTeleopInterface.getSensorFeed]

theorem log_perform (session : DomainSession (Logged D AdapterCall)) (call : Call L) :
    (session.perform call.logged).1.adapter.log =
      session.adapter.log ++ (session.made call).callbacks := by
  obtain ⟨added, grown⟩ := log_prefix session call
  simp [DomainSession.made, ← grown]

attribute [local simp] DomainSession.made DomainSession.perform DomainSession.check
  HandoverState.canTransitionTo Call.logged Logged.record Except.isOk Except.toBool

/-- Every call has one of the listed effects, whatever the adapter and the link answer. -/
theorem effect_made (session : DomainSession (Logged D AdapterCall)) (call : Call L) :
    Effect session.operator (session.made call) (session.perform call.logged).1.operator := by
  by_cases ordered : call.InOrder session.state
  case neg =>
    obtain ⟨failure, performed⟩ := perform_outOfOrder (inOrder_logged.not.mpr ordered)
    simp only [DomainSession.made, performed, link_logged, List.drop_length]
    exact .outOfOrder ordered
  obtain ⟨⟨inner, log⟩, state, holder⟩ := session
  cases call with
  | requestAssistance link reason =>
      obtain rfl : state = .autonomous := ordered
      rcases answered : TeleopLink.requestTeleopAssistance link reason with ⟨_, failure | _⟩
      · simpa [DomainSession.requestAssistance, TeleopLink.requestTeleopAssistance, answered]
          using Effect.undelivered
      · simpa [DomainSession.requestAssistance, TeleopLink.requestTeleopAssistance, answered]
          using Effect.requested
  | cancelRequest =>
      obtain rfl : state = .requestingTeleop := ordered
      simpa [DomainSession.cancelRequest] using Effect.canceled
  | engage operator =>
      have passes : DomainSession.check ⟨(⟨inner, log⟩ : Logged D AdapterCall), state, holder⟩
          [.requestingTeleop, .returningToAutonomy] .teleopActive = .ok () := by
        rcases ordered with engaging | engaging <;>
          (obtain rfl : state = _ := engaging; rfl)
      rcases answered : DomainTeleopInterface.onTeleopEngage inner operator with ⟨_, failure | _⟩
      · simpa [DomainSession.engage, DomainTeleopInterface.onTeleopEngage, answered, passes,
          -DomainSession.check] using Effect.unengaged
      · simpa [DomainSession.engage, DomainTeleopInterface.onTeleopEngage, answered, passes,
          -DomainSession.check] using Effect.engaged ordered
  | disengage =>
      obtain rfl : state = .teleopActive := ordered
      rcases answered : DomainTeleopInterface.onTeleopDisengage inner with ⟨_, failure | _⟩
      · simpa [DomainSession.disengage, DomainTeleopInterface.onTeleopDisengage, answered]
          using Effect.undisengaged
      · simpa [DomainSession.disengage, DomainTeleopInterface.onTeleopDisengage, answered]
          using Effect.disengaged
  | completeHandover =>
      obtain rfl : state = .returningToAutonomy := ordered
      simpa [DomainSession.completeHandover] using Effect.completed
  | command cmd =>
      obtain rfl : state = .teleopActive := ordered
      by_cases stops : cmd.getMode = some .emergencyStop
      · simpa [DomainSession.command, DomainSession.emergencyStop,
          DomainTeleopInterface.onEmergencyStop, stops] using Effect.stopCommanded stops
      · simpa [DomainSession.command, DomainTeleopInterface.onControlCommand, stops]
          using Effect.commanded
  | emergencyStop =>
      by_cases latched : state = .emergencyStop
      · subst latched
        simpa [DomainSession.emergencyStop] using Effect.alreadyStopped
      · simpa [DomainSession.emergencyStop, DomainTeleopInterface.onEmergencyStop, latched]
          using Effect.stopped latched
  | acknowledgeEmergencyStop =>
      obtain rfl : state = .emergencyStop := ordered
      simpa [DomainSession.acknowledgeEmergencyStop] using Effect.acknowledged
  | domainState => simpa using Effect.looked
  | sensorFeed =>
      simpa [DomainSession.sensorFeed, DomainTeleopInterface.getSensorFeed] using Effect.fed

/-- The session without the log of its adapter. -/
def DomainSession.inner (session : DomainSession (Logged D AdapterCall)) : DomainSession D :=
  ⟨session.adapter.inner, session.state, session.operator⟩

/-- The logs change nothing that a session does. -/
theorem perform_inner (session : DomainSession (Logged D AdapterCall)) (call : Call L) :
    session.inner.perform call =
      ((session.perform call.logged).1.inner, (session.perform call.logged).2.1.map (·.inner),
        (session.perform call.logged).2.2) := by
  obtain ⟨⟨inner, log⟩, state, holder⟩ := session
  cases call with
  | requestAssistance link reason =>
      rcases answered : TeleopLink.requestTeleopAssistance link reason with ⟨_, failure | _⟩ <;>
        cases state <;>
        simp [DomainSession.inner, DomainSession.requestAssistance,
          TeleopLink.requestTeleopAssistance, answered]
  | cancelRequest => cases state <;> simp [DomainSession.inner, DomainSession.cancelRequest]
  | engage operator =>
      rcases answered : DomainTeleopInterface.onTeleopEngage inner operator with
        ⟨_, failure | _⟩ <;>
        cases state <;>
        simp [DomainSession.inner, DomainSession.engage, DomainTeleopInterface.onTeleopEngage,
          answered]
  | disengage =>
      rcases answered : DomainTeleopInterface.onTeleopDisengage inner with ⟨_, failure | _⟩ <;>
        cases state <;>
        simp [DomainSession.inner, DomainSession.disengage,
          DomainTeleopInterface.onTeleopDisengage, answered]
  | completeHandover =>
      cases state <;> simp [DomainSession.inner, DomainSession.completeHandover]
  | command cmd =>
      by_cases stops : cmd.getMode = some .emergencyStop <;>
        cases state <;>
        simp [DomainSession.inner, DomainSession.command, DomainSession.emergencyStop,
          DomainTeleopInterface.onControlCommand, DomainTeleopInterface.onEmergencyStop, stops]
  | emergencyStop =>
      cases state <;>
        simp [DomainSession.inner, DomainSession.emergencyStop,
          DomainTeleopInterface.onEmergencyStop]
  | acknowledgeEmergencyStop =>
      cases state <;> simp [DomainSession.inner, DomainSession.acknowledgeEmergencyStop]
  | domainState => simp [DomainSession.inner]
  | sensorFeed =>
      simp [DomainSession.inner, DomainSession.sensorFeed, DomainTeleopInterface.getSensorFeed]

/-- A call that fails leaves the state and the operator. -/
theorem perform_error {session : DomainSession D} {call : Call L} {failure : DomainError}
    (failed : (session.perform call).2.2 = .error failure) :
    (session.perform call).1.state = session.state ∧
      (session.perform call).1.operator = session.operator := by
  let logged : DomainSession (Logged D AdapterCall) :=
    ⟨⟨session.adapter, []⟩, session.state, session.operator⟩
  have performed : session.perform call = _ := perform_inner logged call
  have refused : (logged.made call).result = .error failure := by
    rw [performed] at failed
    exact failed
  have effect := effect_made logged call
  simp only [performed, DomainSession.inner]
  change (logged.made call).after = (logged.made call).before ∧ _ = logged.operator
  generalize logged.made call = step, (logged.perform call.logged).1.operator = holder' at *
  cases effect <;> first | exact ⟨rfl, rfl⟩ | cases refused

end Effects

end Teleop.Bridge
