import Teleop.Bridge.SessionLifecycle
import Teleop.Core.Machine
import Teleop.Lib.Walk

/-!
# The core mode along a domain session

The mode of a session after each call, against the table of the core machine.  The lifecycle
lets an operator engage straight out of a request, where the core machine stages through
`assist`; everywhere else the two agree.
-/

namespace Teleop.Core.StateMachine

/-- Follow a sequence of modes with their times, up to the first that is refused. -/
def follow (machine : StateMachine) : List (Mode × UInt64) → StateMachine × Except ModeError Unit
  | [] => (machine, .ok ())
  | (target, atUnixNs) :: rest =>
      match machine.tryTransition target atUnixNs with
      | (machine, .error refused) => (machine, .error refused)
      | (machine, .ok _) => machine.follow rest

end Teleop.Core.StateMachine

namespace Teleop.Bridge

open Teleop.Core Teleop.Link Teleop.Lib

/-- An edge of the default table. -/
def Allowed (source target : Mode) : Prop := TransitionTable.specDefault.allows source target = true

instance (source target : Mode) : Decidable (Allowed source target) :=
  inferInstanceAs (Decidable (_ = true))

/-- A machine with the default table follows exactly the walks from its mode. -/
theorem follow_ok_iff {machine : StateMachine} (rules : machine.rules = .specDefault)
    (visited : List (Mode × UInt64)) :
    (machine.follow visited).2 = .ok () ↔
      ∃ finish, Walk Allowed machine.current (visited.map (·.1)) finish := by
  induction visited generalizing machine with
  | nil => simpa [StateMachine.follow] using ⟨machine.current, .nil _⟩
  | cons next rest inductionHypothesis =>
      obtain ⟨target, atUnixNs⟩ := next
      rcases machine.tryTransition_cases target atUnixNs with ⟨refused, answer⟩ | ⟨allowed, answer⟩
      · rw [rules] at refused
        constructor
        · intro followed
          simp [StateMachine.follow, answer] at followed
        · rintro ⟨finish, walk⟩
          cases walk with
          | cons joined _ => exact absurd (joined.symm.trans refused) Bool.noConfusion
      · rw [rules] at allowed
        have commit : (machine.commit machine.current target atUnixNs).rules = .specDefault := rules
        rw [StateMachine.follow, answer, inductionHypothesis commit, StateMachine.commit_current]
        constructor
        · rintro ⟨finish, walk⟩
          exact ⟨finish, .cons allowed walk⟩
        · rintro ⟨finish, walk⟩
          cases walk with
          | cons _ remaining => exact ⟨finish, remaining⟩

namespace Step

variable {L : Type}

/-- The change of mode a call makes, if any. -/
def changes (step : Step L) : List Mode :=
  if step.after.toMode = step.before.toMode then [] else [step.after.toMode]

/-- An operator engages straight out of the request. -/
def Direct (step : Step L) : Prop :=
  step.before = .requestingTeleop ∧ step.after = .teleopActive

instance (step : Step L) : Decidable step.Direct := inferInstanceAs (Decidable (_ ∧ _))

/-- The change of mode with a direct engagement staged through `assist`. -/
def stages (step : Step L) : List Mode :=
  if step.Direct then [.assist, .fullTeleop] else step.changes

end Step

namespace Effect

variable {L : Type} {holder holder' : Option OperatorId} {step : Step L}

/-- Every change of mode other than a direct engagement is an edge of the table. -/
theorem allowed (effect : Effect holder step holder')
    (changed : step.after.toMode ≠ step.before.toMode) (staged : ¬ step.Direct) :
    Allowed step.before.toMode step.after.toMode := by
  cases effect with
  | engaged released =>
      rcases released with rfl | rfl
      · exact absurd ⟨rfl, rfl⟩ staged
      · rfl
  | @stopped state _ => cases state <;> rfl
  | _ => first | exact absurd rfl changed | rfl

theorem walk_changes (effect : Effect holder step holder') (staged : ¬ step.Direct) :
    Walk Allowed step.before.toMode step.changes step.after.toMode := by
  unfold Step.changes
  split
  case isTrue same => exact same ▸ .nil _
  case isFalse changed => exact .single (effect.allowed changed staged)

theorem walk_stages (effect : Effect holder step holder') :
    Walk Allowed step.before.toMode step.stages step.after.toMode := by
  unfold Step.stages
  split
  case isTrue direct =>
      rw [direct.1, direct.2]
      exact .cons rfl (.single rfl)
  case isFalse staged => exact effect.walk_changes staged

/-- A direct engagement is a successful call to engage. -/
theorem engaged_of_direct (effect : Effect holder step holder') (direct : step.Direct) :
    ∃ operator, step.call = .engage operator ∧ step.result = .ok () := by
  have moved : step.before ≠ step.after := by simp [direct.1, direct.2]
  cases effect with
  | @engaged operator _ _ => exact ⟨operator, rfl, rfl⟩
  | _ => simp_all [Step.Direct]

end Effect

/-- The direct edge from `auto` to `fullTeleop` is not in the table. -/
theorem not_walk_of_direct {L : Type} {step : Step L} (direct : step.Direct) (finish : Mode) :
    ¬ Walk Allowed step.before.toMode step.changes finish := by
  rw [Step.changes, direct.1, direct.2]
  intro walk
  exact absurd (Walk.single_iff.mp walk).1 (by decide)

section Runs

variable {D DomainState SensorFeed L : Type} [DomainTeleopInterface D DomainState SensorFeed]
  [TeleopLink L]

namespace History

/-- The mode of a new session, then after each call. -/
def modes (history : History D L) : List Mode :=
  .auto :: history.steps.map (·.after.toMode)

def changes (history : History D L) : List Mode := history.steps.flatMap Step.changes

def stages (history : History D L) : List Mode := history.steps.flatMap Step.stages

end History

theorem mode_eq {history : History D L} (reached : (History.system D L).Reachable history) :
    history.session.mode = (history.steps.map (·.after.toMode)).getLast?.getD .auto := by
  rw [DomainSession.mode, (Lifecycle.reachable reached).chained.1, List.getLast?_map]
  cases history.steps.getLast? <;> rfl

/-- The mode of the core machine follows the session's, where direct engagements are staged. -/
structure ModeRefinement (history : History D L) : Prop where
  edges : ∀ step ∈ history.steps, step.after.toMode = step.before.toMode ∨
    Allowed step.before.toMode step.after.toMode ∨
    step.Direct ∧ ∃ operator, step.call = .engage operator ∧ step.result = .ok ()
  changes : history.modes.destutter (· ≠ ·) = .auto :: history.changes
  last : history.session.mode = history.changes.getLast?.getD .auto
  staged : Walk Allowed .auto history.stages history.session.mode
  direct : Walk Allowed .auto history.changes history.session.mode ↔
    ∀ step ∈ history.steps, ¬ step.Direct

namespace ModeRefinement

omit [TeleopLink L] in
theorem initial {history : History D L} (start : History.Initial history) :
    ModeRefinement history := by
  obtain ⟨inner, rfl⟩ := start
  constructor
  case edges => simp
  case changes => rfl
  case last => rfl
  case staged => exact .nil _
  case direct => simpa using .nil _

theorem make {history : History D L} (reached : (History.system D L).Reachable history)
    (holds : ModeRefinement history) (call : Call L) : ModeRefinement (history.make call) := by
  have effect := effect_made history.session call
  have before : (history.session.made call).before.toMode = history.session.mode := rfl
  have after : (history.make call).session.mode = (history.session.made call).after.toMode := rfl
  have modes := mode_eq reached
  have split : (history.make call).changes =
      history.changes ++ (history.session.made call).changes := by
    simp [History.changes, History.make]
  constructor
  case edges =>
    intro step among
    rcases List.mem_append.mp among with old | new
    · exact holds.edges step old
    · obtain rfl := List.mem_singleton.mp new
      by_cases same : (history.session.made call).after.toMode =
        (history.session.made call).before.toMode
      · exact .inl same
      by_cases direct : (history.session.made call).Direct
      · exact .inr (.inr ⟨direct, effect.engaged_of_direct direct⟩)
      · exact .inr (.inl (effect.allowed same direct))
  case changes =>
    have earlier := holds.changes
    simp only [History.modes, History.changes, History.make, List.map_append, List.flatMap_append,
      List.map_cons, List.map_nil, List.flatMap_cons, List.flatMap_nil, List.append_nil] at earlier ⊢
    rw [destutter_concat, earlier, ← modes, ← before, List.cons_append, Step.changes]
  case last =>
    rw [split, after, Step.changes, before]
    split
    case isTrue same => rw [same, List.append_nil, holds.last]
    case isFalse => simp
  case staged =>
    have walk := holds.staged.append (before ▸ effect.walk_stages)
    rw [after]
    simpa [History.stages, History.make] using walk
  case direct =>
    have among : ∀ step ∈ history.steps, step ∈ (history.make call).steps :=
      fun step => List.mem_append_left _
    rw [split, Walk.append_iff]
    constructor
    · rintro ⟨middle, first, second⟩
      obtain rfl : middle = history.session.mode := first.finish_eq.trans holds.last.symm
      intro step made
      rcases List.mem_append.mp made with old | new
      · exact holds.direct.mp first step old
      · obtain rfl := List.mem_singleton.mp new
        intro direct
        exact not_walk_of_direct direct _ second
    · intro staged
      refine ⟨history.session.mode, ?_, ?_⟩
      · exact holds.direct.mpr fun step old => staged step (among step old)
      · rw [after, ← before]
        exact effect.walk_changes (staged _ (List.mem_append_right _ List.mem_cons_self))

theorem reachable {history : History D L}
    (reached : (History.system D L).Reachable history) : ModeRefinement history := by
  apply reached.invariant_of_reachable
  · intro history start
    exact initial start
  · intro history call after visited holds made
    exact Option.some.inj made ▸ make visited holds call

end ModeRefinement

/-- A machine that mirrors the modes of a session is refused at the direct engagements and
nowhere else; where it stages each of them through `assist` it is never refused. -/
theorem session_refines_mode_machine {history : History D L}
    (reached : (History.system D L).Reachable history) :
    (∀ step ∈ history.steps, step.after.toMode = step.before.toMode ∨
      Allowed step.before.toMode step.after.toMode ∨
      step.Direct ∧ ∃ operator, step.call = .engage operator ∧ step.result = .ok ()) ∧
    history.modes.destutter (· ≠ ·) = .auto :: history.changes ∧
    (∀ (machine : StateMachine) (visited : List (Mode × UInt64)),
      machine.rules = .specDefault → machine.current = .auto →
      (visited.map (·.1) = history.stages → (machine.follow visited).2 = .ok ()) ∧
      (visited.map (·.1) = history.changes →
        ((machine.follow visited).2 = .ok () ↔ ∀ step ∈ history.steps, ¬ step.Direct))) ∧
    Walk Allowed .auto history.stages history.session.mode := by
  have refinement := ModeRefinement.reachable reached
  refine ⟨refinement.edges, refinement.changes, ?_, refinement.staged⟩
  intro machine visited rules start
  rw [follow_ok_iff rules, start]
  constructor
  · rintro same
    exact ⟨_, same ▸ refinement.staged⟩
  · intro same
    rw [same, ← refinement.direct]
    constructor
    · rintro ⟨finish, walk⟩
      exact (walk.finish_eq.trans refinement.last.symm) ▸ walk
    · intro walk
      exact ⟨_, walk⟩

theorem session_refines_mode_machine_mock :
    (StateMachine.new.follow [(.assist, 1), (.fullTeleop, 1), (.emergencyStop, 2),
      (.assist, 3)]).2 = .ok () :=
  ((session_refines_mode_machine (reachable_mock mockCalls)).2.2.1 _ _ rfl rfl).1 rfl

/-- A request and an engagement: the modes jump from `auto` to `fullTeleop`, which the core
machine refuses. -/
theorem direct_engagement_refused :
    (History.system MockAdapter MockLink).Reachable (mockStart.run (mockCalls.take 3)) ∧
      (mockStart.run (mockCalls.take 3)).modes.destutter (· ≠ ·) = [.auto, .fullTeleop] ∧
      ¬ Allowed .auto .fullTeleop ∧
      (StateMachine.new.tryTransition .fullTeleop 0).2 = .error (.disallowed .auto .fullTeleop) := by
  exact ⟨reachable_mock _, rfl, by decide, rfl⟩

end Runs

end Teleop.Bridge
