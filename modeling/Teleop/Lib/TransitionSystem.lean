import Mathlib.Logic.Relation

/-!
# Labelled transition systems

States, actions and a step relation, with the two ways the developments below
restrict one: to the runs whose steps all meet a condition, and to the runs in
which some kind of step does not occur.  An invariant is proved once for a
single step and then holds in every reachable state.
-/

namespace Teleop.Lib

universe u v

/-- A labelled transition system. -/
structure TransitionSystem (State : Type u) (Action : Type v) where
  initial : State → Prop
  step : State → Action → State → Prop

namespace TransitionSystem

variable {State : Type u} {Action : Type v}

/-- The system of a function that says which actions are enabled and where they lead. -/
def ofNext (initial : State → Prop) (next : State → Action → Option State) :
    TransitionSystem State Action where
  initial := initial
  step state action target := next state action = some target

/-- The system of a function that says where every action leads. -/
def ofTotal (initial : State → Prop) (next : State → Action → State) :
    TransitionSystem State Action where
  initial := initial
  step state action target := next state action = target

/-- Keep only the steps that meet a condition on the state before them. -/
def restrict (system : TransitionSystem State Action) (condition : State → Action → Prop) :
    TransitionSystem State Action where
  initial := system.initial
  step state action target := condition state action ∧ system.step state action target

/-- `system.Execution source actions target`: performing `actions` in order leads from
`source` to `target`. -/
inductive Execution (system : TransitionSystem State Action) :
    State → List Action → State → Prop
  | nil (state : State) : Execution system state [] state
  | cons {source middle target : State} {action : Action} {actions : List Action} :
      system.step source action middle → Execution system middle actions target →
      Execution system source (action :: actions) target

/-- States reached by some run from an initial state. -/
def Reachable (system : TransitionSystem State Action) (state : State) : Prop :=
  ∃ source actions, system.initial source ∧ system.Execution source actions state

theorem Execution.append {system : TransitionSystem State Action}
    {source middle target : State} {first second : List Action}
    (left : system.Execution source first middle)
    (right : system.Execution middle second target) :
    system.Execution source (first ++ second) target := by
  induction left with
  | nil => exact right
  | cons step _ inductionHypothesis => exact .cons step (inductionHypothesis right)

theorem Execution.mono {system other : TransitionSystem State Action}
    (included : ∀ state action target,
      system.step state action target → other.step state action target)
    {source target : State} {actions : List Action}
    (execution : system.Execution source actions target) :
    other.Execution source actions target := by
  induction execution with
  | nil state => exact .nil state
  | cons step _ inductionHypothesis => exact .cons (included _ _ _ step) inductionHypothesis

/-- A property kept by every step is kept by every execution. -/
theorem Execution.preserves {system : TransitionSystem State Action} {P : State → Prop}
    (stepPreserves : ∀ state action target,
      P state → system.step state action target → P target)
    {source target : State} {actions : List Action}
    (execution : system.Execution source actions target) (holds : P source) :
    P target := by
  induction execution with
  | nil => exact holds
  | cons step _ inductionHypothesis => exact inductionHypothesis (stepPreserves _ _ _ holds step)

theorem Reachable.of_initial {system : TransitionSystem State Action} {state : State}
    (start : system.initial state) : system.Reachable state :=
  ⟨state, [], start, .nil state⟩

theorem Reachable.step {system : TransitionSystem State Action} {state target : State}
    {action : Action} (reached : system.Reachable state)
    (step : system.step state action target) : system.Reachable target := by
  obtain ⟨source, actions, start, execution⟩ := reached
  exact ⟨source, actions ++ [action], start, execution.append (.cons step (.nil target))⟩

/-- The invariant rule: true initially and kept by every step, hence true in every
reachable state. -/
theorem Reachable.invariant {system : TransitionSystem State Action} {P : State → Prop}
    (initially : ∀ state, system.initial state → P state)
    (stepPreserves : ∀ state action target,
      P state → system.step state action target → P target)
    {state : State} (reached : system.Reachable state) : P state := by
  obtain ⟨source, actions, start, execution⟩ := reached
  exact execution.preserves stepPreserves (initially source start)

/-- The invariant rule for a step that may use that its source is reachable. -/
theorem Reachable.invariant_of_reachable {system : TransitionSystem State Action}
    {P : State → Prop} (initially : ∀ state, system.initial state → P state)
    (stepPreserves : ∀ state action target, system.Reachable state → P state →
      system.step state action target → P target)
    {state : State} (reached : system.Reachable state) : P state := by
  have both : system.Reachable state ∧ P state := by
    apply reached.invariant (P := fun state => system.Reachable state ∧ P state)
    · intro state start
      exact ⟨.of_initial start, initially state start⟩
    · rintro state action target ⟨before, holds⟩ step
      exact ⟨before.step step, stepPreserves state action target before holds step⟩
  exact both.2

theorem Reachable.of_restrict {system : TransitionSystem State Action}
    {condition : State → Action → Prop} {state : State}
    (reached : (system.restrict condition).Reachable state) : system.Reachable state := by
  obtain ⟨source, actions, start, execution⟩ := reached
  refine ⟨source, actions, start, execution.mono ?_⟩
  intro state action target step
  exact And.right step

/-- Perform a list of actions; `none` as soon as one of them is not enabled. -/
def perform (next : State → Action → Option State) : State → List Action → Option State
  | state, [] => some state
  | state, action :: rest => (next state action).bind (perform next · rest)

theorem perform_cons {next : State → Action → Option State} {source middle : State}
    {action : Action} (stepped : next source action = some middle) (rest : List Action) :
    perform next source (action :: rest) = perform next middle rest := by
  simp [perform, stepped]

/-- A run computed by `perform` is an execution. -/
theorem execution_of_perform {initial : State → Prop} {next : State → Action → Option State}
    {actions : List Action} {source target : State}
    (performed : perform next source actions = some target) :
    (ofNext initial next).Execution source actions target := by
  induction actions generalizing source with
  | nil =>
      simp only [perform, Option.some.injEq] at performed
      subst performed
      exact .nil source
  | cons action rest inductionHypothesis =>
      obtain ⟨middle, stepped, remaining⟩ := Option.bind_eq_some_iff.mp performed
      exact .cons stepped (inductionHypothesis remaining)

theorem reachable_of_perform {initial : State → Prop} {next : State → Action → Option State}
    {actions : List Action} {source target : State} (start : initial source)
    (performed : perform next source actions = some target) :
    (ofNext initial next).Reachable target :=
  ⟨source, actions, start, execution_of_perform performed⟩

/-- A run computed by `perform` that checks every step stays in the restricted system. -/
theorem reachable_restrict_of_perform {initial : State → Prop}
    {next : State → Action → Option State} {condition : State → Action → Prop}
    [∀ state, DecidablePred (condition state)] {actions : List Action} {source target : State}
    (start : initial source)
    (performed : perform (fun state action => if condition state action then next state action else none)
      source actions = some target) :
    ((ofNext initial next).restrict condition).Reachable target := by
  refine ⟨source, actions, start, ?_⟩
  clear start
  induction actions generalizing source with
  | nil =>
      simp only [perform, Option.some.injEq] at performed
      subst performed
      exact .nil source
  | cons action rest inductionHypothesis =>
      obtain ⟨middle, stepped, remaining⟩ := Option.bind_eq_some_iff.mp performed
      dsimp only at stepped
      split at stepped
      · rename_i passes
        exact .cons ⟨passes, stepped⟩ (inductionHypothesis remaining)
      · cases stepped

/-- A run of a total system is a fold. -/
theorem reachable_foldl (initial : State → Prop) (next : State → Action → State)
    {source : State} (start : initial source) (actions : List Action) :
    (ofTotal initial next).Reachable (actions.foldl next source) := by
  refine ⟨source, actions, start, ?_⟩
  clear start
  induction actions generalizing source with
  | nil => exact .nil source
  | cons action rest inductionHypothesis => exact .cons rfl inductionHypothesis

end TransitionSystem

end Teleop.Lib
