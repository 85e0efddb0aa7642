import Teleop.Core.Threads

/-!
# The emergency-stop latch

Once a `force_emergency_stop` call has returned, the stored mode should stay
the emergency stop until an acknowledging `try_transition(Assist)`, one that
itself read the emergency stop, performs its store.  The load and the store of
a transition are two steps, so a transition that loaded an earlier mode can
still overwrite the stop.  Without such a race the latch holds.
-/

namespace Teleop.Core.Threads

open Teleop.Lib

/-- The store of a `try_transition(Assist)` call that read the emergency stop. -/
def Acknowledges (state : State) (action : Action) : Prop :=
  ∃ id, action = .store id ∧
    state.calls id = some ⟨.tryTransition .assist, .loaded .emergencyStop⟩

/-- A `force_emergency_stop` call returns with this step. -/
def ForceReturns (state : State) (target : State) : Prop :=
  ∃ id progress source, state.calls id = some ⟨.forceEmergencyStop, progress⟩ ∧
    (∀ result, progress ≠ .returned result) ∧
    target.calls id = some ⟨.forceEmergencyStop, .returned (.ok source)⟩

/-- The latch at one state of a system of threads.  When a `force_emergency_stop` call returns
from here the mode is the emergency stop and stays so in every continuation without an
acknowledging store; and no other step from here replaces a stored emergency stop. -/
def LatchHolds (system : TransitionSystem State Action) (state : State) : Prop :=
  (∀ action target, system.step state action target → ForceReturns state target →
      target.current = .emergencyStop ∧
      ∀ actions final,
        (system.restrict fun state action => ¬ Acknowledges state action).Execution
          target actions final →
        final.current = .emergencyStop) ∧
  ∀ action target, system.step state action target → state.current = .emergencyStop →
    target.current ≠ .emergencyStop → Acknowledges state action

/-- A transition towards another mode than the emergency stop, whose load read another
mode than the emergency stop and whose store is still outstanding. -/
def PendingTransition (state : State) (id : Nat) : Prop :=
  ∃ target source, state.calls id = some ⟨.tryTransition target, .loaded source⟩ ∧
    target ≠ .emergencyStop ∧ source ≠ .emergencyStop

/-- The step does not store the emergency stop while a transition is pending. -/
def StopsWithoutRace (state : State) (action : Action) : Prop :=
  ∀ id operation source, action = .store id →
    state.calls id = some ⟨operation, .loaded source⟩ → operation.target = .emergencyStop →
    ∀ other, ¬ PendingTransition state other

/-- While the emergency stop is stored, no transition is pending. -/
def NoneStale (state : State) : Prop :=
  state.current = .emergencyStop → ∀ id, ¬ PendingTransition state id

/-- A load of the emergency stop never leaves a pending transition behind. -/
theorem not_pending_of_afterLoad {operation : Operation} {target source : Mode}
    (same : operation = .tryTransition target)
    (loaded : afterLoad .emergencyStop operation = .loaded source) : source = .emergencyStop := by
  subst same
  simp only [afterLoad] at loaded
  split at loaded <;> cases loaded
  rfl

theorem noneStale_start : NoneStale start := by
  intro stopped
  simp [start, State.current] at stopped

theorem noneStale_step {state target : State} {action : Action}
    (noneStale : NoneStale state) (safe : StopsWithoutRace state action)
    (stepped : next state action = some target) : NoneStale target := by
  rcases next_cases stepped with
    ⟨id, operation, rfl, fresh, rfl⟩ | ⟨id, operation, rfl, waiting, rfl⟩ |
      ⟨id, operation, source, rfl, waiting, rfl⟩
  · intro stopped other pending
    rcases eq_or_ne other id with rfl | distinct
    · simp [PendingTransition] at pending
    · exact noneStale stopped other (by
        simpa [PendingTransition, State.setCall_of_ne _ _ distinct] using pending)
  · intro stopped other pending
    rcases eq_or_ne other id with rfl | distinct
    · obtain ⟨target, source, call, _, sourceRunning⟩ := pending
      simp only [State.setCall_self, Option.some.injEq, Call.mk.injEq] at call
      have stopped' : state.current = .emergencyStop := stopped
      rw [stopped'] at call
      exact sourceRunning (not_pending_of_afterLoad call.1 call.2)
    · exact noneStale stopped other (by
        simpa [PendingTransition, State.setCall_of_ne _ _ distinct] using pending)
  · intro stopped other pending
    have stores : operation.target = .emergencyStop := by simpa [State.current] using stopped
    rcases eq_or_ne other id with rfl | distinct
    · simp [PendingTransition] at pending
    · exact safe id operation source rfl waiting stores other (by
        simpa [PendingTransition, State.setCall_of_ne _ _ distinct] using pending)

theorem noneStale_of_reachable {state : State}
    (reached : (threads.restrict StopsWithoutRace).Reachable state) : NoneStale state := by
  refine reached.invariant ?_ ?_
  · rintro _ rfl
    exact noneStale_start
  · rintro before action after noneStale ⟨safe, stepped⟩
    exact noneStale_step noneStale safe stepped

/-- A loaded call whose table check passed on the emergency stop heads for `assist` or
for the emergency stop; this needs the calls to have gone through `afterLoad`. -/
def LoadsChecked (state : State) : Prop :=
  ∀ id target source, state.calls id = some ⟨.tryTransition target, .loaded source⟩ →
    TransitionTable.specDefault.allows source target = true

theorem loadsChecked_step {state target : State} {action : Action}
    (checked : LoadsChecked state) (stepped : next state action = some target) :
    LoadsChecked target := by
  intro other goal source call
  rcases next_cases stepped with
    ⟨id, operation, rfl, fresh, rfl⟩ | ⟨id, operation, rfl, waiting, rfl⟩ |
      ⟨id, operation, _, rfl, waiting, rfl⟩
  all_goals rcases eq_or_ne other id with rfl | distinct
  · simp at call
  · exact checked other goal source (by rwa [State.setCall_of_ne _ _ distinct] at call)
  · simp only [State.setCall_self, Option.some.injEq, Call.mk.injEq] at call
    obtain ⟨rfl, loaded⟩ := call
    cases allowed : TransitionTable.specDefault.allows state.current goal with
    | false => simp [afterLoad, allowed] at loaded
    | true =>
        simp only [afterLoad, allowed, Bool.not_true, Bool.false_eq_true, if_false,
          Progress.loaded.injEq] at loaded
        rw [← loaded]
        exact allowed
  · exact checked other goal source (by rwa [State.setCall_of_ne _ _ distinct] at call)
  · simp at call
  · exact checked other goal source (by
      simpa [State.setCall_of_ne _ _ distinct] using call)

theorem loadsChecked_of_reachable {state : State} (reached : threads.Reachable state) :
    LoadsChecked state := by
  refine reached.invariant ?_ fun _ _ _ => loadsChecked_step
  rintro _ rfl id target source call
  cases call

/-- A step that replaces a stored emergency stop is the store of a transition, and of one
that was pending unless it acknowledges. -/
theorem replaces_emergencyStop {state target : State} {action : Action}
    (checked : LoadsChecked state) (stepped : next state action = some target)
    (stopped : state.current = .emergencyStop) (replaced : target.current ≠ .emergencyStop) :
    Acknowledges state action ∨ ∃ id, action = .store id ∧ PendingTransition state id := by
  rcases next_cases stepped with
    ⟨id, operation, rfl, fresh, rfl⟩ | ⟨id, operation, rfl, waiting, rfl⟩ |
      ⟨id, operation, source, rfl, waiting, rfl⟩
  · exact absurd stopped replaced
  · exact absurd stopped replaced
  · have leaves : operation.target ≠ .emergencyStop := by simpa [State.current] using replaced
    cases operation with
    | forceEmergencyStop => exact absurd rfl leaves
    | tryTransition goal =>
        by_cases fromStop : source = .emergencyStop
        · subst fromStop
          rcases TransitionTable.target_of_emergencyStop (checked id goal _ waiting) with
            rfl | rfl
          · exact absurd rfl leaves
          · exact .inl ⟨id, rfl, waiting⟩
        · exact .inr ⟨id, rfl, goal, source, waiting, leaves, fromStop⟩

/-- A call that returns in a step made that step. -/
theorem eq_of_returns {state : State} {id call : Nat} {written : Call} {operation : Operation}
    {progress : Progress} {result : Except ModeError Mode}
    (before : state.calls call = some ⟨operation, progress⟩)
    (running : progress ≠ .returned result)
    (after : (state.setCall id written).calls call = some ⟨operation, .returned result⟩) :
    call = id := by
  by_contra distinct
  rw [State.setCall_of_ne _ _ distinct, before] at after
  simp only [Option.some.injEq, Call.mk.injEq, true_and] at after
  exact running after

/-- The call returns having stored the emergency stop or having read it. -/
theorem stopped_of_forceReturns {state target : State} {action : Action}
    (stepped : next state action = some target) (returns : ForceReturns state target) :
    target.current = .emergencyStop := by
  obtain ⟨call, progress, result, before, running, after⟩ := returns
  rcases next_cases stepped with
    ⟨id, operation, rfl, fresh, rfl⟩ | ⟨id, operation, rfl, waiting, rfl⟩ |
      ⟨id, operation, source, rfl, waiting, rfl⟩
  · obtain rfl := eq_of_returns before (running _) after
    rw [fresh] at before
    cases before
  · obtain rfl := eq_of_returns before (running _) after
    rw [waiting] at before
    simp only [Option.some.injEq, Call.mk.injEq] at before
    obtain ⟨rfl, rfl⟩ := before
    simp only [State.setCall_self, Option.some.injEq, Call.mk.injEq, true_and, afterLoad] at after
    split at after
    · assumption
    · cases after
  · obtain rfl := eq_of_returns before (running _) after
    rw [waiting] at before
    simp only [Option.some.injEq, Call.mk.injEq] at before
    obtain ⟨rfl, rfl⟩ := before
    simp [State.current, Operation.target]

/-- The store of a pending transition is enabled, replaces the stop and acknowledges nothing. -/
theorem pending_store_replaces {state : State} {id : Nat} (pending : PendingTransition state id) :
    ∃ target, next state (.store id) = some target ∧ target.current ≠ .emergencyStop ∧
      ¬ Acknowledges state (.store id) := by
  obtain ⟨goal, source, waiting, leaves, running⟩ := pending
  refine ⟨_, next_store waiting, by simpa [State.current, Operation.target] using leaves, ?_⟩
  rintro ⟨other, same, acknowledging⟩
  cases same
  rw [waiting] at acknowledging
  cases acknowledging
  exact running rfl

/-- In every run that never stores the emergency stop while a transition is pending, the
latch holds.  The condition cannot be relaxed: where the emergency stop is stored in a
reachable state, every step respects the latch exactly when no transition is pending. -/
theorem emergencyStop_latches_without_race (state : State)
    (reached : (threads.restrict StopsWithoutRace).Reachable state) :
    LatchHolds (threads.restrict StopsWithoutRace) state ∧
    ∀ other, threads.Reachable other → other.current = .emergencyStop →
      ((∀ action target, threads.step other action target →
          target.current ≠ .emergencyStop → Acknowledges other action) ↔
        ∀ id, ¬ PendingTransition other id) := by
  have kept : ∀ state action target, (threads.restrict StopsWithoutRace).Reachable state →
      threads.step state action target → state.current = .emergencyStop →
      target.current ≠ .emergencyStop → Acknowledges state action := by
    intro state action target reached stepped stopped replaced
    have checked := loadsChecked_of_reachable reached.of_restrict
    rcases replaces_emergencyStop checked stepped stopped replaced with
      acknowledged | ⟨id, rfl, pending⟩
    · exact acknowledged
    · exact absurd pending (noneStale_of_reachable reached stopped id)
  refine ⟨⟨?_, ?_⟩, ?_⟩
  · intro action target step returns
    have stopped := stopped_of_forceReturns step.2 returns
    refine ⟨stopped, ?_⟩
    intro actions final execution
    -- the continuation keeps "reachable and stopped", since only an acknowledgement ends it
    have continued := execution.preserves
      (P := fun state => (threads.restrict StopsWithoutRace).Reachable state ∧
        state.current = .emergencyStop) ?_ ⟨reached.step step, stopped⟩
    · exact continued.2
    · rintro before action after ⟨reachedBefore, stoppedBefore⟩ ⟨quiet, stepBefore⟩
      refine ⟨reachedBefore.step stepBefore, ?_⟩
      by_contra replaced
      exact quiet (kept before action after reachedBefore stepBefore.2 stoppedBefore replaced)
  · rintro action target ⟨_, stepped⟩ stopped replaced
    exact kept state action target reached stepped stopped replaced
  · intro other reached stopped
    constructor
    · intro latched id pending
      obtain ⟨target, stepped, replaced, quiet⟩ := pending_store_replaces pending
      exact quiet (latched (.store id) target stepped replaced)
    · intro nonePending action target stepped replaced
      rcases replaces_emergencyStop (loadsChecked_of_reachable reached) stepped stopped replaced with
        acknowledged | ⟨id, rfl, pending⟩
      · exact acknowledged
      · exact absurd pending (nonePending id)

/-- One thread goes from `auto` to `assist` while another is on its way to force the emergency
stop, which it then stores. -/
def undisturbed : List Action :=
  [.call 0 (.tryTransition .assist), .call 1 .forceEmergencyStop, .load 0, .load 1, .store 0,
    .store 1]

theorem reachable_next {state target : State} (action : Action)
    (reached : (threads.restrict StopsWithoutRace).Reachable state)
    (safe : StopsWithoutRace state action) (stepped : next state action = some target) :
    (threads.restrict StopsWithoutRace).Reachable target :=
  reached.step ⟨safe, stepped⟩

/-- Calls and loads are without a race. -/
theorem stopsWithoutRace_of_quiet {state : State} {action : Action}
    (quiet : ∀ id, action ≠ .store id) : StopsWithoutRace state action :=
  fun id _ _ same => absurd same (quiet id)

theorem undisturbed_reachable : ∃ stopped,
    TransitionSystem.perform next start undisturbed = some stopped ∧
      (threads.restrict StopsWithoutRace).Reachable stopped := by
  have initially : (threads.restrict StopsWithoutRace).Reachable start := .of_initial rfl
  have transits := reachable_next (.call 0 (.tryTransition .assist)) initially
    (stopsWithoutRace_of_quiet nofun) rfl
  have forces := reachable_next (.call 1 .forceEmergencyStop) transits
    (stopsWithoutRace_of_quiet nofun) rfl
  have loads := reachable_next (.load 0) forces (stopsWithoutRace_of_quiet nofun) rfl
  have checks := reachable_next (.load 1) loads (stopsWithoutRace_of_quiet nofun) rfl
  refine ⟨_, rfl, reachable_next (.store 1) (reachable_next (.store 0) checks ?_ rfl) ?_ rfl⟩
  · rintro _ operation source ⟨⟩ ⟨⟩ ⟨⟩
  · rintro _ operation source ⟨⟩ - - other ⟨goal, read, waiting, -⟩
    match other with
    | 0 | 1 => cases waiting
    | _ + 2 => cases waiting

/-- The forced stop is stored and latched. -/
theorem undisturbed_latches :
    ∃ stopped, TransitionSystem.perform next start undisturbed = some stopped ∧
      stopped.current = .emergencyStop ∧
      LatchHolds (threads.restrict StopsWithoutRace) stopped := by
  obtain ⟨stopped, performed, reached⟩ := undisturbed_reachable
  refine ⟨stopped, performed, ?_, (emergencyStop_latches_without_race stopped reached).1⟩
  cases performed
  decide

/-- One thread loads `auto` on its way to `assist`; another forces the emergency stop and
returns; the first then stores `assist`. -/
def overtakenStop : List Action :=
  [.call 0 (.tryTransition .assist), .load 0, .call 1 .forceEmergencyStop, .load 1, .store 1]

theorem emergencyStop_overwritten :
    ∃ state, threads.Reachable state ∧ ¬ LatchHolds threads state := by
  obtain ⟨stopped, performed⟩ : ∃ stopped,
      TransitionSystem.perform next start overtakenStop = some stopped :=
    Option.isSome_iff_exists.mp (by decide)
  have reached : threads.Reachable stopped := TransitionSystem.reachable_of_perform rfl performed
  have pending : PendingTransition stopped 0 := by
    cases performed
    exact ⟨.assist, .auto, rfl, by decide, by decide⟩
  have isStopped : stopped.current = .emergencyStop := by
    cases performed
    decide
  obtain ⟨target, stepped, replaced, quiet⟩ := pending_store_replaces pending
  refine ⟨stopped, reached, ?_⟩
  intro latches
  exact quiet (latches.2 (.store 0) target stepped isStopped replaced)

end Teleop.Core.Threads
