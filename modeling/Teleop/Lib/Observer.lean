import Mathlib.Data.List.Basic

/-!
# Machines that answer, and what one observer sees of them

A run of such a machine is a list of events with their answers.  An observer deals
with a part of the machine, its view: an event is an access to the view, or leaves it
alone.  What the observer sees of a run then depends on the accesses in it only, and two
runs with the same accesses look the same.
-/

namespace Teleop.Lib

universe u v w x y z

/-- Each step answers an event; `none` when the event is not possible. -/
structure Machine (State : Type u) (Event : Type v) (Answer : Type w) where
  step : State → Event → Option (State × Answer)

namespace Machine

variable {State : Type u} {Event : Type v} {Answer : Type w}

/-- Feed the events in order; the answers are logged beside them. -/
def run (machine : Machine State Event Answer) :
    State → List Event → Option (State × List (Event × Answer))
  | state, [] => some (state, [])
  | state, event :: rest =>
      match machine.step state event with
      | none => none
      | some (next, answer) =>
          match run machine next rest with
          | none => none
          | some (final, log) => some (final, (event, answer) :: log)

variable {machine : Machine State Event Answer}

theorem run_cons_eq_some {state final : State} {event : Event} {rest : List Event}
    {log : List (Event × Answer)} (ran : machine.run state (event :: rest) = some (final, log)) :
    ∃ next answer later, machine.step state event = some (next, answer) ∧
      machine.run next rest = some (final, later) ∧ log = (event, answer) :: later := by
  unfold run at ran
  split at ran
  · cases ran
  · rename_i next answer stepped
    split at ran
    · cases ran
    · rename_i last later continued
      cases ran
      exact ⟨next, answer, later, stepped, continued, rfl⟩

theorem run_cons {state next final : State} {event : Event} {rest : List Event}
    {answer : Answer} {later : List (Event × Answer)}
    (stepped : machine.step state event = some (next, answer))
    (continued : machine.run next rest = some (final, later)) :
    machine.run state (event :: rest) = some (final, (event, answer) :: later) := by
  simp only [run, stepped, continued]

theorem run_append {state middle final : State} {first second : List Event}
    {early late : List (Event × Answer)} (left : machine.run state first = some (middle, early))
    (right : machine.run middle second = some (final, late)) :
    machine.run state (first ++ second) = some (final, early ++ late) := by
  induction first generalizing state early with
  | nil =>
      cases left
      exact right
  | cons event rest inductionHypothesis =>
      obtain ⟨next, answer, later, stepped, continued, rfl⟩ := run_cons_eq_some left
      exact run_cons stepped (inductionHypothesis continued)

end Machine

/-- What an event means to the observer's view, and what he reads off an answer. -/
structure Observer (Event : Type v) (Answer : Type w) (Access : Type x) (Seen : Type y) where
  access : Event → Option Access
  seen : Event × Answer → Option Seen

/-- Allowed runs from the two states that contain the same accesses look the same to the two
observers. -/
def LooksSame {State : Type u} {Event : Type v} {Answer : Type w} {Access : Type x}
    {Seen : Type y} (machine : Machine State Event Answer) (allowed : List Event → Prop)
    (left : State) (observer : Observer Event Answer Access Seen)
    (right : State) (other : Observer Event Answer Access Seen) : Prop :=
  ∀ events events' l r log log', allowed events → allowed events' →
    machine.run left events = some (l, log) → machine.run right events' = some (r, log') →
    events.filterMap observer.access = events'.filterMap other.access →
      log.filterMap observer.seen = log'.filterMap other.seen

/-- Serve accesses to a view in order, collecting what is seen. -/
def serveAll {View : Type z} {Access : Type x} {Seen : Type y}
    (serve : View → Access → View × Option Seen) : View → List Access → View × List Seen
  | view, [] => (view, [])
  | view, access :: rest =>
      let (next, seen) := serve view access
      let (final, later) := serveAll serve next rest
      (final, seen.toList ++ later)

section Explains

variable {State : Type u} {Event : Type v} {Answer : Type w} {Access : Type x} {Seen : Type y}
  {View : Type z}

/-- The view accounts for everything the observer sees: hidden events leave it alone, the
others are served by it.  `within` bounds the states for which this holds; a state within
the bounds has only such states before it. -/
structure Explains (machine : Machine State Event Answer)
    (observer : Observer Event Answer Access Seen) (serve : View → Access → View × Option Seen)
    (within : State → Prop) (relates : State → View → Prop) : Prop where
  earlier : ∀ {state target event answer},
    machine.step state event = some (target, answer) → within target → within state
  hidden : ∀ {state target view event answer}, relates state view →
    machine.step state event = some (target, answer) → within target →
    observer.access event = none → relates target view ∧ observer.seen (event, answer) = none
  served : ∀ {state target view event answer access}, relates state view →
    machine.step state event = some (target, answer) → within target →
    observer.access event = some access →
      relates target (serve view access).1 ∧ observer.seen (event, answer) = (serve view access).2

variable {machine : Machine State Event Answer} {observer : Observer Event Answer Access Seen}
  {serve : View → Access → View × Option Seen} {within : State → Prop}
  {relates : State → View → Prop}

theorem Explains.within_start (explains : Explains machine observer serve within relates)
    {state final : State} {events : List Event} {log : List (Event × Answer)}
    (ran : machine.run state events = some (final, log)) (inside : within final) :
    within state := by
  induction events generalizing state log with
  | nil =>
      cases ran
      exact inside
  | cons event rest inductionHypothesis =>
      obtain ⟨next, answer, later, stepped, continued, _⟩ := Machine.run_cons_eq_some ran
      exact explains.earlier stepped (inductionHypothesis continued)

/-- After a run the view has served the accesses in it, and the observer has seen what the
view answered. -/
theorem Explains.run (explains : Explains machine observer serve within relates)
    {state final : State} {view : View} {events : List Event} {log : List (Event × Answer)}
    (related : relates state view) (ran : machine.run state events = some (final, log))
    (inside : within final) :
    relates final (serveAll serve view (events.filterMap observer.access)).1 ∧
      log.filterMap observer.seen =
        (serveAll serve view (events.filterMap observer.access)).2 := by
  induction events generalizing state view log with
  | nil =>
      cases ran
      exact ⟨related, rfl⟩
  | cons event rest inductionHypothesis =>
      obtain ⟨next, answer, later, stepped, continued, rfl⟩ := Machine.run_cons_eq_some ran
      have between := explains.within_start continued inside
      cases access : observer.access event with
      | none =>
          obtain ⟨still, unseen⟩ := explains.hidden related stepped between access
          obtain ⟨reached, same⟩ := inductionHypothesis still continued
          rw [List.filterMap_cons_none access, List.filterMap_cons_none unseen]
          exact ⟨reached, same⟩
      | some accessed =>
          obtain ⟨moved, answered⟩ := explains.served related stepped between access
          obtain ⟨reached, same⟩ := inductionHypothesis moved continued
          rw [List.filterMap_cons_some access]
          refine ⟨reached, ?_⟩
          change _ = (serve view accessed).2.toList ++ _
          rw [← same, ← answered]
          cases shown : observer.seen (event, answer) with
          | none => rw [List.filterMap_cons_none shown]; rfl
          | some value => rw [List.filterMap_cons_some shown]; rfl

/-- Two runs from states with the same view that make the same accesses to it look the same,
whatever else happens in them. -/
theorem Explains.looksSame {other : Observer Event Answer Access Seen} {within' : State → Prop}
    {relates' : State → View → Prop} {allowed : List Event → Prop}
    (explains : Explains machine observer serve within relates)
    (explains' : Explains machine other serve within' relates') {left right : State} {view : View}
    (related : relates left view) (related' : relates' right view)
    (bounded : ∀ {events final log},
      allowed events → machine.run left events = some (final, log) → within final)
    (bounded' : ∀ {events final log},
      allowed events → machine.run right events = some (final, log) → within' final) :
    LooksSame machine allowed left observer right other := by
  intro events events' l r log log' permitted permitted' ran ran' same
  rw [(explains.run related ran (bounded permitted ran)).2,
    (explains'.run related' ran' (bounded' permitted' ran')).2, same]

end Explains

end Teleop.Lib
