import Teleop.Core.Threads
import Teleop.Ring.SpscThreads

/-!
# The transition log under concurrent commits

A commit stores the mode byte and then pushes a record into the event ring, a ring made for
one producer.  Any number of calls overlap here, access by access, while one observer
drains the ring.  Records stay in their slots when they are read, and cursors are kept as
the unbounded positions they stand for, as in the ring's own model.
-/

namespace Teleop.Core.EventLog

open Teleop.Lib Teleop.Ring

/-- A record with the call that commits it, bookkeeping that no step reads. -/
structure Event where
  commit : Nat
  transition : Transition
  deriving DecidableEq, Repr

/-- How far the push of a record has come. -/
inductive Push where
  | loadTail
  | loadHead (t : Nat)
  | write (t : Nat)
  | storeTail (t : Nat)
  deriving DecidableEq, Repr

/-- How far a call has come: at the mode byte, or pushing its record. -/
inductive Progress where
  | mode (progress : Threads.Progress)
  | pushing (source : Mode) (event : Event) (push : Push)

structure Call where
  operation : Threads.Operation
  progress : Progress

/-- How far `take_transitions` has come in the current pop. -/
inductive Observer where
  | idle
  | loadHead
  | loadTail (h : Nat)
  | read (h : Nat)
  | storeHead (h : Nat) (value : Option Event)
  deriving DecidableEq, Repr

/-- The mode byte, the event ring, the calls made so far and the observer; what was written
to the ring and what was drained from it.  A slot never written has no record. -/
structure State where
  stored : UInt8
  head : Nat
  tail : Nat
  slots : Nat → Option Event
  calls : Nat → Option Call
  observer : Observer
  recorded : List Event
  drained : List (Option Event)

def State.current (state : State) : Mode := decodeMode state.stored

def State.setCall (state : State) (id : Nat) (call : Call) : State :=
  { state with calls := Function.update state.calls id (some call) }

inductive Action where
  | call (id : Nat) (operation : Threads.Operation)
  | load (id : Nat)
  | store (id : Nat) (atUnixNs : UInt64)
  /-- The next access of the push that a commit makes. -/
  | push (id : Nat)
  | take
  /-- The next access of the observer. -/
  | observe
  deriving DecidableEq, Repr

/-- `do_push`, one access at a time; `commit` ignores whether there was room. -/
def pushStep (cap : Nat) (state : State) (id : Nat) (operation : Threads.Operation)
    (source : Mode) (event : Event) : Push → State
  | .loadTail => state.setCall id ⟨operation, .pushing source event (.loadHead state.tail)⟩
  | .loadHead t =>
      if cap ≤ (cursor t - cursor state.head).toNat then
        state.setCall id ⟨operation, .mode (.returned (.ok source))⟩
      else state.setCall id ⟨operation, .pushing source event (.write t)⟩
  | .write t =>
      { state.setCall id ⟨operation, .pushing source event (.storeTail t)⟩ with
        slots := Function.update state.slots (maskIndex cap t) (some event)
        recorded := state.recorded ++ [event] }
  | .storeTail t =>
      { state.setCall id ⟨operation, .mode (.returned (.ok source))⟩ with tail := t + 1 }

/-- `do_pop` in the loop of `take_transitions`, which returns when the ring is empty. -/
def observerStep (cap : Nat) (state : State) : Option State :=
  match state.observer with
  | .idle => none
  | .loadHead => some { state with observer := .loadTail state.head }
  | .loadTail h =>
      if cursor h = cursor state.tail then some { state with observer := .idle }
      else some { state with observer := .read h }
  | .read h => some { state with observer := .storeHead h (state.slots (maskIndex cap h)) }
  | .storeHead h value =>
      some { state with
        head := h + 1
        observer := .loadHead
        drained := state.drained ++ [value] }

/-- One atomic step. -/
def next (cap : Nat) (state : State) : Action → Option State
  | .call id operation =>
      match state.calls id with
      | none => some (state.setCall id ⟨operation, .mode .called⟩)
      | some _ => none
  | .load id =>
      match state.calls id with
      | some ⟨operation, .mode .called⟩ =>
          some (state.setCall id
            ⟨operation, .mode (Threads.afterLoad state.current operation)⟩)
      | _ => none
  | .store id atUnixNs =>
      match state.calls id with
      | some ⟨operation, .mode (.loaded source)⟩ =>
          some { state.setCall id
              ⟨operation, .pushing source ⟨id, source, operation.target, atUnixNs⟩ .loadTail⟩ with
            stored := operation.target.asU8 }
      | _ => none
  | .push id =>
      match state.calls id with
      | some ⟨operation, .pushing source event push⟩ =>
          some (pushStep cap state id operation source event push)
      | _ => none
  | .take =>
      match state.observer with
      | .idle => some { state with observer := .loadHead }
      | _ => none
  | .observe => observerStep cap state

/-- A machine in `auto` on which nothing was called yet. -/
def start : State where
  stored := Mode.auto.asU8
  head := 0
  tail := 0
  slots _ := none
  calls _ := none
  observer := .idle
  recorded := []
  drained := []

/-- The rounded capacity of the ring that `with_event_ring` makes. -/
def ringCap (eventCapacity : Nat) : Nat := (Ring.Threads.withCapacity eventCapacity).cap

/-- All interleavings of all calls and one observer, on a ring of capacity `cap`. -/
def system (cap : Nat) : TransitionSystem State Action := .ofNext (· = start) (next cap)

/-- What a step finds and does, one case for each access. -/
inductive Does (cap : Nat) (state : State) : Action → State → Prop
  | call {id : Nat} {operation : Threads.Operation} : state.calls id = none →
      Does cap state (.call id operation) (state.setCall id ⟨operation, .mode .called⟩)
  | load {id : Nat} {operation : Threads.Operation} :
      state.calls id = some ⟨operation, .mode .called⟩ →
      Does cap state (.load id)
        (state.setCall id ⟨operation, .mode (Threads.afterLoad state.current operation)⟩)
  | store {id : Nat} {operation : Threads.Operation} {source : Mode} {atUnixNs : UInt64} :
      state.calls id = some ⟨operation, .mode (.loaded source)⟩ →
      Does cap state (.store id atUnixNs)
        { state.setCall id
            ⟨operation, .pushing source ⟨id, source, operation.target, atUnixNs⟩ .loadTail⟩ with
          stored := operation.target.asU8 }
  | loadTail {id : Nat} {operation : Threads.Operation} {source : Mode} {event : Event} :
      state.calls id = some ⟨operation, .pushing source event .loadTail⟩ →
      Does cap state (.push id)
        (state.setCall id ⟨operation, .pushing source event (.loadHead state.tail)⟩)
  | full {id : Nat} {operation : Threads.Operation} {source : Mode} {event : Event} {t : Nat} :
      state.calls id = some ⟨operation, .pushing source event (.loadHead t)⟩ →
      Does cap state (.push id)
        (state.setCall id ⟨operation, .mode (.returned (.ok source))⟩)
  | room {id : Nat} {operation : Threads.Operation} {source : Mode} {event : Event} {t : Nat} :
      state.calls id = some ⟨operation, .pushing source event (.loadHead t)⟩ →
      ¬cap ≤ (cursor t - cursor state.head).toNat →
      Does cap state (.push id)
        (state.setCall id ⟨operation, .pushing source event (.write t)⟩)
  | write {id : Nat} {operation : Threads.Operation} {source : Mode} {event : Event} {t : Nat} :
      state.calls id = some ⟨operation, .pushing source event (.write t)⟩ →
      Does cap state (.push id)
        { state.setCall id ⟨operation, .pushing source event (.storeTail t)⟩ with
          slots := Function.update state.slots (maskIndex cap t) (some event)
          recorded := state.recorded ++ [event] }
  | storeTail {id : Nat} {operation : Threads.Operation} {source : Mode} {event : Event}
      {t : Nat} : state.calls id = some ⟨operation, .pushing source event (.storeTail t)⟩ →
      Does cap state (.push id)
        { state.setCall id ⟨operation, .mode (.returned (.ok source))⟩ with tail := t + 1 }
  | take : state.observer = .idle → Does cap state .take { state with observer := .loadHead }
  | loadHead : state.observer = .loadHead →
      Does cap state .observe { state with observer := .loadTail state.head }
  | empty {h : Nat} : state.observer = .loadTail h → cursor h = cursor state.tail →
      Does cap state .observe { state with observer := .idle }
  | occupied {h : Nat} : state.observer = .loadTail h → cursor h ≠ cursor state.tail →
      Does cap state .observe { state with observer := .read h }
  | read {h : Nat} : state.observer = .read h →
      Does cap state .observe
        { state with observer := .storeHead h (state.slots (maskIndex cap h)) }
  | storeHead {h : Nat} {value : Option Event} : state.observer = .storeHead h value →
      Does cap state .observe
        { state with head := h + 1, observer := .loadHead, drained := state.drained ++ [value] }

theorem does_of_next {cap : Nat} {state target : State} {action : Action}
    (stepped : next cap state action = some target) : Does cap state action target := by
  cases action with
  | call id operation =>
      simp only [next] at stepped
      split at stepped <;> cases stepped
      rename_i fresh
      exact .call fresh
  | load id =>
      simp only [next] at stepped
      split at stepped <;> cases stepped
      rename_i waiting
      exact .load waiting
  | store id atUnixNs =>
      simp only [next] at stepped
      split at stepped <;> cases stepped
      rename_i waiting
      exact .store waiting
  | push id =>
      simp only [next] at stepped
      split at stepped <;> cases stepped
      rename_i operation source event push waiting
      cases push with
      | loadTail => exact .loadTail waiting
      | loadHead t =>
          simp only [pushStep]
          split
          · exact .full waiting
          · rename_i room
            exact .room waiting room
      | write t => exact .write waiting
      | storeTail t => exact .storeTail waiting
  | take =>
      simp only [next] at stepped
      split at stepped <;> cases stepped
      rename_i resting
      exact .take resting
  | observe =>
      simp only [next, observerStep] at stepped
      split at stepped
      · cases stepped
      · rename_i stage
        cases stepped
        exact .loadHead stage
      · rename_i stage
        split at stepped <;> cases stepped
        · rename_i empty
          exact .empty stage empty
        · rename_i occupied
          exact .occupied stage occupied
      · rename_i stage
        cases stepped
        exact .read stage
      · rename_i stage
        cases stepped
        exact .storeHead stage

section Mode

/-- What the mode byte sees of a call: it has returned once its store is made. -/
def Progress.atMode : Progress → Threads.Progress
  | .mode progress => progress
  | .pushing source _ _ => .returned (.ok source)

/-- The state without the event ring. -/
def State.threads (state : State) : Threads.State where
  stored := state.stored
  calls id := (state.calls id).map fun call => ⟨call.operation, call.progress.atMode⟩

theorem setCall_threads (state : State) (id : Nat) (call : Call) :
    (state.setCall id call).threads =
      state.threads.setCall id ⟨call.operation, call.progress.atMode⟩ := by
  unfold State.threads State.setCall Threads.State.setCall
  congr 1
  funext other
  by_cases same : other = id
  · simp [same]
  · simp [same]

/-- A push leaves what the mode byte sees as it is. -/
theorem setCall_threads_self {state : State} {id : Nat} {old call : Call}
    (present : state.calls id = some old) (operation : call.operation = old.operation)
    (progress : call.progress.atMode = old.progress.atMode) :
    (state.setCall id call).threads = state.threads := by
  rw [setCall_threads, operation, progress]
  unfold Threads.State.setCall State.threads
  congr 1
  funext other
  by_cases same : other = id
  · simp [same, present]
  · simp [same]

/-- The ring changes nothing about the modes: every step is a step of the calls on the mode
byte, or none. -/
theorem Does.threads {cap : Nat} {state target : State} {action : Action}
    (does : Does cap state action target) :
    (∃ action, Threads.next state.threads action = some target.threads) ∨
      target.threads = state.threads := by
  cases does with
  | @call id operation fresh =>
      refine .inl ⟨.call id operation, ?_⟩
      rw [setCall_threads]
      exact Threads.next_call operation (by simp [State.threads, fresh])
  | @load id operation waiting =>
      refine .inl ⟨.load id, ?_⟩
      rw [setCall_threads]
      exact Threads.next_load (by simp [State.threads, waiting, Progress.atMode])
  | @store id operation source atUnixNs waiting =>
      refine .inl ⟨.store id, ?_⟩
      have loaded : state.threads.calls id = some ⟨operation, .loaded source⟩ := by
        simp [State.threads, waiting, Progress.atMode]
      rw [Threads.next_store loaded]
      have same := setCall_threads state id
        ⟨operation, .pushing source ⟨id, source, operation.target, atUnixNs⟩ .loadTail⟩
      exact congrArg (fun threads : Threads.State =>
        some { threads with stored := operation.target.asU8 }) same.symm
  | loadTail waiting => exact .inr (setCall_threads_self waiting rfl rfl)
  | full waiting => exact .inr (setCall_threads_self waiting rfl rfl)
  | room waiting _ => exact .inr (setCall_threads_self waiting rfl rfl)
  | write waiting => exact .inr (setCall_threads_self waiting rfl rfl)
  | storeTail waiting => exact .inr (setCall_threads_self waiting rfl rfl)
  | take _ => exact .inr rfl
  | loadHead _ => exact .inr rfl
  | empty _ _ => exact .inr rfl
  | occupied _ _ => exact .inr rfl
  | read _ => exact .inr rfl
  | storeHead _ => exact .inr rfl

/-- Without the event ring, every run is one of the calls on the mode byte. -/
theorem threads_of_reachable {cap : Nat} {state : State}
    (reached : (system cap).Reachable state) : Threads.threads.Reachable state.threads := by
  apply reached.invariant (P := fun state => Threads.threads.Reachable state.threads)
  · rintro _ rfl
    exact .of_initial rfl
  · intro state action target before stepped
    rcases (does_of_next stepped).threads with ⟨step, moved⟩ | same
    · exact before.step moved
    · rw [same]
      exact before

end Mode

end Teleop.Core.EventLog
