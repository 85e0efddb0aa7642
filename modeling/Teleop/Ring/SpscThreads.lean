import Teleop.Lib.Cursor
import Teleop.Lib.TransitionSystem
import Teleop.Ring.Spsc

/-!
# The single-producer single-consumer ring, step by step

One producer and one consumer on shared cursors and slots.  A push loads both
cursors, writes a slot and stores the tail; a pop loads both, reads a slot and
stores the head; the steps of the two interleave arbitrarily.  Cursors are kept
as the unbounded positions they stand for and the code sees them as words.
-/

namespace Teleop.Ring.Threads

open Teleop.Lib

universe u

/-- What `do_push` and `do_pop` are given: the capacity, and how many slots there are. -/
structure Layout where
  cap : Nat
  cells : Nat
  deriving DecidableEq, Repr

/-- `SpscRing::with_capacity`: as many slots as the rounded capacity. -/
def withCapacity (capacity : Nat) : Layout where
  cap := nextPowerOfTwo (max capacity 1)
  cells := nextPowerOfTwo (max capacity 1)

/-- `SharedSpsc::attach`: the region was sized for the capacity that is passed. -/
def attach (capacity : Nat) : Layout where
  cap := nextPowerOfTwo (max capacity 1)
  cells := capacity

/-- The content of a slot.  What distinguishes a written from a published value, and either
from a slot given back, is bookkeeping that no step reads. -/
inductive Slot (T : Type u) where
  | free
  | written (value : T)
  | published (value : T)

/-- How far the producer's call has come. -/
inductive Producer (T : Type u) where
  | idle
  | loadTail (value : T)
  | loadHead (value : T) (t : Nat)
  | write (value : T) (t : Nat)
  | storeTail (value : T) (t : Nat)

/-- How far the consumer's call has come. -/
inductive Consumer (T : Type u) where
  | idle
  | loadHead
  | loadTail (h : Nat)
  | read (h : Nat)
  | storeHead (h : Nat) (value : T)

/-- What a call returned. -/
inductive Return (T : Type u) where
  | pushed (value : T) (result : Except T Unit)
  | popped (result : Option T)

/-- The value for which a push returned `Ok`. -/
def Return.takenIn {T : Type u} : Return T → List T
  | .pushed value (.ok ()) => [value]
  | .pushed _ (.error _) | .popped _ => []

/-- The value that a pop returned. -/
def Return.handedOut {T : Type u} : Return T → List T
  | .popped (some value) => [value]
  | .popped none | .pushed _ _ => []

/-- Both cursors, the slots and the two calls; what the last step returned, and the values
accepted and popped so far. -/
structure State (T : Type u) where
  head : Nat
  tail : Nat
  slots : Nat → Slot T
  producer : Producer T
  consumer : Consumer T
  output : Option (Return T)
  accepted : List T
  popped : List T

inductive Action (T : Type u) where
  | push (value : T)
  | pop
  /-- The next atomic access of the producer's call. -/
  | producer
  /-- The next atomic access of the consumer's call. -/
  | consumer

variable {T : Type u}

/-- A push has passed the check for room. -/
def Producer.Committed : Producer T → Prop
  | .write _ _ | .storeTail _ _ => True
  | _ => False

/-- A ring whose cursors stand at `start`. -/
def startAt (start : Nat) : State T where
  head := start
  tail := start
  slots _ := .free
  producer := .idle
  consumer := .idle
  output := none
  accepted := []
  popped := []

def setSlot (state : State T) (index : Nat) (slot : Slot T) : State T :=
  { state with slots := Function.update state.slots index slot }

/-- `do_push`, one access at a time. -/
def producerStep (layout : Layout) (state : State T) : Option (State T) :=
  match state.producer with
  | .idle => none
  | .loadTail value =>
      some { state with producer := .loadHead value state.tail, output := none }
  | .loadHead value t =>
      if layout.cap ≤ (cursor t - cursor state.head).toNat then
        some { state with producer := .idle, output := some (.pushed value (.error value)) }
      else some { state with producer := .write value t, output := none }
  | .write value t =>
      some { setSlot state (maskIndex layout.cap t) (.written value) with
        producer := .storeTail value t
        output := none }
  | .storeTail value t =>
      some { setSlot state (maskIndex layout.cap t) (.published value) with
        tail := t + 1
        producer := .idle
        output := some (.pushed value (.ok ()))
        accepted := state.accepted ++ [value] }

/-- `do_pop`, one access at a time; a slot without a value cannot be read. -/
def consumerStep (layout : Layout) (state : State T) : Option (State T) :=
  match state.consumer with
  | .idle => none
  | .loadHead => some { state with consumer := .loadTail state.head, output := none }
  | .loadTail h =>
      if cursor h = cursor state.tail then
        some { state with consumer := .idle, output := some (.popped none) }
      else some { state with consumer := .read h, output := none }
  | .read h =>
      match state.slots (maskIndex layout.cap h) with
      | .free => none
      | .written value | .published value =>
          some { state with consumer := .storeHead h value, output := none }
  | .storeHead h value =>
      some { setSlot state (maskIndex layout.cap h) .free with
        head := h + 1
        consumer := .idle
        output := some (.popped (some value))
        popped := state.popped ++ [value] }

def next (layout : Layout) (state : State T) : Action T → Option (State T)
  | .push value =>
      match state.producer with
      | .idle => some { state with producer := .loadTail value, output := none }
      | _ => none
  | .pop =>
      match state.consumer with
      | .idle => some { state with consumer := .loadHead, output := none }
      | _ => none
  | .producer => producerStep layout state
  | .consumer => consumerStep layout state

/-- What one access of the producer finds and does. -/
inductive Produces (layout : Layout) (state : State T) : State T → Prop
  | loadTail {value : T} : state.producer = .loadTail value →
      Produces layout state
        { state with producer := .loadHead value state.tail, output := none }
  | full {value : T} {t : Nat} : state.producer = .loadHead value t →
      layout.cap ≤ (cursor t - cursor state.head).toNat →
      Produces layout state
        { state with producer := .idle, output := some (.pushed value (.error value)) }
  | room {value : T} {t : Nat} : state.producer = .loadHead value t →
      ¬ layout.cap ≤ (cursor t - cursor state.head).toNat →
      Produces layout state { state with producer := .write value t, output := none }
  | write {value : T} {t : Nat} : state.producer = .write value t →
      Produces layout state
        { setSlot state (maskIndex layout.cap t) (.written value) with
          producer := .storeTail value t
          output := none }
  | storeTail {value : T} {t : Nat} : state.producer = .storeTail value t →
      Produces layout state
        { setSlot state (maskIndex layout.cap t) (.published value) with
          tail := t + 1
          producer := .idle
          output := some (.pushed value (.ok ()))
          accepted := state.accepted ++ [value] }

theorem produces_of_step {layout : Layout} {state target : State T}
    (stepped : producerStep layout state = some target) : Produces layout state target := by
  unfold producerStep at stepped
  split at stepped
  · cases stepped
  · rename_i stage
    cases stepped
    exact .loadTail stage
  · rename_i stage
    split at stepped <;> cases stepped
    · rename_i full
      exact .full stage full
    · rename_i room
      exact .room stage room
  · rename_i stage
    cases stepped
    exact .write stage
  · rename_i stage
    cases stepped
    exact .storeTail stage

/-- What one access of the consumer finds and does. -/
inductive Consumes (layout : Layout) (state : State T) : State T → Prop
  | loadHead : state.consumer = .loadHead →
      Consumes layout state { state with consumer := .loadTail state.head, output := none }
  | empty {h : Nat} : state.consumer = .loadTail h → cursor h = cursor state.tail →
      Consumes layout state { state with consumer := .idle, output := some (.popped none) }
  | occupied {h : Nat} : state.consumer = .loadTail h → cursor h ≠ cursor state.tail →
      Consumes layout state { state with consumer := .read h, output := none }
  | read {h : Nat} {value : T} : state.consumer = .read h →
      state.slots (maskIndex layout.cap h) = .written value ∨
        state.slots (maskIndex layout.cap h) = .published value →
      Consumes layout state { state with consumer := .storeHead h value, output := none }
  | storeHead {h : Nat} {value : T} : state.consumer = .storeHead h value →
      Consumes layout state
        { setSlot state (maskIndex layout.cap h) .free with
          head := h + 1
          consumer := .idle
          output := some (.popped (some value))
          popped := state.popped ++ [value] }

theorem consumes_of_step {layout : Layout} {state target : State T}
    (stepped : consumerStep layout state = some target) : Consumes layout state target := by
  unfold consumerStep at stepped
  split at stepped
  · cases stepped
  · rename_i stage
    cases stepped
    exact .loadHead stage
  · rename_i stage
    split at stepped <;> cases stepped
    · rename_i empty
      exact .empty stage empty
    · rename_i occupied
      exact .occupied stage occupied
  · rename_i stage
    split at stepped <;> cases stepped
    · rename_i held
      exact .read stage (.inl held)
    · rename_i held
      exact .read stage (.inr held)
  · rename_i stage
    cases stepped
    exact .storeHead stage

/-- A call is made when the one before has returned. -/
theorem next_push {layout : Layout} {state target : State T} {value : T}
    (stepped : next layout state (.push value) = some target) : state.producer = .idle ∧
      target = { state with producer := .loadTail value, output := none } := by
  simp only [next] at stepped
  split at stepped <;> cases stepped
  rename_i stage
  exact ⟨stage, rfl⟩

theorem next_pop {layout : Layout} {state target : State T}
    (stepped : next layout state .pop = some target) : state.consumer = .idle ∧
      target = { state with consumer := .loadHead, output := none } := by
  simp only [next] at stepped
  split at stepped <;> cases stepped
  rename_i stage
  exact ⟨stage, rfl⟩

/-- All interleavings of one producer and one consumer. -/
def threads (layout : Layout) (start : Nat) : TransitionSystem (State T) (Action T) :=
  .ofNext (· = startAt start) (next layout)

end Teleop.Ring.Threads
