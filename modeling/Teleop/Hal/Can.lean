import Mathlib.Data.UInt
import Teleop.Lib.TransitionSystem
import Teleop.Ring.Spsc

/-!
# The virtual CAN bus

Two endpoints joined by a ring in each direction.  A transmit is refused when fault injection
drops it or when the ring is full; everything else arrives, once and in order.
-/

namespace Teleop.Hal

open Teleop.Lib Teleop.Ring

/-- The failures of a virtual endpoint. -/
inductive HalError where
  /-- The transport dropped the frame. -/
  | dropped
  deriving DecidableEq, Repr

/-- One classical frame: only the first `len` bytes of `data` are meaningful. -/
structure CanFrame where
  id : UInt32
  len : UInt16
  data : Vector UInt8 8
  reserved : UInt16
  deriving DecidableEq

namespace CanFrame

/-- Builds a frame from a payload, of which what exceeds 8 bytes is ignored. -/
def new (id : UInt32) (payload : List UInt8) : CanFrame where
  id := id
  len := .ofNat (min payload.length 8)
  data := Vector.ofFn fun i => payload.getD i 0
  reserved := 0

def payload (frame : CanFrame) : List UInt8 := frame.data.toList.take (min frame.len.toNat 8)

end CanFrame

/-- One endpoint; `dropEvery` is 0 where no fault is injected. -/
structure CanEndpoint where
  txCount : UInt64
  dropEvery : UInt32
  deriving DecidableEq

namespace CanEndpoint

/-- Transmits into the ring the endpoint owns the producer side of. -/
def send (endpoint : CanEndpoint) (tx : SpscRing CanFrame) (frame : CanFrame) :
    CanEndpoint × SpscRing CanFrame × Except HalError Unit :=
  let endpoint := { endpoint with txCount := endpoint.txCount + 1 }
  if 0 < endpoint.dropEvery ∧ endpoint.txCount % endpoint.dropEvery.toUInt64 = 0 then
    (endpoint, tx, .error .dropped)
  else
    match tx.push frame with
    | .ok pushed => (endpoint, pushed, .ok ())
    | .error _ => (endpoint, tx, .error .dropped)

/-- Receives into `out`, which is left alone when nothing is pending. -/
def recv (rx : SpscRing CanFrame) (out : CanFrame) : CanFrame × SpscRing CanFrame × Bool :=
  match rx.pop with
  | some (frame, rest) => (frame, rest, true)
  | none => (out, rx, false)

def setDropEvery (endpoint : CanEndpoint) (n : UInt32) : CanEndpoint :=
  { endpoint with dropEvery := n }

def txAttempts (endpoint : CanEndpoint) : UInt64 := endpoint.txCount

/-- The `k`-th transmit of an endpoint, counted from 1, is one that fault injection drops. -/
def Injected (dropEvery : UInt32) (k : Nat) : Prop :=
  0 < dropEvery ∧ k % 2 ^ 64 % dropEvery.toNat = 0

instance (dropEvery : UInt32) (k : Nat) : Decidable (Injected dropEvery k) := by
  unfold Injected
  infer_instance

/-- What a transmit does: it counts, and then it is dropped or it is the newest in the ring. -/
theorem send_cases (endpoint : CanEndpoint) (tx : SpscRing CanFrame) (frame : CanFrame) {k : Nat}
    (counted : endpoint.txCount = .ofNat k) :
    ∃ after, endpoint.send tx frame = after ∧
      after.1 = { endpoint with txCount := .ofNat (k + 1) } ∧
      ((¬Injected endpoint.dropEvery (k + 1) ∧ tx.items.length < tx.capacity ∧
          after.2.2 = .ok () ∧ after.2.1.items = tx.items ++ [frame] ∧
          after.2.1.capacity = tx.capacity) ∨
        ((Injected endpoint.dropEvery (k + 1) ∨ tx.capacity ≤ tx.items.length) ∧
          after.2.2 = .error .dropped ∧ after.2.1 = tx)) := by
  have count : endpoint.txCount + 1 = .ofNat (k + 1) := by
    rw [counted, ← UInt64.ofNat_one, ← UInt64.ofNat_add]
  have test : (0 < endpoint.dropEvery ∧
      (endpoint.txCount + 1) % endpoint.dropEvery.toUInt64 = 0) ↔
        Injected endpoint.dropEvery (k + 1) := by
    rw [count, ← UInt64.toNat_inj]
    simp [Injected]
  refine ⟨_, rfl, ?_⟩
  unfold send
  dsimp only
  by_cases injected : Injected endpoint.dropEvery (k + 1)
  · rw [if_pos (test.mpr injected), count]
    exact ⟨rfl, .inr ⟨.inl injected, rfl, rfl⟩⟩
  · rw [if_neg (mt test.mp injected), count]
    by_cases room : tx.items.length < tx.capacity
    · rw [SpscRing.push, dif_pos room]
      exact ⟨rfl, .inl ⟨injected, room, rfl, rfl, rfl⟩⟩
    · rw [SpscRing.push, dif_neg room]
      exact ⟨rfl, .inr ⟨.inr (Nat.not_lt.mp room), rfl, rfl⟩⟩

end CanEndpoint

/-- The two ends of a bus. -/
inductive End where
  | a
  | b
  deriving DecidableEq, Repr

def End.other : End → End
  | .a => .b
  | .b => .a

@[simp] theorem End.other_other (side : End) : side.other.other = side := by cases side <;> rfl

/-- A connected pair: what an end transmits goes into its ring, which the other end receives
from. -/
structure CanPair where
  endpoint : End → CanEndpoint
  ring : End → SpscRing CanFrame

def canPair (capacity : Nat) : CanPair where
  endpoint _ := ⟨0, 0⟩
  ring _ := .withCapacity capacity

/-- A transmit: its frame, the fault injection in force, the frames that were waiting in the
ring, and the answer. -/
structure Attempt where
  frame : CanFrame
  dropEvery : UInt32
  queued : Nat
  sent : Bool

/-- A pair with its history: the transmits of each end and the frames each end received. -/
structure VirtualBus where
  pair : CanPair
  attempts : End → List Attempt
  received : End → List CanFrame

inductive BusAction where
  | send (side : End) (frame : CanFrame)
  | recv (side : End) (out : CanFrame)
  | setDropEvery (side : End) (n : UInt32)

namespace VirtualBus

def start (capacity : Nat) : VirtualBus where
  pair := canPair capacity
  attempts _ := []
  received _ := []

def next (bus : VirtualBus) : BusAction → VirtualBus
  | .send side frame =>
      let (endpoint, ring, result) := (bus.pair.endpoint side).send (bus.pair.ring side) frame
      { bus with
        pair :=
          { endpoint := Function.update bus.pair.endpoint side endpoint
            ring := Function.update bus.pair.ring side ring }
        attempts := Function.update bus.attempts side
          (bus.attempts side ++ [{
            frame := frame
            dropEvery := (bus.pair.endpoint side).dropEvery
            queued := (bus.pair.ring side).items.length
            sent := result.isOk }]) }
  | .recv side out =>
      let (frame, ring, fresh) := CanEndpoint.recv (bus.pair.ring side.other) out
      { bus with
        pair := { bus.pair with ring := Function.update bus.pair.ring side.other ring }
        received := if fresh then
            Function.update bus.received side (bus.received side ++ [frame])
          else bus.received }
  | .setDropEvery side n =>
      { bus with
        pair :=
          { bus.pair with
            endpoint :=
              Function.update bus.pair.endpoint side ((bus.pair.endpoint side).setDropEvery n) } }

/-- Pairs of one capacity, as calls on the endpoints leave them. -/
def system (capacity : Nat) : TransitionSystem VirtualBus BusAction :=
  .ofTotal (· = start capacity) next

/-- One direction of a bus: the frames that arrived or wait are those whose transmit was
answered with success, and a transmit fails for one of two reasons. -/
structure Delivers (capacity : Nat) (bus : VirtualBus) (side : End) : Prop where
  counted : (bus.pair.endpoint side).txAttempts = .ofNat (bus.attempts side).length
  capacity_eq : (bus.pair.ring side).capacity = nextPowerOfTwo (max capacity 1)
  fifo : bus.received side.other ++ (bus.pair.ring side).items =
    ((bus.attempts side).filter (·.sent)).map (·.frame)
  answers : ∀ k attempt, (bus.attempts side)[k]? = some attempt →
    (attempt.sent = true ↔ ¬CanEndpoint.Injected attempt.dropEvery (k + 1) ∧
      attempt.queued < nextPowerOfTwo (max capacity 1))

section Steps

variable {capacity : Nat} {bus : VirtualBus} {side : End}

/-- A step that leaves one direction alone. -/
theorem Delivers.frame {target : VirtualBus} (delivers : bus.Delivers capacity side)
    (count : (target.pair.endpoint side).txCount = (bus.pair.endpoint side).txCount)
    (ring : target.pair.ring side = bus.pair.ring side)
    (attempts : target.attempts side = bus.attempts side)
    (received : target.received side.other = bus.received side.other) :
    target.Delivers capacity side where
  counted := by
    rw [attempts]
    exact count.trans delivers.counted
  capacity_eq := by
    rw [ring]
    exact delivers.capacity_eq
  fifo := by
    rw [received, ring, attempts]
    exact delivers.fifo
  answers := by
    rw [attempts]
    exact delivers.answers

/-- An answer that follows its rule extends answers that do. -/
theorem answers_concat {attempts : List Attempt} {attempt : Attempt} {rule : Nat → Attempt → Prop}
    (before : ∀ k earlier, attempts[k]? = some earlier → rule k earlier)
    (last : rule attempts.length attempt) (k : Nat) (any : Attempt)
    (listed : (attempts ++ [attempt])[k]? = some any) : rule k any := by
  rcases Nat.lt_trichotomy k attempts.length with earlier | rfl | beyond
  · rw [List.getElem?_append_left earlier] at listed
    exact before k any listed
  · rw [List.getElem?_concat_length] at listed
    cases listed
    exact last
  · rw [List.getElem?_eq_none (by simp; omega)] at listed
    cases listed

theorem Delivers.send (delivers : bus.Delivers capacity side) (frame : CanFrame) :
    (bus.next (.send side frame)).Delivers capacity side := by
  have counted : (bus.pair.endpoint side).txCount = .ofNat (bus.attempts side).length :=
    delivers.counted
  have cap := delivers.capacity_eq
  obtain ⟨_, rfl, endpoint, ⟨quiet, room, answer, items, kept⟩ | ⟨reason, answer, ring⟩⟩ :=
    (bus.pair.endpoint side).send_cases (bus.pair.ring side) frame counted
  · constructor
    · simp [next, endpoint, CanEndpoint.txAttempts]
    · simp only [next, Function.update_self]
      exact kept.trans cap
    · simp only [next, Function.update_self, answer, List.filter_append, List.map_append]
      rw [items, ← List.append_assoc, delivers.fifo]
      rfl
    · simp only [next, Function.update_self]
      apply answers_concat delivers.answers
      rw [cap] at room
      simp [answer, Except.isOk, Except.toBool, quiet, room]
  · constructor
    · simp [next, endpoint, CanEndpoint.txAttempts]
    · simp only [next, Function.update_self, ring]
      exact cap
    · simp only [next, Function.update_self, answer, List.filter_append, List.map_append, ring]
      rw [delivers.fifo]
      exact (List.append_nil _).symm
    · simp only [next, Function.update_self]
      apply answers_concat delivers.answers
      rw [cap] at reason
      simp only [answer, Except.isOk, Except.toBool, Bool.false_eq_true, false_iff, not_and,
        Nat.not_lt]
      intro quiet
      exact reason.resolve_left quiet

theorem Delivers.recv (delivers : bus.Delivers capacity side) (out : CanFrame) :
    (bus.next (.recv side.other out)).Delivers capacity side := by
  cases popped : (bus.pair.ring side).pop with
  | none =>
      apply delivers.frame <;> simp [next, CanEndpoint.recv, popped]
  | some result =>
      obtain ⟨frame, rest⟩ := result
      have content := SpscRing.items_of_pop popped
      have kept := SpscRing.capacity_of_pop popped
      constructor
      · exact delivers.counted
      · simp only [next, End.other_other, CanEndpoint.recv, popped, Function.update_self]
        exact kept.trans delivers.capacity_eq
      · simp only [next, End.other_other, CanEndpoint.recv, popped, Function.update_self, if_true]
        rw [List.append_assoc, List.singleton_append, ← content, delivers.fifo]
      · exact delivers.answers

/-- A transmit of the other end, a receive of this one and a change of the fault injection leave
a direction as it is. -/
theorem Delivers.next (delivers : bus.Delivers capacity side) (action : BusAction) :
    (bus.next action).Delivers capacity side := by
  cases action with
  | send sender frame =>
      by_cases same : sender = side
      · rw [same]
        exact delivers.send frame
      · have apart : side ≠ sender := Ne.symm same
        apply delivers.frame <;> simp [VirtualBus.next, apart]
  | recv receiver out =>
      by_cases same : receiver = side.other
      · rw [same]
        exact delivers.recv out
      · have apart : side ≠ receiver.other := by
          rintro rfl
          exact same receiver.other_other.symm
        have elsewhere : side.other ≠ receiver := Ne.symm same
        apply delivers.frame
        · rfl
        · simp [VirtualBus.next, apart]
        · rfl
        · cases fresh : (CanEndpoint.recv (bus.pair.ring receiver.other) out).2.2 <;>
            simp [VirtualBus.next, fresh, elsewhere]
  | setDropEvery sender n =>
      apply delivers.frame
      · by_cases same : side = sender
        · simp [VirtualBus.next, same, CanEndpoint.setDropEvery]
        · simp [VirtualBus.next, same]
      all_goals rfl

end Steps

/-- In every run each end has received, once and in order, the frames of the other whose transmit
succeeded, save those that still wait; the `k`-th transmit of an end fails exactly when fault
injection drops it or when the ring is full. -/
theorem delivers_of_reachable {capacity : Nat} {bus : VirtualBus}
    (reached : (system capacity).Reachable bus) (side : End) : bus.Delivers capacity side := by
  apply reached.invariant (P := fun bus => bus.Delivers capacity side)
  · rintro _ rfl
    refine ⟨rfl, rfl, rfl, ?_⟩
    rintro k attempt ⟨⟩
  · rintro bus action _ delivers rfl
    exact delivers.next action

/-- Every second transmit of one end is dropped; the other end reads the first and the third. -/
def everySecond : VirtualBus :=
  [.setDropEvery .a 2, .send .a (.new 1 []), .send .a (.new 2 []), .recv .b (.new 0 []),
    .send .a (.new 3 [])].foldl VirtualBus.next (start 4)

theorem delivers_everySecond : everySecond.Delivers 4 .a ∧ everySecond.received .b = [.new 1 []] ∧
    (everySecond.pair.ring .a).items = [.new 3 []] := by
  have reached : (system 4).Reachable everySecond :=
    TransitionSystem.reachable_foldl (· = start 4) next rfl _
  exact ⟨delivers_of_reachable reached .a, by decide, by decide⟩

end VirtualBus

end Teleop.Hal
