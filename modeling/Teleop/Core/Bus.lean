import Teleop.Lib.TransitionSystem
import Teleop.Ring.Mailbox

/-!
# The message bus

Every subscriber owns one ring; `publish` copies the message into each of them and
forgets a refusal.  What one subscriber pops does not depend on the others: its ring is a
mailbox served by the publishes, by the deliveries to it alone and by its own pops.
-/

namespace Teleop.Core

open Teleop.Lib Teleop.Ring

universe u

/-- Position of a subscription, never reused. -/
structure SubscriberId where
  index : Nat
  deriving DecidableEq, Repr

structure MessageBus (T : Type u) where
  subscribers : List (SpscRing T)
  perSubscriberCapacity : Nat

namespace MessageBus

variable {T : Type u}

def new (perSubscriberCapacity : Nat) : MessageBus T := ⟨[], perSubscriberCapacity⟩

def subscribe (bus : MessageBus T) : MessageBus T × SubscriberId :=
  ({ bus with
      subscribers := bus.subscribers ++ [.withCapacity bus.perSubscriberCapacity] },
    ⟨bus.subscribers.length⟩)

def subscriberCount (bus : MessageBus T) : Nat := bus.subscribers.length

/-- The loop of `publish`: push to each ring in turn and count the acceptances. -/
def pushEach (value : T) : List (SpscRing T) → List (SpscRing T) × Nat
  | [] => ([], 0)
  | ring :: rest =>
      let (others, delivered) := pushEach value rest
      match ring.push value with
      | .ok pushed => (pushed :: others, delivered + 1)
      | .error _ => (ring :: others, delivered)

/-- Copies `value` into every ring; returns how many accepted it. -/
def publish (bus : MessageBus T) (value : T) : MessageBus T × Nat :=
  let (subscribers, delivered) := pushEach value bus.subscribers
  ({ bus with subscribers }, delivered)

/-- `none` where indexing the subscribers panics. -/
def ring (bus : MessageBus T) (id : SubscriberId) : Option (SpscRing T) :=
  bus.subscribers[id.index]?

def setRing (bus : MessageBus T) (id : SubscriberId) (ring : SpscRing T) : MessageBus T :=
  { bus with subscribers := bus.subscribers.set id.index ring }

/-- Delivers to one subscriber only; `false` when its ring is full. -/
def tryDeliver (bus : MessageBus T) (id : SubscriberId) (value : T) :
    Option (MessageBus T × Bool) :=
  match bus.ring id with
  | none => none
  | some ring =>
      match ring.push value with
      | .ok pushed => some (bus.setRing id pushed, true)
      | .error _ => some (bus, false)

/-- One pass of the loop of `poll`. -/
def pop (bus : MessageBus T) (id : SubscriberId) : Option (MessageBus T × Option T) :=
  match bus.ring id with
  | none => none
  | some ring =>
      match ring.pop with
      | some (value, rest) => some (bus.setRing id rest, some value)
      | none => some (bus, none)

/-- Pops until the ring is empty; the pending count is enough fuel. -/
def pollLoop (id : SubscriberId) : (fuel : Nat) → MessageBus T → Option (MessageBus T × List T)
  | 0, bus => some (bus, [])
  | fuel + 1, bus =>
      match bus.pop id with
      | none => none
      | some (bus, none) => some (bus, [])
      | some (bus, some value) =>
          match pollLoop id fuel bus with
          | none => none
          | some (final, rest) => some (final, value :: rest)

/-- Pending count of one subscriber. -/
def pending (bus : MessageBus T) (id : SubscriberId) : Option Nat :=
  (bus.ring id).map (·.items.length)

/-- Drains everything pending for one subscriber, oldest first. -/
def poll (bus : MessageBus T) (id : SubscriberId) : Option (MessageBus T × List T) :=
  (bus.pending id).bind fun pending => pollLoop id (pending + 1) bus

inductive Event (T : Type u) where
  | subscribe
  | publish (value : T)
  | tryDeliver (id : SubscriberId) (value : T)
  | pop (id : SubscriberId)

inductive Answer (T : Type u) where
  | subscribed (id : SubscriberId)
  | delivered (count : Nat)
  | accepted (room : Bool)
  | popped (result : Option T)

/-- The calls on a bus; a poll is a sequence of pops, with other calls in between when the
publisher runs at the same time. -/
def machine : Machine (MessageBus T) (Event T) (Answer T) where
  step bus
    | .subscribe => some (bus.subscribe.1, .subscribed bus.subscribe.2)
    | .publish value => some ((bus.publish value).1, .delivered (bus.publish value).2)
    | .tryDeliver id value =>
        (bus.tryDeliver id value).map fun (bus, room) => (bus, .accepted room)
    | .pop id => (bus.pop id).map fun (bus, result) => (bus, .popped result)

/-- Buses that calls can build. -/
def system (capacity : Nat) : TransitionSystem (MessageBus T) (Event T) :=
  .ofNext (· = new capacity) fun bus event => (machine.step bus event).map (·.1)

/-- A subscriber sees the results of its own pops. -/
def subscriber (id : SubscriberId) : Observer (Event T) (Answer T) (Access T) (Option T) where
  access
    | .subscribe => none
    | .publish value => some (.offer value)
    | .tryDeliver other value => if other = id then some (.offer value) else none
    | .pop other => if other = id then some .take else none
  seen
    | (.pop other, .popped result) => if other = id then some result else none
    | _ => none

/-- The ring of the subscriber is that of the mailbox, which stays attached. -/
structure Holds (id : SubscriberId) (bus : MessageBus T) (mailbox : Mailbox T) : Prop where
  ring_eq : bus.ring id = some mailbox.ring
  attached : mailbox.attached = true

section Steps

variable {bus target : MessageBus T} {id : SubscriberId} {mailbox : Mailbox T}

theorem pushEach_getElem? (value : T) (rings : List (SpscRing T)) (i : Nat) :
    (pushEach value rings).1[i]? = (rings[i]?).map (·.pushOrDrop value) := by
  induction rings generalizing i with
  | nil => simp [pushEach]
  | cons ring rest inductionHypothesis =>
      unfold pushEach
      dsimp only
      cases i with
      | zero => cases pushed : ring.push value <;> simp [SpscRing.pushOrDrop, pushed]
      | succ i => cases pushed : ring.push value <;> simp [inductionHypothesis]

theorem ring_setRing (bus : MessageBus T) (other id : SubscriberId) (ring : SpscRing T)
    (present : (bus.ring id).isSome) :
    (bus.setRing other ring).ring id = if other = id then some ring else bus.ring id := by
  obtain ⟨index⟩ := id
  obtain ⟨position⟩ := other
  have inside : index < bus.subscribers.length := by simpa [MessageBus.ring] using present
  by_cases same : position = index
  · simp [MessageBus.ring, setRing, same, inside]
  · simp [MessageBus.ring, setRing, same]

theorem setRing_self {ring : SpscRing T} (present : bus.ring id = some ring) :
    bus.setRing id ring = bus := by
  obtain ⟨_, rfl⟩ := List.getElem?_eq_some_iff.mp present
  simp [setRing]

/-- A delivery does to the ring it names what a publish does. -/
theorem tryDeliver_eq_some {value : T} {room : Bool}
    (delivered : bus.tryDeliver id value = some (target, room)) :
    ∃ ring, bus.ring id = some ring ∧ target = bus.setRing id (ring.pushOrDrop value) := by
  unfold MessageBus.tryDeliver at delivered
  cases present : bus.ring id with
  | none => simp [present] at delivered
  | some ring =>
      refine ⟨ring, rfl, ?_⟩
      cases pushed : ring.push value with
      | ok after =>
          simp only [present, pushed, Option.some.injEq, Prod.mk.injEq] at delivered
          simp [← delivered.1, SpscRing.pushOrDrop, pushed]
      | error refused =>
          simp only [present, pushed, Option.some.injEq, Prod.mk.injEq] at delivered
          simp [← delivered.1, SpscRing.pushOrDrop, pushed, setRing_self present]

/-- A pop takes the oldest value of the ring it names, if there is one. -/
theorem pop_eq_some {result : Option T} (popped : bus.pop id = some (target, result)) :
    ∃ ring, bus.ring id = some ring ∧
      (ring.pop = none ∧ target = bus ∧ result = none ∨
        ∃ value rest, ring.pop = some (value, rest) ∧ target = bus.setRing id rest ∧
          result = some value) := by
  unfold MessageBus.pop at popped
  cases present : bus.ring id with
  | none => simp [present] at popped
  | some ring =>
      refine ⟨ring, rfl, ?_⟩
      cases oldest : ring.pop with
      | none =>
          simp only [present, oldest, Option.some.injEq, Prod.mk.injEq] at popped
          exact .inl ⟨rfl, popped.1.symm, popped.2.symm⟩
      | some taken =>
          simp only [present, oldest, Option.some.injEq, Prod.mk.injEq] at popped
          exact .inr ⟨taken.1, taken.2, rfl, popped.1.symm, popped.2.symm⟩

theorem Holds.subscribe (holds : Holds id bus mailbox) : Holds id bus.subscribe.1 mailbox where
  ring_eq := by
    have inside := (List.getElem?_eq_some_iff.mp holds.ring_eq).1
    exact (List.getElem?_append_left inside).trans holds.ring_eq
  attached := holds.attached

/-- Setting the ring of the subscriber, or that of another one. -/
theorem Holds.setRing (holds : Holds id bus mailbox) (other : SubscriberId) (ring : SpscRing T) :
    Holds id (bus.setRing other ring) (if other = id then { mailbox with ring } else mailbox) := by
  have present : (bus.ring id).isSome := by simp [holds.ring_eq]
  split
  · rename_i same
    refine ⟨?_, holds.attached⟩
    rw [ring_setRing bus other id ring present, if_pos same]
  · rename_i different
    refine ⟨?_, holds.attached⟩
    rw [ring_setRing bus other id ring present, if_neg different]
    exact holds.ring_eq

theorem Holds.serve_offer (holds : Holds id bus mailbox) (value : T) :
    mailbox.serve (.offer value) =
      ({ mailbox with ring := mailbox.ring.pushOrDrop value }, none) := by
  simp [Mailbox.serve, holds.attached]

theorem Holds.publish (holds : Holds id bus mailbox) (value : T) :
    Holds id (bus.publish value).1 (mailbox.serve (.offer value)).1 := by
  rw [holds.serve_offer]
  refine ⟨?_, holds.attached⟩
  have pushed := pushEach_getElem? value bus.subscribers id.index
  have present : bus.subscribers[id.index]? = some mailbox.ring := holds.ring_eq
  rw [present] at pushed
  exact pushed

theorem Holds.tryDeliver (holds : Holds id bus mailbox) {other : SubscriberId} {value : T}
    {room : Bool} (delivered : bus.tryDeliver other value = some (target, room)) :
    Holds id target (if other = id then (mailbox.serve (.offer value)).1 else mailbox) := by
  obtain ⟨ring, present, rfl⟩ := tryDeliver_eq_some delivered
  have set := holds.setRing other (ring.pushOrDrop value)
  by_cases same : other = id
  · subst same
    rw [holds.ring_eq] at present
    cases present
    simpa [holds.serve_offer] using set
  · simpa [same] using set

theorem Holds.pop_other (holds : Holds id bus mailbox) {other : SubscriberId}
    {result : Option T} (popped : bus.pop other = some (target, result)) (different : other ≠ id) :
    Holds id target mailbox := by
  obtain ⟨_, _, ⟨_, rfl, _⟩ | ⟨_, rest, _, rfl, _⟩⟩ := pop_eq_some popped
  · exact holds
  · simpa [different] using holds.setRing other rest

theorem Holds.pop (holds : Holds id bus mailbox) {result : Option T}
    (popped : bus.pop id = some (target, result)) :
    Holds id target (mailbox.serve .take).1 ∧ (mailbox.serve .take).2 = some result := by
  obtain ⟨ring, present, oldest⟩ := pop_eq_some popped
  rw [holds.ring_eq] at present
  cases present
  rcases oldest with ⟨empty, rfl, rfl⟩ | ⟨value, rest, oldest, rfl, rfl⟩
  · simpa [Mailbox.serve, empty] using holds
  · simpa [Mailbox.serve, oldest] using holds.setRing id rest

end Steps

/-- The mailbox accounts for everything a subscriber sees of a bus. -/
theorem subscriber_explains (id : SubscriberId) :
    Explains (machine (T := T)) (subscriber id) Mailbox.serve (fun _ => True) (Holds id) where
  earlier _ _ := trivial
  hidden {bus target mailbox event answer} holds stepped _ unaccessed := by
    cases event with
    | subscribe =>
        cases stepped
        exact ⟨holds.subscribe, rfl⟩
    | publish value => cases unaccessed
    | tryDeliver other value =>
        have different : other ≠ id := by
          rintro rfl
          simp [subscriber] at unaccessed
        obtain ⟨⟨after, room⟩, delivered, answered⟩ := Option.map_eq_some_iff.mp stepped
        cases answered
        have kept := holds.tryDeliver delivered
        rw [if_neg different] at kept
        exact ⟨kept, rfl⟩
    | pop other =>
        have different : other ≠ id := by
          rintro rfl
          simp [subscriber] at unaccessed
        obtain ⟨⟨after, result⟩, popped, answered⟩ := Option.map_eq_some_iff.mp stepped
        cases answered
        exact ⟨holds.pop_other popped different, if_neg different⟩
  served {bus target mailbox event answer access} holds stepped _ accessed := by
    cases event with
    | subscribe => cases accessed
    | publish value =>
        cases stepped
        cases accessed
        refine ⟨holds.publish value, ?_⟩
        simp [subscriber, Mailbox.serve, holds.attached]
    | tryDeliver other value =>
        obtain ⟨same, rfl⟩ : other = id ∧ Access.offer value = access := by
          simpa [subscriber] using accessed
        obtain ⟨⟨after, room⟩, delivered, answered⟩ := Option.map_eq_some_iff.mp stepped
        cases answered
        have kept := holds.tryDeliver delivered
        rw [if_pos same] at kept
        refine ⟨kept, ?_⟩
        simp [subscriber, Mailbox.serve, holds.attached]
    | pop other =>
        obtain ⟨rfl, rfl⟩ : other = id ∧ Access.take = access := by
          simpa [subscriber] using accessed
        obtain ⟨⟨after, result⟩, popped, answered⟩ := Option.map_eq_some_iff.mp stepped
        cases answered
        obtain ⟨kept, shown⟩ := holds.pop popped
        refine ⟨kept, ?_⟩
        rw [shown]
        exact if_pos rfl

/-- A new subscriber starts with an empty mailbox. -/
theorem holds_subscribe (bus : MessageBus T) :
    Holds bus.subscribe.2 bus.subscribe.1 (.fresh bus.perSubscriberCapacity) where
  ring_eq := List.getElem?_concat_length
  attached := rfl

/-- What a subscriber pops and what is left in its ring are accounted for by the offers made to
it since it subscribed. -/
theorem accounts_of_run {capacity : Nat} {bus final : MessageBus T}
    (same : bus.perSubscriberCapacity = capacity) {events : List (Event T)}
    {log : List (Event T × Answer T)}
    (ran : machine.run bus.subscribe.1 events = some (final, log)) :
    ∃ ring, final.ring bus.subscribe.2 = some ring ∧
      Mailbox.Accounts capacity (events.filterMap (subscriber bus.subscribe.2).access)
        (log.filterMap (subscriber bus.subscribe.2).seen) ring := by
  subst same
  obtain ⟨holds, seen⟩ := (subscriber_explains _).run (holds_subscribe bus) ran trivial
  refine ⟨_, holds.ring_eq, ?_⟩
  rw [seen]
  exact Mailbox.accounts _ _

theorem capacity_of_reachable {capacity : Nat} {bus : MessageBus T}
    (reached : (system capacity).Reachable bus) : bus.perSubscriberCapacity = capacity := by
  apply reached.invariant
  · rintro _ rfl
    rfl
  · intro bus event target same stepped
    obtain ⟨⟨after, answer⟩, moved, rfl⟩ := Option.map_eq_some_iff.mp stepped
    cases event with
    | subscribe => cases moved; exact same
    | publish value => cases moved; exact same
    | tryDeliver id value =>
        obtain ⟨⟨other, room⟩, delivered, answered⟩ := Option.map_eq_some_iff.mp moved
        cases answered
        obtain ⟨_, _, rfl⟩ := tryDeliver_eq_some delivered
        exact same
    | pop id =>
        obtain ⟨⟨other, result⟩, popped, answered⟩ := Option.map_eq_some_iff.mp moved
        cases answered
        obtain ⟨_, _, ⟨_, rfl, _⟩ | ⟨_, _, _, rfl, _⟩⟩ := pop_eq_some popped
        · exact same
        · exact same

/-- A poll returns everything pending of one subscriber and empties its ring. -/
theorem pollLoop_eq_drain (n : Nat) (bus : MessageBus T) (id : SubscriberId)
    {ring : SpscRing T} (present : bus.ring id = some ring) (length : ring.items.length = n) :
    pollLoop id (n + 1) bus = some (bus.setRing id ring.drain.2, ring.items) := by
  induction n generalizing bus ring with
  | zero =>
      have empty : ring.items = [] := List.length_eq_zero_iff.mp length
      have unchanged : ring.drain.2 = ring := SpscRing.eq_of_items rfl empty.symm
      have oldest : ring.pop = none := by
        cases popped : ring.pop with
        | none => rfl
        | some taken => simp [SpscRing.items_of_pop popped] at empty
      simp [pollLoop, MessageBus.pop, present, oldest, unchanged, setRing_self present, empty]
  | succ n inductionHypothesis =>
      cases oldest : ring.pop with
      | none =>
          rw [SpscRing.items_of_pop_none oldest] at length
          cases length
      | some taken =>
          obtain ⟨value, rest⟩ := taken
          have content := SpscRing.items_of_pop oldest
          rw [content] at length
          have remaining : (bus.setRing id rest).ring id = some rest := by
            rw [ring_setRing bus id id rest (by simp [present]), if_pos rfl]
          have others := inductionHypothesis _ remaining (Nat.succ.inj length)
          have popped : bus.pop id = some (bus.setRing id rest, some value) := by
            simp [MessageBus.pop, present, oldest]
          rw [pollLoop, popped]
          dsimp only
          rw [others, content, ← SpscRing.drain_of_pop oldest]
          simp [setRing]

theorem poll_eq_drain {bus : MessageBus T} {id : SubscriberId} {ring : SpscRing T}
    (present : bus.ring id = some ring) :
    bus.poll id = some (bus.setRing id ring.drain.2, ring.items) := by
  simpa [poll, pending, present] using
    pollLoop_eq_drain ring.items.length bus id present rfl

/-- A publish offers its value to every ring. -/
theorem subscribers_publish (bus : MessageBus T) (value : T) :
    (bus.publish value).1.subscribers = bus.subscribers.map (·.pushOrDrop value) := by
  apply List.ext_getElem?
  intro i
  rw [List.getElem?_map]
  exact pushEach_getElem? value bus.subscribers i

theorem subscribers_foldl_publish (values : List T) (bus : MessageBus T) :
    (values.foldl (fun bus value => (bus.publish value).1) bus).subscribers =
      bus.subscribers.map (values.foldl SpscRing.pushOrDrop) := by
  induction values generalizing bus with
  | nil => simp
  | cons value rest inductionHypothesis =>
      rw [List.foldl_cons, inductionHypothesis, subscribers_publish, List.map_map]
      rfl

theorem capacity_foldl_publish (values : List T) (bus : MessageBus T) :
    (values.foldl (fun bus value => (bus.publish value).1) bus).perSubscriberCapacity =
      bus.perSubscriberCapacity := by
  induction values generalizing bus with
  | nil => rfl
  | cons value rest inductionHypothesis => exact inductionHypothesis _

end MessageBus

end Teleop.Core
