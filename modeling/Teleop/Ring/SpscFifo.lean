import Mathlib.Data.List.Infix
import Teleop.Ring.SpscThreads

/-!
# First in, first out under every interleaving

The invariant of the two cursors: the positions between them hold the accepted
values that were not popped yet, in order, and the positions up to a lap ahead
are free.  Every return of a call is the one of a bounded queue at that moment.
-/

namespace Teleop.Ring.Threads

open Teleop.Lib

universe u

variable {T : Type u} {layout : Layout} {start : Nat} {state target : State T}

/-- Capacities that rounding up produces. -/
def Layout.Rounded (layout : Layout) : Prop := layout.cap = 0 ∨ ∃ k ≤ 63, layout.cap = 2 ^ k

/-- The slot of the `n`-th position from the start. -/
def slotOf (layout : Layout) (start n : Nat) : Nat := maskIndex layout.cap (start + n)

theorem slotOf_lt (rounded : layout.Rounded) (positive : 0 < layout.cap) (n : Nat) :
    slotOf layout start n < layout.cap := by
  obtain zero | ⟨k, small, power⟩ := rounded
  · omega
  · unfold slotOf
    rw [power, maskIndex_two_pow small]
    exact Nat.mod_lt _ (Nat.two_pow_pos k)

/-- Positions of one window have different slots. -/
theorem slotOf_ne (rounded : layout.Rounded) {m n : Nat} (lt : m < n) (near : n < m + layout.cap) :
    slotOf layout start m ≠ slotOf layout start n :=
  maskIndex_ne rounded (by omega) (by omega)

/-- A lap later comes the same slot again. -/
theorem slotOf_lap (rounded : layout.Rounded) (n : Nat) :
    slotOf layout start (n + layout.cap) = slotOf layout start n := by
  obtain zero | ⟨k, small, power⟩ := rounded
  · rw [zero, Nat.add_zero]
  · unfold slotOf
    rw [power, maskIndex_two_pow small, maskIndex_two_pow small, ← Nat.add_assoc,
      Nat.add_mod_right]

/-- If there is room for one more position, its slot is free. -/
def NextFree (layout : Layout) (start : Nat) (state : State T) : Prop :=
  state.accepted.length < state.popped.length + layout.cap →
    state.slots (slotOf layout start state.accepted.length) = .free

/-- What holds of the producer's call at each of its stages. -/
def ProducerHolds (layout : Layout) (start : Nat) (state : State T) : Prop :=
  match state.producer with
  | .idle | .loadTail _ => NextFree layout start state
  | .loadHead _ t => t = state.tail ∧ NextFree layout start state
  | .write _ t =>
      t = state.tail ∧ state.accepted.length < state.popped.length + layout.cap ∧
        NextFree layout start state
  | .storeTail value t =>
      t = state.tail ∧ state.accepted.length < state.popped.length + layout.cap ∧
        state.slots (slotOf layout start state.accepted.length) = .written value

/-- What holds of the consumer's call at each of its stages. -/
def ConsumerHolds (state : State T) : Prop :=
  match state.consumer with
  | .idle | .loadHead => True
  | .loadTail h => h = state.head
  | .read h => h = state.head ∧ state.popped.length < state.accepted.length
  | .storeHead h value => h = state.head ∧ state.accepted[state.popped.length]? = some value

/-- More accepted values do not disturb the consumer. -/
theorem ConsumerHolds.grow (holds : ConsumerHolds state) (value : T) {tail : Nat}
    {slots : Nat → Slot T} {producer : Producer T} {output : Option (Return T)} :
    ConsumerHolds { state with
      tail, slots, producer, output, accepted := state.accepted ++ [value] } := by
  unfold ConsumerHolds at holds ⊢
  dsimp only
  cases stage : state.consumer with
  | idle => trivial
  | loadHead => trivial
  | loadTail h => simpa only [stage] using holds
  | read h =>
      simp only [stage] at holds
      exact ⟨holds.1, by rw [List.length_append]; omega⟩
  | storeHead h popped =>
      simp only [stage] at holds
      have inside := (List.getElem?_eq_some_iff.mp holds.2).1
      exact ⟨holds.1, by rw [List.getElem?_append_left inside]; exact holds.2⟩

structure Fifo (layout : Layout) (start : Nat) (state : State T) : Prop where
  head : state.head = start + state.popped.length
  tail : state.tail = start + state.accepted.length
  inOrder : state.popped <+: state.accepted
  bounded : state.accepted.length ≤ state.popped.length + layout.cap
  published : ∀ n value, state.popped.length ≤ n → state.accepted[n]? = some value →
    state.slots (slotOf layout start n) = .published value
  vacant : ∀ n, state.accepted.length < n → n < state.popped.length + layout.cap →
    state.slots (slotOf layout start n) = .free
  producer : ProducerHolds layout start state
  consumer : ConsumerHolds state

theorem fifo_startAt : Fifo layout start (startAt start : State T) where
  head := rfl
  tail := rfl
  inOrder := List.prefix_refl []
  bounded := Nat.zero_le _
  published _ _ _ inside := nomatch inside
  vacant _ _ _ := rfl
  producer := fun _ => rfl
  consumer := trivial

theorem Fifo.le (fifo : Fifo layout start state) :
    state.popped.length ≤ state.accepted.length := fifo.inOrder.length_le

theorem Layout.Rounded.lt (rounded : layout.Rounded) : layout.cap < 2 ^ 64 := by
  obtain zero | ⟨k, small, power⟩ := rounded
  · omega
  · rw [power]
    exact Nat.pow_lt_pow_right (by decide) (by omega)

/-- The producer's check compares the number of values in flight with the capacity. -/
theorem Fifo.full_iff (rounded : layout.Rounded) (fifo : Fifo layout start state) :
    layout.cap ≤ (cursor state.tail - cursor state.head).toNat ↔
      state.popped.length + layout.cap ≤ state.accepted.length := by
  have limit := rounded.lt
  have bounded := fifo.bounded
  have le := fifo.le
  have head := fifo.head
  have tail := fifo.tail
  rw [toNat_cursor_sub (by omega) (by omega)]
  omega

/-- The consumer's check compares the number of values in flight with zero. -/
theorem Fifo.empty_iff (rounded : layout.Rounded) (fifo : Fifo layout start state) :
    cursor state.head = cursor state.tail ↔ state.accepted.length = state.popped.length := by
  have limit := rounded.lt
  have bounded := fifo.bounded
  have le := fifo.le
  have head := fifo.head
  have tail := fifo.tail
  constructor
  · intro same
    have equal := cursor_inj (by omega : state.head ≤ state.tail) (by omega) same.symm
    omega
  · intro same
    rw [head, tail, same]

/-- The slot that is written is the one of the next position, and it is free. -/
theorem Fifo.write_free (fifo : Fifo layout start state) {value : T} {t : Nat}
    (stage : state.producer = .write value t) :
    maskIndex layout.cap t = slotOf layout start state.accepted.length ∧
      state.accepted.length < state.popped.length + layout.cap ∧
      state.slots (maskIndex layout.cap t) = .free := by
  have holds := fifo.producer
  simp only [ProducerHolds, stage] at holds
  obtain ⟨current, room, nextFree⟩ := holds
  have slot : maskIndex layout.cap t = slotOf layout start state.accepted.length := by
    rw [current, fifo.tail]
    rfl
  exact ⟨slot, room, by rw [slot]; exact nextFree room⟩

/-- The slot that is read holds the oldest value, published. -/
theorem Fifo.read_published (fifo : Fifo layout start state) {h : Nat}
    (stage : state.consumer = .read h) :
    maskIndex layout.cap h = slotOf layout start state.popped.length ∧
      ∃ value, state.accepted[state.popped.length]? = some value ∧
        state.slots (maskIndex layout.cap h) = .published value := by
  have holds := fifo.consumer
  simp only [ConsumerHolds, stage] at holds
  obtain ⟨current, waiting⟩ := holds
  have slot : maskIndex layout.cap h = slotOf layout start state.popped.length := by
    rw [current, fifo.head]
    rfl
  have oldest := List.getElem?_eq_getElem waiting
  exact ⟨slot, _, oldest, by rw [slot]; exact fifo.published _ _ (Nat.le_refl _) oldest⟩

/-- What the consumer reads is the oldest value. -/
theorem Fifo.read_oldest (fifo : Fifo layout start state) {h : Nat} {value : T}
    (stage : state.consumer = .read h)
    (held : state.slots (maskIndex layout.cap h) = .written value ∨
      state.slots (maskIndex layout.cap h) = .published value) :
    state.accepted[state.popped.length]? = some value := by
  obtain ⟨_, oldest, here, published⟩ := fifo.read_published stage
  rw [published] at held
  rcases held with impossible | same
  · cases impossible
  · cases same
    exact here

section Preservation

variable (rounded : layout.Rounded)
include rounded

/-- Writing touches no position but the next one. -/
theorem Fifo.afterWrite (fifo : Fifo layout start state) {value : T} {t : Nat}
    (stage : state.producer = .write value t) :
    Fifo layout start
      { setSlot state (maskIndex layout.cap t) (.written value) with
        producer := .storeTail value t
        output := none } := by
  obtain ⟨slot, room, _⟩ := fifo.write_free stage
  have bounded := fifo.bounded
  have holds := fifo.producer
  simp only [ProducerHolds, stage] at holds
  refine { fifo with published := ?_, vacant := ?_, producer := ?_ }
  · intro n held (waiting : state.popped.length ≤ n) (inside : state.accepted[n]? = some held)
    have before : n < state.accepted.length := (List.getElem?_eq_some_iff.mp inside).1
    have apart : slotOf layout start n ≠ slotOf layout start state.accepted.length :=
      slotOf_ne rounded before (by omega)
    simpa [setSlot, slot, apart] using fifo.published n held waiting inside
  · intro n (later : state.accepted.length < n) (near : n < state.popped.length + layout.cap)
    have apart : slotOf layout start n ≠ slotOf layout start state.accepted.length :=
      (slotOf_ne rounded later (by have := fifo.le; omega)).symm
    simpa [setSlot, slot, apart] using fifo.vacant n later near
  · exact ⟨holds.1, room, by simp [setSlot, slot]⟩

/-- Storing the tail publishes the value that was written. -/
theorem Fifo.afterStoreTail (fifo : Fifo layout start state) {value : T} {t : Nat}
    (stage : state.producer = .storeTail value t) :
    Fifo layout start
      { setSlot state (maskIndex layout.cap t) (.published value) with
        tail := t + 1
        producer := .idle
        output := some (.pushed value (.ok ()))
        accepted := state.accepted ++ [value] } := by
  have holds := fifo.producer
  simp only [ProducerHolds, stage] at holds
  obtain ⟨current, room, written⟩ := holds
  have slot : maskIndex layout.cap t = slotOf layout start state.accepted.length := by
    rw [current, fifo.tail]
    rfl
  have grown : (state.accepted ++ [value]).length = state.accepted.length + 1 := by simp
  have others : ∀ n, state.accepted.length < n → n < state.popped.length + layout.cap →
      Function.update state.slots (maskIndex layout.cap t) (.published value)
        (slotOf layout start n) = .free := by
    intro n later near
    have apart : slotOf layout start n ≠ slotOf layout start state.accepted.length :=
      (slotOf_ne rounded later (by have := fifo.le; omega)).symm
    simpa [slot, apart] using fifo.vacant n later near
  refine { fifo with tail := ?_, inOrder := ?_, bounded := ?_, published := ?_, vacant := ?_,
                     producer := ?_, consumer := ?_ }
  · rw [grown, current, fifo.tail]
    rfl
  · exact fifo.inOrder.trans (List.prefix_append _ _)
  · rw [grown]
    exact room
  · intro n held (waiting : state.popped.length ≤ n)
      (inside : (state.accepted ++ [value])[n]? = some held)
    rcases Nat.lt_or_ge n state.accepted.length with before | reached
    · have apart : slotOf layout start n ≠ slotOf layout start state.accepted.length :=
        slotOf_ne rounded before (by omega)
      rw [List.getElem?_append_left before] at inside
      simpa [setSlot, slot, apart] using fifo.published n held waiting inside
    · rw [List.getElem?_append_right reached] at inside
      obtain ⟨rfl, rfl⟩ : n = state.accepted.length ∧ value = held := by
        rw [List.getElem?_singleton] at inside
        split at inside
        · exact ⟨by omega, Option.some.inj inside⟩
        · cases inside
      simp [setSlot, slot]
  · intro n (later : (state.accepted ++ [value]).length < n)
      (near : n < state.popped.length + layout.cap)
    exact others n (by omega) near
  · intro (again : (state.accepted ++ [value]).length < state.popped.length + layout.cap)
    exact others _ (by rw [grown]; omega) again
  · exact fifo.consumer.grow value

/-- Storing the head gives the slot of the popped value back. -/
theorem Fifo.afterStoreHead (fifo : Fifo layout start state) {h : Nat} {value : T}
    (stage : state.consumer = .storeHead h value) :
    Fifo layout start
      { setSlot state (maskIndex layout.cap h) .free with
        head := h + 1
        consumer := .idle
        output := some (.popped (some value))
        popped := state.popped ++ [value] } := by
  have holds := fifo.consumer
  simp only [ConsumerHolds, stage] at holds
  obtain ⟨current, oldest⟩ := holds
  have waiting := (List.getElem?_eq_some_iff.mp oldest).1
  have slot : maskIndex layout.cap h = slotOf layout start state.popped.length := by
    rw [current, fifo.head]
    rfl
  have bounded := fifo.bounded
  have kept : ∀ n, state.popped.length < n → n < state.popped.length + layout.cap →
      Function.update state.slots (maskIndex layout.cap h) .free (slotOf layout start n) =
        state.slots (slotOf layout start n) := by
    intro n later near
    rw [slot]
    exact Function.update_of_ne (slotOf_ne rounded later near).symm _ _
  have freed : Function.update state.slots (maskIndex layout.cap h) .free
      (slotOf layout start (state.popped.length + layout.cap)) = .free := by
    rw [slot, slotOf_lap rounded]
    exact Function.update_self ..
  have nextFree : NextFree layout start state →
      (state.accepted.length < (state.popped ++ [value]).length + layout.cap →
        Function.update state.slots (maskIndex layout.cap h) .free
          (slotOf layout start state.accepted.length) = .free) := by
    intro free room
    rcases Nat.lt_or_ge state.accepted.length (state.popped.length + layout.cap) with near | lap
    · rw [kept _ waiting near]
      exact free near
    · have exact_ : state.accepted.length = state.popped.length + layout.cap := by omega
      rw [exact_]
      exact freed
  refine { fifo with head := ?_, inOrder := ?_, bounded := ?_, published := ?_, vacant := ?_,
                     producer := ?_, consumer := trivial }
  · simp [current, fifo.head, Nat.add_assoc]
  · obtain ⟨_, rfl⟩ := List.getElem?_eq_some_iff.mp oldest
    exact List.concat_get_prefix fifo.inOrder waiting
  · rw [List.length_append]
    exact Nat.le_trans bounded (by omega)
  · intro n held (later : (state.popped ++ [value]).length ≤ n)
      (inside : state.accepted[n]? = some held)
    rw [List.length_append, List.length_singleton] at later
    have before := (List.getElem?_eq_some_iff.mp inside).1
    exact (kept n later (by omega)).trans (fifo.published n held (by omega) inside)
  · intro n (later : state.accepted.length < n)
      (near : n < (state.popped ++ [value]).length + layout.cap)
    rw [List.length_append, List.length_singleton] at near
    rcases Nat.lt_or_ge n (state.popped.length + layout.cap) with inside | lap
    · exact (kept n (by omega) inside).trans (fifo.vacant n later inside)
    · have exact_ : n = state.popped.length + layout.cap := by omega
      rw [exact_]
      exact freed
  · have before := fifo.producer
    unfold ProducerHolds at before ⊢
    dsimp only
    cases producerStage : state.producer with
    | idle => simp only [setSlot, producerStage] at before ⊢; exact nextFree before
    | loadTail _ => simp only [setSlot, producerStage] at before ⊢; exact nextFree before
    | loadHead _ t =>
        simp only [setSlot, producerStage] at before ⊢
        exact ⟨before.1, nextFree before.2⟩
    | write _ t =>
        simp only [setSlot, producerStage] at before ⊢
        exact ⟨before.1, by rw [List.length_append]; omega, nextFree before.2.2⟩
    | storeTail _ t =>
        simp only [setSlot, producerStage] at before ⊢
        exact ⟨before.1, by rw [List.length_append]; omega,
          (kept _ waiting before.2.1).trans before.2.2⟩

/-- One access of the producer keeps the invariant. -/
theorem Fifo.producerStep (fifo : Fifo layout start state)
    (stepped : producerStep layout state = some target) : Fifo layout start target := by
  have holds := fifo.producer
  cases produces_of_step stepped with
  | loadTail stage =>
      simp only [ProducerHolds, stage] at holds
      exact { fifo with producer := ⟨rfl, holds⟩ }
  | full stage =>
      simp only [ProducerHolds, stage] at holds
      exact { fifo with producer := holds.2 }
  | room stage fits =>
      simp only [ProducerHolds, stage] at holds
      obtain ⟨rfl, nextFree⟩ := holds
      rw [fifo.full_iff rounded] at fits
      exact { fifo with producer := ⟨rfl, Nat.not_le.mp fits, nextFree⟩ }
  | write stage => exact fifo.afterWrite rounded stage
  | storeTail stage => exact fifo.afterStoreTail rounded stage

/-- One access of the consumer keeps the invariant. -/
theorem Fifo.consumerStep (fifo : Fifo layout start state)
    (stepped : consumerStep layout state = some target) : Fifo layout start target := by
  have holds := fifo.consumer
  cases consumes_of_step stepped with
  | loadHead => exact { fifo with consumer := rfl }
  | empty => exact { fifo with consumer := trivial }
  | occupied stage waits =>
      simp only [ConsumerHolds, stage] at holds
      subst holds
      rw [Ne, fifo.empty_iff rounded] at waits
      have le := fifo.le
      have waiting : state.popped.length < state.accepted.length := by omega
      exact { fifo with consumer := ⟨rfl, waiting⟩ }
  | read stage held =>
      have oldest := fifo.read_oldest stage held
      simp only [ConsumerHolds, stage] at holds
      exact { fifo with consumer := ⟨holds.1, oldest⟩ }
  | storeHead stage => exact fifo.afterStoreHead rounded stage

theorem Fifo.next (fifo : Fifo layout start state) {action : Action T}
    (stepped : next layout state action = some target) : Fifo layout start target := by
  cases action with
  | push value =>
      obtain ⟨stage, rfl⟩ := next_push stepped
      have holds := fifo.producer
      simp only [ProducerHolds, stage] at holds
      exact { fifo with producer := holds }
  | pop =>
      obtain ⟨_, rfl⟩ := next_pop stepped
      exact { fifo with consumer := trivial }
  | producer => exact fifo.producerStep rounded stepped
  | consumer => exact fifo.consumerStep rounded stepped

theorem fifo_of_reachable (reached : (threads layout start).Reachable state) :
    Fifo layout start state :=
  reached.invariant (by rintro _ rfl; exact fifo_startAt)
    fun _ _ _ fifo stepped => fifo.next rounded stepped

end Preservation

section Refinement

/-- The queue that a state stands for: what was accepted and not popped yet. -/
def Fifo.queue (fifo : Fifo layout start state) : SpscRing T where
  capacity := layout.cap
  items := state.accepted.drop state.popped.length
  bounded := by
    have := fifo.bounded
    rw [List.length_drop]
    omega

theorem Fifo.queue_eq (fifo : Fifo layout start state) (after : Fifo layout start target)
    (accepted : target.accepted = state.accepted) (popped : target.popped = state.popped) :
    after.queue = fifo.queue := by
  unfold Fifo.queue
  simp only [accepted, popped]

/-- What a return must be, on the queue before and the queue after the step. -/
def Serves (before after : SpscRing T) : Option (Return T) → Prop
  | none => after = before
  | some (.pushed value (.ok ())) => before.push value = .ok after
  | some (.pushed value (.error handed)) => before.push value = .error handed ∧ after = before
  | some (.popped none) => before.pop = none ∧ after = before
  | some (.popped (some value)) => before.pop = some (value, after)

/-- Storing the tail is the push. -/
theorem Fifo.push_queue (fifo : Fifo layout start state) (after : Fifo layout start target)
    {value : T} (room : state.accepted.length < state.popped.length + layout.cap)
    (accepted : target.accepted = state.accepted ++ [value])
    (popped : target.popped = state.popped) : fifo.queue.push value = .ok after.queue := by
  have fits : fifo.queue.items.length < fifo.queue.capacity := by
    have le := fifo.le
    simp only [Fifo.queue, List.length_drop]
    omega
  unfold SpscRing.push
  rw [dif_pos fits]
  congr 1
  unfold Fifo.queue
  simp only [accepted, popped, List.drop_append_of_le_length fifo.le]

/-- A refused push found the queue full. -/
theorem Fifo.push_queue_full (fifo : Fifo layout start state) {value : T}
    (full : state.popped.length + layout.cap ≤ state.accepted.length) :
    fifo.queue.push value = .error value := by
  refine dif_neg ?_
  simp only [Fifo.queue, List.length_drop]
  omega

theorem Fifo.pop_queue_empty (fifo : Fifo layout start state)
    (empty : state.accepted.length = state.popped.length) : fifo.queue.pop = none := by
  have none : fifo.queue.items = [] := by
    simp only [Fifo.queue, ← empty, List.drop_length]
  unfold SpscRing.pop
  split
  · rfl
  · rename_i content
    cases none.symm.trans content

/-- Storing the head is the pop. -/
theorem Fifo.pop_queue (fifo : Fifo layout start state) (after : Fifo layout start target)
    {value : T} (oldest : state.accepted[state.popped.length]? = some value)
    (accepted : target.accepted = state.accepted)
    (popped : target.popped = state.popped ++ [value]) :
    fifo.queue.pop = some (value, after.queue) := by
  obtain ⟨waiting, rfl⟩ := List.getElem?_eq_some_iff.mp oldest
  have items : fifo.queue.items = state.accepted[state.popped.length] :: after.queue.items := by
    simp only [Fifo.queue, accepted, popped, List.length_append, List.length_singleton]
    exact List.drop_eq_getElem_cons waiting
  unfold SpscRing.pop
  split
  · rename_i content
    cases items.symm.trans content
  · rename_i head rest content
    have same := items.symm.trans content
    rw [List.cons.injEq] at same
    obtain ⟨rfl, rfl⟩ := same
    rfl

/-- Every step leaves the queue alone or returns what the queue returns at that moment. -/
theorem Fifo.serves (rounded : layout.Rounded) (fifo : Fifo layout start state)
    (after : Fifo layout start target) {action : Action T}
    (stepped : Threads.next layout state action = some target) :
    Serves fifo.queue after.queue target.output := by
  cases action with
  | push value =>
      obtain ⟨_, rfl⟩ := next_push stepped
      exact fifo.queue_eq after rfl rfl
  | pop =>
      obtain ⟨_, rfl⟩ := next_pop stepped
      exact fifo.queue_eq after rfl rfl
  | producer =>
      have holds := fifo.producer
      cases produces_of_step stepped with
      | full stage full =>
          simp only [ProducerHolds, stage] at holds
          rw [holds.1, fifo.full_iff rounded] at full
          exact ⟨fifo.push_queue_full full, fifo.queue_eq after rfl rfl⟩
      | storeTail stage =>
          simp only [ProducerHolds, stage] at holds
          exact fifo.push_queue after holds.2.1 rfl rfl
      | loadTail | room | write => exact fifo.queue_eq after rfl rfl
  | consumer =>
      have holds := fifo.consumer
      cases consumes_of_step stepped with
      | empty stage empty =>
          simp only [ConsumerHolds, stage] at holds
          rw [holds, fifo.empty_iff rounded] at empty
          exact ⟨fifo.pop_queue_empty empty, fifo.queue_eq after rfl rfl⟩
      | storeHead stage =>
          simp only [ConsumerHolds, stage] at holds
          exact fifo.pop_queue after holds.2 rfl rfl
      | loadHead | occupied | read => exact fifo.queue_eq after rfl rfl

/-- The accepted and the popped values are those that the calls return, in the order of the
returns. -/
theorem logged_of_next {action : Action T}
    (stepped : Threads.next layout state action = some target) :
    target.accepted = state.accepted ++ target.output.toList.flatMap Return.takenIn ∧
      target.popped = state.popped ++ target.output.toList.flatMap Return.handedOut := by
  have silent {values : List T} (observe : Return T → List T) :
      values = values ++ (none : Option (Return T)).toList.flatMap observe :=
    (List.append_nil values).symm
  cases action with
  | push value =>
      obtain ⟨_, rfl⟩ := next_push stepped
      exact ⟨silent _, silent _⟩
  | pop =>
      obtain ⟨_, rfl⟩ := next_pop stepped
      exact ⟨silent _, silent _⟩
  | producer =>
      cases produces_of_step stepped with
      | full | storeTail => simp [Return.takenIn, Return.handedOut, setSlot]
      | loadTail | room | write => exact ⟨silent _, silent _⟩
  | consumer =>
      cases consumes_of_step stepped with
      | empty | storeHead => simp [Return.takenIn, Return.handedOut, setSlot]
      | loadHead | occupied | read => exact ⟨silent _, silent _⟩

end Refinement

section Rings

/-- The layouts that the two ring types hand to the algorithm. -/
def Layout.Sized (layout : Layout) : Prop :=
  (∃ capacity, layout = withCapacity capacity) ∨ ∃ k ≤ 63, layout = attach (2 ^ k)

theorem rounded_withCapacity (capacity : Nat) : (withCapacity capacity).Rounded := by
  rcases Nat.lt_or_ge (2 ^ 63) (max capacity 1) with large | small
  · exact .inl (nextPowerOfTwo_of_lt large)
  · exact .inr (nextPowerOfTwo_of_le small)

/-- A region sized for a power of two is used as a whole. -/
theorem attach_two_pow {k : Nat} (small : k ≤ 63) : attach (2 ^ k) = withCapacity (2 ^ k) := by
  have positive : max (2 ^ k) 1 = 2 ^ k := Nat.max_eq_left Nat.one_le_two_pow
  unfold attach withCapacity
  rw [positive, nextPowerOfTwo_two_pow small]

theorem Layout.Sized.exists_withCapacity (sized : layout.Sized) :
    ∃ capacity, layout = withCapacity capacity := by
  obtain created | ⟨k, small, attached⟩ := sized
  · exact created
  · exact ⟨2 ^ k, attached.trans (attach_two_pow small)⟩

theorem Layout.Sized.rounded (sized : layout.Sized) : layout.Rounded := by
  obtain ⟨capacity, rfl⟩ := sized.exists_withCapacity
  exact rounded_withCapacity capacity

theorem Layout.Sized.cells_eq (sized : layout.Sized) : layout.cells = layout.cap := by
  obtain ⟨capacity, rfl⟩ := sized.exists_withCapacity
  rfl

/-- What one access of the producer can do: before its check succeeds a push changes nothing,
and once it has succeeded the push is not refused. -/
theorem producerStep_refusal (stepped : producerStep layout state = some target) :
    (¬ state.producer.Committed → target.head = state.head ∧ target.tail = state.tail ∧
      target.slots = state.slots ∧ target.accepted = state.accepted) ∧
    ∀ value handed, target.output = some (.pushed value (.error handed)) →
      handed = value ∧ ¬ state.producer.Committed := by
  cases produces_of_step stepped with
  | loadTail | room =>
      exact ⟨fun _ => ⟨rfl, rfl, rfl, rfl⟩, fun _ _ impossible => nomatch impossible⟩
  | full stage =>
      refine ⟨fun _ => ⟨rfl, rfl, rfl, rfl⟩, fun given handed refused => ?_⟩
      cases refused
      exact ⟨rfl, by rw [stage]; exact id⟩
  | write stage | storeTail stage =>
      refine ⟨fun free => ?_, fun _ _ impossible => nomatch impossible⟩
      rw [stage] at free
      exact absurd trivial free

/-- Every interleaving of one producer and one consumer, from any cursors that are equal: the
popped values are a prefix of the accepted ones, at most the capacity is in flight, a slot is
written only when it is free and read only when the oldest value is published in it, a refused
push hands its value back and changes nothing, and the values logged are the values returned, each
return being the one of a bounded queue at that moment. -/
theorem fifo_every_interleaving (sized : layout.Sized) (start : Nat)
    (reached : (threads layout start).Reachable state) :
    state.popped <+: state.accepted ∧
    state.accepted.length ≤ state.popped.length + layout.cap ∧
    (∀ value t, state.producer = .write value t →
      state.accepted.length < state.popped.length + layout.cap ∧
        maskIndex layout.cap t < layout.cells ∧
        state.slots (maskIndex layout.cap t) = .free) ∧
    (∀ h, state.consumer = .read h →
      maskIndex layout.cap h < layout.cells ∧
        ∃ value, state.accepted[state.popped.length]? = some value ∧
          state.slots (maskIndex layout.cap h) = .published value) ∧
    (∀ target, next layout state .producer = some target →
      (¬ state.producer.Committed → target.head = state.head ∧ target.tail = state.tail ∧
        target.slots = state.slots ∧ target.accepted = state.accepted) ∧
      ∀ value handed, target.output = some (.pushed value (.error handed)) →
        handed = value ∧ ¬ state.producer.Committed) ∧
    ∀ action target, next layout state action = some target →
      target.accepted = state.accepted ++ target.output.toList.flatMap Return.takenIn ∧
      target.popped = state.popped ++ target.output.toList.flatMap Return.handedOut ∧
      ∃ before after : SpscRing T, before.items = state.accepted.drop state.popped.length ∧
        after.items = target.accepted.drop target.popped.length ∧
        Serves before after target.output := by
  have rounded := sized.rounded
  have fifo := fifo_of_reachable rounded reached
  refine ⟨fifo.inOrder, fifo.bounded, ?_, ?_, fun target stepped => producerStep_refusal stepped,
    ?_⟩
  · intro value t stage
    obtain ⟨slot, room, free⟩ := fifo.write_free stage
    have positive : 0 < layout.cap := by
      have := fifo.le
      omega
    refine ⟨room, ?_, free⟩
    rw [slot, sized.cells_eq]
    exact slotOf_lt rounded positive _
  · intro h stage
    obtain ⟨slot, value, oldest, held⟩ := fifo.read_published stage
    have waiting := (List.getElem?_eq_some_iff.mp oldest).1
    have positive : 0 < layout.cap := by
      have := fifo.bounded
      omega
    refine ⟨?_, value, oldest, held⟩
    rw [slot, sized.cells_eq]
    exact slotOf_lt rounded positive _
  · intro action target stepped
    have after := fifo.next rounded stepped
    obtain ⟨accepted, popped⟩ := logged_of_next stepped
    exact ⟨accepted, popped, fifo.queue, after.queue, rfl, rfl,
      fifo.serves rounded after stepped⟩

/-- Two pushes across the wrap of the cursors, a pop, and a push interrupted after its write. -/
def interrupted : List (Action Nat) :=
  [.push 7, .producer, .producer, .producer, .producer,
    .push 8, .producer, .producer, .pop, .consumer, .producer, .producer,
    .consumer, .consumer, .consumer, .push 9, .producer, .producer, .producer]

theorem interrupted_fifo :
    ∃ state, (threads (withCapacity 2) (2 ^ 64 - 1)).Reachable state ∧
      state.slots 1 = .written 9 ∧ state.popped = [7] ∧ state.accepted = [7, 8] ∧
      state.popped <+: state.accepted := by
  have performed : TransitionSystem.perform (next (withCapacity 2)) (startAt (2 ^ 64 - 1))
      interrupted = some _ := rfl
  have reached : (threads (withCapacity 2) (2 ^ 64 - 1)).Reachable _ :=
    TransitionSystem.reachable_of_perform rfl performed
  exact ⟨_, reached, rfl, rfl, rfl,
    (fifo_every_interleaving (.inl ⟨2, rfl⟩) (2 ^ 64 - 1) reached).1⟩

end Rings

end Teleop.Ring.Threads
