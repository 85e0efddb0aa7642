import Mathlib.Data.Nat.Find
import Teleop.Core.MpmcThreads

/-!
# Popped once, written first, in claimed order

What the ledger says in every reachable state of every interleaving of fewer
calls than half the words, for a ring of two cells or more.
-/

namespace Teleop.Core.Mpmc

open Teleop.Lib Teleop.Ring MpmcRing

universe u

variable {T : Type u} {capacity : Nat} {state target : State T}

/-- What an access of a call does to the state. -/
theorem next_access {id : Nat} {spurious : Bool}
    (stepped : next state (.access id spurious) = some target) :
    ∃ call ring after, state.call id = some call ∧
      state.ring.step spurious call = some (ring, after) ∧
      target = state.access id call after ring := by
  simp only [next] at stepped
  split at stepped
  · cases stepped
  · rename_i call held
    obtain ⟨⟨ring, after⟩, result, rfl⟩ := Option.map_eq_some_iff.mp stepped
    exact ⟨call, ring, after, held, result, rfl⟩

/-- Every run keeps the capacity, and the ledger while the calls are few. -/
theorem ledger_of_reachable (two : 2 ≤ nextPowerOfTwo (max capacity 1))
    (reached : (threads capacity).Reachable state) (few : state.calls.length < 2 ^ 63) :
    Ledger state := by
  have small : max capacity 1 ≤ 2 ^ 63 := by
    by_contra large
    rw [nextPowerOfTwo_of_lt (Nat.lt_of_not_le large)] at two
    omega
  suffices kept : state.ring.cap = nextPowerOfTwo (max capacity 1) ∧
      (state.calls.length < 2 ^ 63 → Ledger state) from kept.2 few
  clear few
  refine TransitionSystem.Reachable.invariant
    (P := fun state : State T => state.ring.cap = nextPowerOfTwo (max capacity 1) ∧
      (state.calls.length < 2 ^ 63 → Ledger state)) ?_ ?_ reached
  · rintro _ rfl
    exact ⟨rfl, fun _ => ledger_start small⟩
  · intro state action target ⟨cap, kept⟩ stepped
    cases action with
    | push value =>
        cases stepped
        refine ⟨cap, fun fewer => ?_⟩
        rw [List.length_append] at fewer
        exact (kept (by omega)).call (.inl ⟨value, rfl⟩)
    | pop =>
        cases stepped
        refine ⟨cap, fun fewer => ?_⟩
        rw [List.length_append] at fewer
        exact (kept (by omega)).call (.inr rfl)
    | access id spurious =>
        obtain ⟨call, ring, after, held, moved, rfl⟩ := next_access stepped
        refine ⟨(step_cap moved).trans cap, fun fewer => ?_⟩
        have before : state.calls.length < 2 ^ 63 := by
          have same : (state.access id call after ring).calls.length = state.calls.length :=
            List.length_set ..
          rwa [same] at fewer
        have ledger := kept before
        exact ledger.access held (ledger.unwrapped before held)
          (ledger.claimable (by rw [cap]; exact two) held) moved

/-- A value that was written and not read since is in its cell. -/
theorem Ledger.keeps (ledger : Ledger state) {p : Nat} {value : T}
    (pushedHere : state.pushed[p]? = some value) (written : ∀ id, ¬ Writing (state.call id) p)
    (unread : (p, value) ∉ state.taken) : state.ring.cell p = some ⟨p + 1, some value⟩ := by
  rcases Nat.lt_or_ge p state.ring.dequeuePos with early | late
  · rcases (ledger.dequeued p).mp early with ⟨found, listed⟩ | ⟨id, reading⟩
    · cases pushedHere.symm.trans (ledger.takenPushed p found listed)
      exact absurd listed unread
    · obtain ⟨_, _, found, same, held⟩ := ledger.protocol.holds id _ reading
      cases pushedHere.symm.trans same
      exact held
  · exact ledger.protocol.full p value late pushedHere written

/-- A value may only be written where all earlier values were read. -/
theorem Ledger.overwrites (ledger : Ledger state) {id p q : Nat}
    (writing : Writing (state.call id) p) (claimedHere : q < state.pushed.length)
    (different : q ≠ p) (same : maskIndex state.ring.cap q = maskIndex state.ring.cap p) :
    ∃ value, (q, value) ∈ state.taken := by
  obtain ⟨late, early, has⟩ := ledger.protocol.of_writing writing
  have room := ledger.protocol.room
  have rounded := ledger.protocol.rounded
  rw [← ledger.protocol.enqueued] at claimedHere
  have before : q < state.ring.dequeuePos := by
    by_contra notBefore
    rcases Nat.lt_or_gt_of_ne different with lt | gt
    · exact rounded.index_ne lt (by omega) same
    · exact rounded.index_ne gt (by omega) same.symm
  rcases (ledger.dequeued q).mp before with read | ⟨reader, reading⟩
  · exact read
  · obtain ⟨_, near, _⟩ := ledger.protocol.of_reading ⟨_, reading, rfl⟩
    exact absurd same (rounded.index_ne (by omega) (by omega))

/-- All positions before the first one not read were read. -/
theorem le_length_of_taken {taken : List (Nat × T)} {bound : Nat}
    (all : ∀ p < bound, ∃ value, (p, value) ∈ taken) : bound ≤ taken.length := by
  have included : List.range bound ⊆ taken.map Prod.fst := by
    intro p listed
    obtain ⟨value, here⟩ := all p (List.mem_range.mp listed)
    exact List.mem_map.mpr ⟨_, here, rfl⟩
  have lengths := List.nodup_range.length_le_of_subset included
  rwa [List.length_range, List.length_map] at lengths

/-- At most the capacity of values is claimed and not read. -/
theorem Ledger.present_le (ledger : Ledger state) :
    state.pushed.length ≤ state.taken.length + state.ring.cap := by
  have room := ledger.protocol.room
  have enqueued := ledger.protocol.enqueued
  by_cases pending : ∃ p, p < state.ring.dequeuePos ∧ ∀ value, (p, value) ∉ state.taken
  · classical
    -- all positions before the oldest one that is still being read were read
    obtain ⟨early, unread⟩ := Nat.find_spec pending
    have older : ∀ p < Nat.find pending, ∃ value, (p, value) ∈ state.taken := by
      intro p before
      have read := Nat.find_min pending before
      by_contra none
      exact read ⟨by omega, fun value listed => none ⟨value, listed⟩⟩
    have count := le_length_of_taken older
    rcases (ledger.dequeued _).mp early with ⟨value, listed⟩ | ⟨id, reading⟩
    · exact absurd listed (unread value)
    · obtain ⟨_, near, _⟩ := ledger.protocol.of_reading ⟨_, reading, rfl⟩
      omega
  · have all : ∀ p < state.ring.dequeuePos, ∃ value, (p, value) ∈ state.taken := by
      intro p before
      by_contra none
      exact pending ⟨p, before, fun value listed => none ⟨value, listed⟩⟩
    have count := le_length_of_taken all
    omega

/-- What the ring guarantees about values, by the positions that their pushes claimed. -/
structure Delivers (state : State T) : Prop where
  /-- No position is read twice. -/
  once : (state.taken.map Prod.fst).Nodup
  /-- A pop reads what was pushed at its position. -/
  faithful : ∀ p value, (p, value) ∈ state.taken → state.pushed[p]? = some value
  /-- A pop about to read finds its value fully written and nobody writing there. -/
  written : ∀ id p, state.call id = some (.popRead p) →
    (∀ writer, ¬ Writing (state.call writer) p) ∧
      ∃ value, state.pushed[p]? = some value ∧ state.ring.cell p = some ⟨p + 1, some value⟩
  /-- A written value stays in its cell until it is read. -/
  kept : ∀ p value, state.pushed[p]? = some value → (∀ id, ¬ Writing (state.call id) p) →
    (p, value) ∉ state.taken → state.ring.cell p = some ⟨p + 1, some value⟩
  /-- Where a value is about to be written, all others were read. -/
  cleared : ∀ id p q, Writing (state.call id) p → q < state.pushed.length → q ≠ p →
    maskIndex state.ring.cap q = maskIndex state.ring.cap p → ∃ value, (q, value) ∈ state.taken
  /-- At most the capacity of values is claimed and not read. -/
  present : state.pushed.length ≤ state.taken.length + state.ring.cap
  /-- Exactly the positions before the dequeue counter were read or are about to be. -/
  unskipped : ∀ p, p < state.ring.dequeuePos ↔
    (∃ value, (p, value) ∈ state.taken) ∨ ∃ id, state.call id = some (.popRead p)
  /-- A value goes to the next position. -/
  pushesNext : ∀ id spurious target, next state (.access id spurious) = some target →
    target.pushed ≠ state.pushed → ∃ value,
      state.call id = some (.pushClaim value state.pushed.length) ∧
        target.call id = some (.pushWrite value state.pushed.length) ∧
          target.pushed = state.pushed ++ [value]
  /-- A consumer claims the next position. -/
  popsNext : ∀ id spurious target, next state (.access id spurious) = some target →
    target.ring.dequeuePos ≠ state.ring.dequeuePos →
      state.call id = some (.popClaim state.ring.dequeuePos) ∧
        target.call id = some (.popRead state.ring.dequeuePos) ∧
          target.ring.dequeuePos = state.ring.dequeuePos + 1
  /-- A pop returns the value that it took at its position. -/
  returns : ∀ id spurious target value, next state (.access id spurious) = some target →
    target.call id = some (.popped (some value)) →
      ∃ p, state.call id = some (.popRelease p value) ∧ (p, value) ∈ state.taken

theorem Ledger.pushesNext (ledger : Ledger state) (few : state.calls.length < 2 ^ 63) {id : Nat}
    {spurious : Bool} (stepped : next state (.access id spurious) = some target)
    (grown : target.pushed ≠ state.pushed) : ∃ value,
      state.call id = some (.pushClaim value state.pushed.length) ∧
        target.call id = some (.pushWrite value state.pushed.length) ∧
          target.pushed = state.pushed ++ [value] := by
  obtain ⟨call, ring, after, held, moved, rfl⟩ := next_access stepped
  have unwrapped := ledger.unwrapped few held
  have enqueued := ledger.protocol.enqueued
  rcases step_enqueue_cases moved with ⟨value, pos, rfl, rfl, won, _⟩ | ⟨_, nothing, _⟩
  · obtain rfl : pos = state.pushed.length := (unwrapped won).symm.trans enqueued
    refine ⟨value, held, ?_, rfl⟩
    rw [State.call_access held, Function.update_self]
  · refine absurd ?_ grown
    show state.pushed ++ claimed call after = state.pushed
    rw [nothing, List.append_nil]

theorem Ledger.popsNext (ledger : Ledger state) (few : state.calls.length < 2 ^ 63) {id : Nat}
    {spurious : Bool} (stepped : next state (.access id spurious) = some target)
    (grown : target.ring.dequeuePos ≠ state.ring.dequeuePos) :
    state.call id = some (.popClaim state.ring.dequeuePos) ∧
      target.call id = some (.popRead state.ring.dequeuePos) ∧
        target.ring.dequeuePos = state.ring.dequeuePos + 1 := by
  obtain ⟨call, ring, after, held, moved, rfl⟩ := next_access stepped
  have unwrapped := ledger.unwrapped few held
  rcases step_dequeue_cases moved with
    ⟨pos, rfl, rfl, won, counted⟩ | ⟨_, _, _, _, _, rfl, _⟩ | ⟨same, _⟩
  · obtain rfl : state.ring.dequeuePos = pos := unwrapped won
    refine ⟨held, ?_, counted⟩
    rw [State.call_access held, Function.update_self]
  · exact absurd rfl grown
  · exact absurd same grown

theorem Ledger.written (ledger : Ledger state) {id p : Nat}
    (reading : state.call id = some (.popRead p)) :
    (∀ writer, ¬ Writing (state.call writer) p) ∧
      ∃ value, state.pushed[p]? = some value ∧
        state.ring.cell p = some ⟨p + 1, some value⟩ := by
  obtain ⟨early, _, found⟩ := ledger.protocol.holds id _ reading
  refine ⟨fun writer writing => ?_, found⟩
  have late := (ledger.protocol.of_writing writing).1
  omega

theorem Ledger.returns (ledger : Ledger state) {id : Nat} {spurious : Bool} {value : T}
    (stepped : next state (.access id spurious) = some target)
    (returned : target.call id = some (.popped (some value))) :
    ∃ p, state.call id = some (.popRelease p value) ∧ (p, value) ∈ state.taken := by
  obtain ⟨call, ring, after, held, moved, rfl⟩ := next_access stepped
  rw [State.call_access held, Function.update_self] at returned
  obtain rfl := Option.some.inj returned
  cases accesses_of_step moved with
  | popRelease => exact ⟨_, held, ledger.released id _ value held⟩

/-- In every interleaving of fewer calls than half the words, on a ring of two cells or more,
values are popped at most once, fully written and in the order of their positions. -/
theorem delivers_of_contention (two : 2 ≤ nextPowerOfTwo (max capacity 1))
    (reached : (threads capacity).Reachable state) (few : state.calls.length < 2 ^ 63) :
    Delivers state := by
  have ledger := ledger_of_reachable two reached few
  exact
    { once := ledger.nodup
      faithful := ledger.takenPushed
      written := fun _ _ => ledger.written
      kept := fun _ _ => ledger.keeps
      cleared := fun _ _ _ => ledger.overwrites
      present := ledger.present_le
      unskipped := ledger.dequeued
      pushesNext := fun _ _ _ => ledger.pushesNext few
      popsNext := fun _ _ _ => ledger.popsNext few
      returns := fun _ _ _ _ => ledger.returns }

/-- A push stopped before it publishes, and a pop that gives up behind it. -/
def stalledPush : List (Action Nat) :=
  [.push 7, .push 8, .access 0 false, .access 0 false, .access 0 true, .access 0 false,
    .access 0 false, .access 1 false, .access 1 false, .access 1 false, .access 0 false,
    .access 1 false, .access 1 false, .pop, .access 2 false, .access 2 false]

theorem stalledPush_delivers : ∃ state, (threads 2).Reachable state ∧
    state.pushed = [7, 8] ∧ state.call 0 = some (.pushPublish 0) ∧
      state.call 2 = some (.popped none) ∧ Delivers state := by
  have performed : TransitionSystem.perform next (start 2) stalledPush = some _ := rfl
  have reached : (threads 2).Reachable _ := TransitionSystem.reachable_of_perform rfl performed
  exact ⟨_, reached, rfl, rfl, rfl, delivers_of_contention (by decide) reached (by decide)⟩

end Teleop.Core.Mpmc
