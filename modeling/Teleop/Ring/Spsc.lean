import Mathlib.Algebra.Ring.Nat
import Mathlib.Data.List.Basic

/-!
# The single-producer single-consumer ring, between its atomic steps

What either endpoint sees of a ring when no call is in progress: a first-in
first-out queue of at most `capacity` values.
-/

namespace Teleop.Ring

universe u

/-- `usize::next_power_of_two` on a 64-bit target; past `2 ^ 63` the release build wraps to 0. -/
def nextPowerOfTwo (n : Nat) : Nat :=
  if n ≤ 1 then 1 else if n ≤ 2 ^ 63 then 2 ^ ((n - 1).log2 + 1) else 0

theorem nextPowerOfTwo_of_le {n : Nat} (small : n ≤ 2 ^ 63) :
    ∃ k ≤ 63, nextPowerOfTwo n = 2 ^ k := by
  unfold nextPowerOfTwo
  split
  · exact ⟨0, by omega, rfl⟩
  · refine ⟨(n - 1).log2 + 1, ?_, rfl⟩
    have bound : (n - 1).log2 < 63 := (Nat.log2_lt (by omega)).mpr (by omega)
    omega

theorem nextPowerOfTwo_of_lt {n : Nat} (large : 2 ^ 63 < n) : nextPowerOfTwo n = 0 := by
  unfold nextPowerOfTwo
  rw [if_neg (by omega), if_neg (by omega)]

theorem le_nextPowerOfTwo {n : Nat} (small : n ≤ 2 ^ 63) : n ≤ nextPowerOfTwo n := by
  unfold nextPowerOfTwo
  split
  · assumption
  · have bound : n - 1 < 2 ^ ((n - 1).log2 + 1) := Nat.lt_log2_self
    omega

theorem nextPowerOfTwo_two_pow {k : Nat} (small : k ≤ 63) : nextPowerOfTwo (2 ^ k) = 2 ^ k := by
  cases k with
  | zero => rfl
  | succ k =>
      have large : 2 ≤ 2 ^ (k + 1) := Nat.le_self_pow (by omega) 2
      have fits : 2 ^ (k + 1) ≤ 2 ^ 63 := Nat.pow_le_pow_right (by decide) small
      have half : (2 ^ (k + 1) - 1).log2 = k :=
        (Nat.log2_eq_iff (by omega)).mpr ⟨by rw [Nat.pow_succ] at large ⊢; omega, by omega⟩
      unfold nextPowerOfTwo
      rw [if_neg (by omega), if_pos fits, half]

/-- A bounded queue.  The bound is a field, so an overfull ring cannot be built. -/
structure SpscRing (T : Type u) where
  capacity : Nat
  items : List T
  bounded : items.length ≤ capacity

namespace SpscRing

variable {T : Type u}

/-- An empty ring for at least `capacity` values, rounded up to a power of two. -/
def withCapacity (capacity : Nat) : SpscRing T where
  capacity := nextPowerOfTwo (max capacity 1)
  items := []
  bounded := Nat.zero_le _

/-- Fails fast with the value when the ring is full. -/
def push (ring : SpscRing T) (value : T) : Except T (SpscRing T) :=
  if room : ring.items.length < ring.capacity then
    .ok { ring with
      items := ring.items ++ [value]
      bounded := by
        rw [List.length_append]
        exact room }
  else .error value

/-- The oldest value with the remaining ring, or `none` when the ring is empty. -/
def pop (ring : SpscRing T) : Option (T × SpscRing T) :=
  match content : ring.items with
  | [] => none
  | value :: rest =>
      some (value, { ring with
        items := rest
        bounded := by
          have := ring.bounded
          simp only [content, List.length_cons] at this
          omega })

/-- Pop until the ring is empty. -/
def drain (ring : SpscRing T) : List T × SpscRing T :=
  (ring.items, { ring with items := [], bounded := Nat.zero_le _ })

/-- Push and forget a refusal. -/
def pushOrDrop (ring : SpscRing T) (value : T) : SpscRing T :=
  match ring.push value with
  | .ok pushed => pushed
  | .error _ => ring

theorem items_of_push {ring pushed : SpscRing T} {value : T}
    (result : ring.push value = .ok pushed) : pushed.items = ring.items ++ [value] := by
  unfold push at result
  split at result
  · simp only [Except.ok.injEq] at result
    subst result
    rfl
  · cases result

theorem full_of_push {ring : SpscRing T} {value refused : T}
    (result : ring.push value = .error refused) : ring.capacity ≤ ring.items.length := by
  unfold push at result
  split at result
  · cases result
  · rename_i full
    exact Nat.not_lt.mp full

theorem items_of_pop {ring rest : SpscRing T} {value : T}
    (result : ring.pop = some (value, rest)) : ring.items = value :: rest.items := by
  unfold pop at result
  split at result
  · cases result
  · rename_i head tail content
    simp only [Option.some.injEq, Prod.mk.injEq] at result
    obtain ⟨rfl, rfl⟩ := result
    exact content

theorem capacity_of_pop {ring rest : SpscRing T} {value : T}
    (result : ring.pop = some (value, rest)) : rest.capacity = ring.capacity := by
  unfold pop at result
  split at result
  · cases result
  · simp only [Option.some.injEq, Prod.mk.injEq] at result
    rw [← result.2]

theorem capacity_of_push {ring pushed : SpscRing T} {value : T}
    (result : ring.push value = .ok pushed) : pushed.capacity = ring.capacity := by
  unfold push at result
  split at result
  · cases result
    rfl
  · cases result

theorem items_of_pop_none {ring : SpscRing T} (result : ring.pop = none) : ring.items = [] := by
  unfold pop at result
  split at result
  · assumption
  · cases result

theorem eq_of_items {ring other : SpscRing T} (capacity : ring.capacity = other.capacity)
    (items : ring.items = other.items) : ring = other := by
  cases ring
  cases other
  cases capacity
  cases items
  rfl

/-- A ring that was drained is a new one of its capacity. -/
theorem drain_of_pop {ring rest : SpscRing T} {value : T}
    (result : ring.pop = some (value, rest)) : rest.drain.2 = ring.drain.2 := by
  have kept := capacity_of_pop result
  exact eq_of_items kept rfl

theorem capacity_pushOrDrop (ring : SpscRing T) (value : T) :
    (ring.pushOrDrop value).capacity = ring.capacity := by
  unfold pushOrDrop
  split
  · rename_i pushed result
    exact capacity_of_push result
  · rfl

/-- Values for which there is room all go in. -/
theorem foldl_pushOrDrop {ring : SpscRing T} {values : List T}
    (room : ring.items.length + values.length ≤ ring.capacity) :
    (values.foldl pushOrDrop ring).items = ring.items ++ values ∧
      (values.foldl pushOrDrop ring).capacity = ring.capacity := by
  induction values generalizing ring with
  | nil => simp
  | cons value rest inductionHypothesis =>
      rw [List.length_cons] at room
      have items : (ring.pushOrDrop value).items = ring.items ++ [value] := by
        unfold pushOrDrop push
        rw [dif_pos (by omega)]
      have capacity := ring.capacity_pushOrDrop value
      have fits : (ring.pushOrDrop value).items.length + rest.length ≤
          (ring.pushOrDrop value).capacity := by
        rw [items, capacity, List.length_append, List.length_singleton]
        omega
      obtain ⟨content, kept⟩ := inductionHypothesis fits
      rw [List.foldl_cons]
      refine ⟨?_, kept.trans capacity⟩
      rw [content, items, List.append_assoc, List.singleton_append]

end SpscRing

end Teleop.Ring
