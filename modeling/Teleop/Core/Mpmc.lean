import Mathlib.Logic.Function.Basic
import Teleop.Lib.Cursor
import Teleop.Ring.Spsc

/-!
# The bounded multi-producer multi-consumer ring

Every cell carries a sequence number; a push claims the next enqueue position by
compare-exchange once the sequence number of its cell shows the cell free, and a
pop the next dequeue position once it shows a value.  A call is cut into its
atomic accesses.  Positions and sequence numbers are kept as the unbounded
numbers they stand for and the code sees them as words.
-/

namespace Teleop.Core

open Teleop.Lib Teleop.Ring

universe u

/-- A cell; `none` stands for uninitialized memory. -/
structure Cell (T : Type u) where
  seq : Nat
  value : Option T
  deriving DecidableEq, Repr

/-- The ring; there is no cell beyond the last one. -/
structure MpmcRing (T : Type u) where
  cells : Nat → Option (Cell T)
  enqueuePos : Nat
  dequeuePos : Nat
  cap : Nat

/-- How far a call of `push` or `pop` has come: its next access, or what it returned. -/
inductive Call (T : Type u) where
  | pushLoad (value : T)
  | pushCheck (value : T) (pos : Nat)
  | pushClaim (value : T) (pos : Nat)
  | pushWrite (value : T) (pos : Nat)
  | pushPublish (pos : Nat)
  | pushed (result : Except T Unit)
  | popLoad
  | popCheck (pos : Nat)
  | popClaim (pos : Nat)
  | popRead (pos : Nat)
  | popRelease (pos : Nat) (value : T)
  | popped (result : Option T)

namespace MpmcRing

variable {T : Type u}

/-- Capacity rounds up to a power of two, at least one. -/
def withCapacity (capacity : Nat) : MpmcRing T :=
  let cap := nextPowerOfTwo (max capacity 1)
  { cells := fun i => if i < cap then some ⟨i, none⟩ else none
    enqueuePos := 0
    dequeuePos := 0
    cap := cap }

/-- The cell at `pos & (cap - 1)`; reading beyond the cells is undefined and blocks. -/
def cell (ring : MpmcRing T) (pos : Nat) : Option (Cell T) :=
  ring.cells (maskIndex ring.cap pos)

def setCell (ring : MpmcRing T) (pos : Nat) (cell : Cell T) : MpmcRing T :=
  { ring with cells := Function.update ring.cells (maskIndex ring.cap pos) (some cell) }

/-- The wrapping difference of a sequence number and a position, read as signed, against
zero: `equal`, `behind` or `ahead`. -/
def byDiff {α : Type u} (seq pos : Nat) (equal behind ahead : α) : α :=
  let diff := cursor seq - cursor pos
  if diff = 0 then equal else if diff.toInt64 < 0 then behind else ahead

/-- One atomic access of a call.  `spurious` lets a weak compare-exchange fail on the expected
value. -/
def step (ring : MpmcRing T) (spurious : Bool) : Call T → Option (MpmcRing T × Call T)
  | .pushLoad value => some (ring, .pushCheck value ring.enqueuePos)
  | .pushCheck value pos =>
      (ring.cell pos).map fun cell =>
        (ring, byDiff cell.seq pos (.pushClaim value pos)
          (.pushed (.error value)) -- full
          (.pushLoad value)) -- stale view
  | .pushClaim value pos =>
      if cursor ring.enqueuePos = cursor pos ∧ spurious = false then
        some ({ ring with enqueuePos := ring.enqueuePos + 1 }, .pushWrite value pos)
      else some (ring, .pushCheck value ring.enqueuePos) -- lost race
  | .pushWrite value pos =>
      (ring.cell pos).map fun cell =>
        (ring.setCell pos { cell with value := some value }, .pushPublish pos)
  | .pushPublish pos =>
      (ring.cell pos).map fun cell =>
        (ring.setCell pos { cell with seq := pos + 1 }, .pushed (.ok ()))
  | .pushed _ => none
  | .popLoad => some (ring, .popCheck ring.dequeuePos)
  | .popCheck pos =>
      (ring.cell pos).map fun cell =>
        (ring, byDiff cell.seq (pos + 1) (.popClaim pos)
          (.popped none) -- empty
          .popLoad)
  | .popClaim pos =>
      if cursor ring.dequeuePos = cursor pos ∧ spurious = false then
        some ({ ring with dequeuePos := ring.dequeuePos + 1 }, .popRead pos)
      else some (ring, .popCheck ring.dequeuePos)
  | .popRead pos =>
      (ring.cell pos).bind fun cell =>
        cell.value.map fun value => (ring, .popRelease pos value)
  | .popRelease pos value =>
      (ring.cell pos).map fun cell =>
        (ring.setCell pos { cell with seq := pos + ring.cap }, .popped (some value))
  | .popped _ => none

/-- The capacity is one that rounding up produces without overflow. -/
def Rounded (ring : MpmcRing T) : Prop := ∃ k ≤ 63, ring.cap = 2 ^ k

theorem Rounded.pos {ring : MpmcRing T} (rounded : ring.Rounded) : 0 < ring.cap := by
  obtain ⟨k, _, power⟩ := rounded
  rw [power]
  exact Nat.two_pow_pos k

theorem Rounded.le {ring : MpmcRing T} (rounded : ring.Rounded) : ring.cap ≤ 2 ^ 63 := by
  obtain ⟨k, small, power⟩ := rounded
  rw [power]
  exact Nat.pow_le_pow_right (by decide) small

theorem Rounded.maskIndex {ring : MpmcRing T} (rounded : ring.Rounded) (pos : Nat) :
    maskIndex ring.cap pos = pos % ring.cap := by
  obtain ⟨k, small, power⟩ := rounded
  rw [power, maskIndex_two_pow small]

/-- Positions less than a lap apart have different cells. -/
theorem Rounded.index_ne {ring : MpmcRing T} (rounded : ring.Rounded) {a b : Nat} (lt : a < b)
    (near : b < a + ring.cap) : Lib.maskIndex ring.cap a ≠ Lib.maskIndex ring.cap b := by
  intro same
  rw [rounded.maskIndex, rounded.maskIndex] at same
  have equal := eq_of_same_cell (Nat.le_of_lt lt) near same
  omega

/-- A lap later comes the same cell again. -/
theorem Rounded.index_lap {ring : MpmcRing T} (rounded : ring.Rounded) (pos : Nat) :
    Lib.maskIndex ring.cap (pos + ring.cap) = Lib.maskIndex ring.cap pos := by
  rw [rounded.maskIndex, rounded.maskIndex, Nat.add_mod_right]

@[simp] theorem cell_setCell_self (ring : MpmcRing T) (pos : Nat) (cell : Cell T) :
    (ring.setCell pos cell).cell pos = some cell :=
  Function.update_self ..

@[simp] theorem setCell_setCell (ring : MpmcRing T) (pos : Nat) (first second : Cell T) :
    (ring.setCell pos first).setCell pos second = ring.setCell pos second := by
  simp [setCell]

theorem cell_setCell_of_ne (ring : MpmcRing T) {pos other : Nat} (cell : Cell T)
    (apart : maskIndex ring.cap other ≠ maskIndex ring.cap pos) :
    (ring.setCell pos cell).cell other = ring.cell other :=
  Function.update_of_ne apart ..

section Diff

variable {α : Type u} {equal behind ahead : α}

@[simp] theorem byDiff_self (pos : Nat) : byDiff pos pos equal behind ahead = equal := by
  simp [byDiff]

/-- A sequence number that lags by at most half a turn is behind. -/
theorem byDiff_of_lt {seq pos : Nat} (lt : seq < pos) (near : pos - seq ≤ 2 ^ 63) :
    byDiff seq pos equal behind ahead = behind := by
  have distance := toNat_cursor_sub_of_lt lt (by omega)
  have different : cursor seq - cursor pos ≠ 0 := by
    intro zero
    rw [zero] at distance
    have : (0 : Nat) = 2 ^ 64 - (pos - seq) := distance
    omega
  have negative : (cursor seq - cursor pos).toInt64 < 0 := by
    rw [toInt64_neg_iff]
    omega
  unfold byDiff
  rw [if_neg different, if_pos negative]

/-- The comparison that makes a push report a full ring and a pop an empty one. -/
def Behind (seq pos : Nat) : Prop := (cursor seq - cursor pos).toInt64 < 0

/-- Whatever the difference, the outcome is one of the three. -/
theorem byDiff_cases (seq pos : Nat) (equal behind ahead : α) :
    (byDiff seq pos equal behind ahead = equal ∧ cursor seq = cursor pos) ∨
      (byDiff seq pos equal behind ahead = behind ∧ Behind seq pos) ∨
        byDiff seq pos equal behind ahead = ahead := by
  unfold byDiff
  dsimp only
  split
  · rename_i zero
    exact .inl ⟨rfl, cursor_eq_of_sub_eq_zero zero⟩
  · split
    · rename_i negative
      exact .inr (.inl ⟨rfl, negative⟩)
    · exact .inr (.inr rfl)

/-- A sequence number at the position or less than half a turn beyond is not behind. -/
theorem not_behind {seq pos : Nat} (late : pos ≤ seq) (near : seq < pos + 2 ^ 63) :
    ¬ Behind seq pos := by
  intro behind
  have distance := toNat_cursor_sub late (by omega)
  rw [Behind, toInt64_neg_iff] at behind
  omega

end Diff

/-- What an access finds and does, by the outcome of its comparison. -/
inductive Accesses (ring : MpmcRing T) : Call T → MpmcRing T → Call T → Prop
  | pushLoad {value : T} : Accesses ring (.pushLoad value) ring (.pushCheck value ring.enqueuePos)
  | pushFree {value : T} {pos : Nat} {cell : Cell T} : ring.cell pos = some cell →
      cursor cell.seq = cursor pos →
      Accesses ring (.pushCheck value pos) ring (.pushClaim value pos)
  | pushFull {value : T} {pos : Nat} {cell : Cell T} : ring.cell pos = some cell →
      Behind cell.seq pos → Accesses ring (.pushCheck value pos) ring (.pushed (.error value))
  | pushStale {value : T} {pos : Nat} :
      Accesses ring (.pushCheck value pos) ring (.pushLoad value)
  | pushClaim {value : T} {pos : Nat} : cursor ring.enqueuePos = cursor pos →
      Accesses ring (.pushClaim value pos) { ring with enqueuePos := ring.enqueuePos + 1 }
        (.pushWrite value pos)
  | pushLost {value : T} {pos : Nat} :
      Accesses ring (.pushClaim value pos) ring (.pushCheck value ring.enqueuePos)
  | pushWrite {value : T} {pos : Nat} {cell : Cell T} : ring.cell pos = some cell →
      Accesses ring (.pushWrite value pos) (ring.setCell pos { cell with value := some value })
        (.pushPublish pos)
  | pushPublish {pos : Nat} {cell : Cell T} : ring.cell pos = some cell →
      Accesses ring (.pushPublish pos) (ring.setCell pos { cell with seq := pos + 1 })
        (.pushed (.ok ()))
  | popLoad : Accesses ring .popLoad ring (.popCheck ring.dequeuePos)
  | popFull {pos : Nat} {cell : Cell T} : ring.cell pos = some cell →
      cursor cell.seq = cursor (pos + 1) → Accesses ring (.popCheck pos) ring (.popClaim pos)
  | popEmpty {pos : Nat} : Accesses ring (.popCheck pos) ring (.popped none)
  | popStale {pos : Nat} : Accesses ring (.popCheck pos) ring .popLoad
  | popClaim {pos : Nat} : cursor ring.dequeuePos = cursor pos →
      Accesses ring (.popClaim pos) { ring with dequeuePos := ring.dequeuePos + 1 } (.popRead pos)
  | popLost {pos : Nat} : Accesses ring (.popClaim pos) ring (.popCheck ring.dequeuePos)
  | popRead {pos : Nat} {cell : Cell T} {value : T} : ring.cell pos = some cell →
      cell.value = some value → Accesses ring (.popRead pos) ring (.popRelease pos value)
  | popRelease {pos : Nat} {value : T} {cell : Cell T} : ring.cell pos = some cell →
      Accesses ring (.popRelease pos value) (ring.setCell pos { cell with seq := pos + ring.cap })
        (.popped (some value))

theorem accesses_of_step {ring target : MpmcRing T} {call after : Call T} {spurious : Bool}
    (stepped : ring.step spurious call = some (target, after)) :
    ring.Accesses call target after := by
  cases call with
  | pushLoad _ | popLoad =>
      cases stepped
      constructor
  | pushCheck value pos =>
      simp only [step, Option.map_eq_some_iff, Prod.mk.injEq] at stepped
      obtain ⟨cell, held, rfl, rfl⟩ := stepped
      rcases byDiff_cases cell.seq pos (Call.pushClaim value pos) (.pushed (.error value))
        (.pushLoad value) with ⟨result, free⟩ | ⟨result, behind⟩ | result
      · rw [result]
        exact .pushFree held free
      · rw [result]
        exact .pushFull held behind
      · rw [result]
        exact .pushStale
  | popCheck pos =>
      simp only [step, Option.map_eq_some_iff, Prod.mk.injEq] at stepped
      obtain ⟨cell, held, rfl, rfl⟩ := stepped
      rcases byDiff_cases cell.seq (pos + 1) (Call.popClaim pos : Call T) (.popped none)
        .popLoad with ⟨result, full⟩ | ⟨result, -⟩ | result
      · rw [result]
        exact .popFull held full
      · rw [result]
        exact .popEmpty
      · rw [result]
        exact .popStale
  | pushClaim value pos =>
      simp only [step] at stepped
      split at stepped <;> cases stepped
      · rename_i won
        exact .pushClaim won.1
      · exact .pushLost
  | popClaim pos =>
      simp only [step] at stepped
      split at stepped <;> cases stepped
      · rename_i won
        exact .popClaim won.1
      · exact .popLost
  | popRead pos =>
      simp only [step, Option.bind_eq_some_iff, Option.map_eq_some_iff, Prod.mk.injEq] at stepped
      obtain ⟨cell, held, value, stored, rfl, rfl⟩ := stepped
      exact .popRead held stored
  | pushWrite _ _ | pushPublish _ | popRelease _ _ =>
      simp only [step, Option.map_eq_some_iff, Prod.mk.injEq] at stepped
      obtain ⟨cell, held, rfl, rfl⟩ := stepped
      constructor
      exact held
  | pushed _ | popped _ => cases stepped

end MpmcRing

end Teleop.Core
