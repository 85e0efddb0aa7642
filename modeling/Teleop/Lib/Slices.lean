import Mathlib.Algebra.Ring.Nat
import Mathlib.Data.List.Basic

/-!
# Offsets and slices that trap

Sums of 64-bit offsets, and the ranges and indices of a buffer.  Where the language stops the
thread there is no value.
-/

namespace Teleop.Lib

variable {α : Type}

/-- `a + b` of two offsets; `none` on overflow. -/
def addOffset (a b : Nat) : Option Nat := if a + b < 2 ^ 64 then some (a + b) else none

/-- `&items[start..stop]`; `none` if the range is not within the items. -/
def slice (items : List α) (start stop : Nat) : Option (List α) :=
  if start ≤ stop ∧ stop ≤ items.length then some ((items.take stop).drop start) else none

theorem addOffset_of_lt {a b : Nat} (fits : a + b < 2 ^ 64) : addOffset a b = some (a + b) :=
  if_pos fits

theorem addOffset_eq_none_iff {a b : Nat} : addOffset a b = none ↔ 2 ^ 64 ≤ a + b := by
  simp [addOffset]

theorem slice_of_le {items : List α} {start stop : Nat} (ordered : start ≤ stop)
    (within : stop ≤ items.length) :
    slice items start stop = some ((items.take stop).drop start) :=
  if_pos ⟨ordered, within⟩

theorem slice_eq_take_of_le {items : List α} {start stop : Nat} (ordered : start ≤ stop)
    (within : stop ≤ items.length) :
    slice items start stop = some ((items.drop start).take (stop - start)) := by
  rw [slice_of_le ordered within, List.drop_take]

end Teleop.Lib
