import Mathlib.Algebra.Order.Field.Basic
import Mathlib.Order.Monotone.Defs
import Mathlib.Tactic.Linarith
import Mathlib.Tactic.Positivity
import Mathlib.Tactic.Ring

/-!
# The quintic step

The polynomial `6x⁵ − 15x⁴ + 10x³`, which takes the value 0 at 0 and 1 at 1 and is flat at
both ends.  Its derivative is a square up to a factor, so it rises everywhere.
-/

namespace Teleop.Lib

universe u

variable {K : Type u} [Field K] [LinearOrder K] [IsStrictOrderedRing K]

def quintic (x : K) : K := 6 * x ^ 5 - 15 * x ^ 4 + 10 * x ^ 3

omit [LinearOrder K] [IsStrictOrderedRing K] in
@[simp] theorem quintic_zero : quintic (0 : K) = 0 := by simp [quintic]

omit [LinearOrder K] [IsStrictOrderedRing K] in
@[simp] theorem quintic_one : quintic (1 : K) = 1 := by
  unfold quintic
  ring

/-- The rise from `m - h` to `m + h`, as a sum of squares. -/
theorem quintic_sub (m h : K) : quintic (m + h) - quintic (m - h) =
    2 * h * (30 * ((m * (1 - m) - h ^ 2 / 3) ^ 2 + 4 / 45 * h ^ 4 +
      (1 - 2 * m) ^ 2 * h ^ 2 / 3)) := by
  unfold quintic
  ring

theorem quintic_strictMono : StrictMono (quintic : K → K) := by
  intro x y rises
  have half : 0 < (y - x) / 2 := by linarith
  have upper : (x + y) / 2 + (y - x) / 2 = y := by ring
  have lower : (x + y) / 2 - (y - x) / 2 = x := by ring
  have rise := quintic_sub ((x + y) / 2) ((y - x) / 2)
  rw [upper, lower] at rise
  have positive : 0 < quintic y - quintic x := by
    rw [rise]
    positivity
  linarith

theorem quintic_lt_one {x : K} (below : x < 1) : quintic x < 1 := by
  have lower := quintic_strictMono below
  rwa [quintic_one] at lower

end Teleop.Lib
