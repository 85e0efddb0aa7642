import Mathlib.Analysis.Real.Sqrt
import Mathlib.Tactic.Linarith
import Teleop.Lib.FloatOps

/-!
# Exact real arithmetic

Over the reals `hypot` is exact as well, so that a direction is a unit vector.
-/

namespace Teleop.Lib

noncomputable instance : FloatOps ℝ where
  ofRat q := q
  lt x y := decide (x < y)
  le x y := decide (x ≤ y)
  eq x y := decide (x = y)

noncomputable instance : FloatPair ℝ ℝ where
  widen := id
  narrow := id
  hypot x y := √(x * x + y * y)

namespace FloatOps

@[simp] theorem ofRat_real (q : ℚ) : (ofRat q : ℝ) = q := rfl

@[simp] theorem lt_real (x y : ℝ) : lt x y = decide (x < y) := rfl

@[simp] theorem le_real (x y : ℝ) : le x y = decide (x ≤ y) := rfl

@[simp] theorem eq_real (x y : ℝ) : eq x y = decide (x = y) := rfl

@[simp] theorem max_real (x y : ℝ) : FloatOps.max x y = Max.max x y := by
  by_cases smaller : x < y
  · simp [FloatOps.max, smaller, smaller.le]
  · simp [FloatOps.max, smaller, not_lt.mp smaller]

@[simp] theorem min_real (x y : ℝ) : FloatOps.min x y = Min.min x y := by
  by_cases larger : y < x
  · simp [FloatOps.min, larger, larger.le]
  · simp [FloatOps.min, larger, not_lt.mp larger]

@[simp] theorem abs_real (x : ℝ) : FloatOps.abs x = |x| := by
  by_cases negative : x < 0
  · simp [FloatOps.abs, negative, abs_of_neg negative]
  · simp [FloatOps.abs, negative, abs_of_nonneg (not_lt.mp negative)]

@[simp] theorem widen_real (x : ℝ) : (FloatPair.widen x : ℝ) = x := rfl

@[simp] theorem narrow_real (x : ℝ) : (FloatPair.narrow x : ℝ) = x := rfl

/-- Clamping to an interval around 0 ends in it and moves towards 0. -/
theorem abs_clamp_le {bound : ℝ} (nonneg : 0 ≤ bound) (x : ℝ) :
    |clamp x (-bound) bound| ≤ bound ∧ |clamp x (-bound) bound| ≤ |x| := by
  by_cases below : x < -bound
  · have moved : clamp x (-bound) bound = -bound := by simp [clamp, below]
    rw [moved, abs_neg, abs_of_nonneg nonneg]
    exact ⟨le_rfl, by linarith [neg_le_abs x]⟩
  · by_cases above : bound < x
    · have moved : clamp x (-bound) bound = bound := by simp [clamp, below, above]
      rw [moved, abs_of_nonneg nonneg]
      exact ⟨le_rfl, above.le.trans (le_abs_self x)⟩
    · have kept : clamp x (-bound) bound = x := by simp [clamp, below, above]
      rw [kept]
      exact ⟨abs_le.mpr ⟨not_lt.mp below, not_lt.mp above⟩, le_rfl⟩

theorem clamp_unit_mem (x : ℝ) : 0 ≤ clamp x 0 1 ∧ clamp x 0 1 ≤ 1 := by
  by_cases below : x < 0
  · simp [clamp, below]
  · by_cases above : 1 < x
    · simp [clamp, below, above]
    · simp [clamp, below, above, not_lt.mp below, not_lt.mp above]

/-- A limited step reaches the target, or is as long as it may be towards it. -/
theorem abs_limited_step_le (step last target : ℝ) :
    |last + clamp (target - last) (-step) step| ≤ Max.max |target| (|last| - step) := by
  by_cases below : target - last < -step
  · have moved : clamp (target - last) (-step) step = -step := by simp [clamp, below]
    rw [moved]
    rcases le_total 0 (last + -step) with positive | negative
    · rw [abs_of_nonneg positive]
      exact le_max_of_le_right (by linarith [le_abs_self last])
    · rw [abs_of_nonpos negative]
      exact le_max_of_le_left (by linarith [neg_le_abs target])
  · by_cases above : step < target - last
    · have moved : clamp (target - last) (-step) step = step := by simp [clamp, below, above]
      rw [moved]
      rcases le_total 0 (last + step) with positive | negative
      · rw [abs_of_nonneg positive]
        exact le_max_of_le_left (by linarith [le_abs_self target])
      · rw [abs_of_nonpos negative]
        exact le_max_of_le_right (by linarith [neg_le_abs last])
    · have kept : clamp (target - last) (-step) step = target - last := by
        simp [clamp, below, above]
      rw [kept, add_sub_cancel]
      exact le_max_left _ _

theorem hypot_mul_self (x y : ℝ) :
    FloatPair.hypot ℝ x y * FloatPair.hypot ℝ x y = x * x + y * y :=
  Real.mul_self_sqrt (add_nonneg (mul_self_nonneg x) (mul_self_nonneg y))

/-- The direction of a point off the origin is a unit vector. -/
theorem unit_of_hypot_pos {x y : ℝ} (away : 0 < FloatPair.hypot ℝ x y) :
    x / FloatPair.hypot ℝ x y * (x / FloatPair.hypot ℝ x y) +
      y / FloatPair.hypot ℝ x y * (y / FloatPair.hypot ℝ x y) = 1 := by
  have square : FloatPair.hypot ℝ x y * FloatPair.hypot ℝ x y ≠ 0 :=
    (mul_pos away away).ne'
  rw [div_mul_div_comm, div_mul_div_comm, ← add_div, hypot_mul_self,
    ← hypot_mul_self, div_self square]

end FloatOps

end Teleop.Lib
