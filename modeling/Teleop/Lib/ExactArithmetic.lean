import Mathlib.Algebra.Order.Field.Rat
import Mathlib.Tactic.Linarith
import Teleop.Lib.FloatOps

/-!
# Exact arithmetic

Over the rationals the floating-point operations are the order and field operations they
are named after.
-/

namespace Teleop.Lib

namespace FloatOps

@[simp] theorem ofRat_rat (q : ℚ) : (ofRat q : ℚ) = q := rfl

@[simp] theorem lt_rat (x y : ℚ) : lt x y = decide (x < y) := rfl

@[simp] theorem le_rat (x y : ℚ) : le x y = decide (x ≤ y) := rfl

@[simp] theorem eq_rat (x y : ℚ) : eq x y = decide (x = y) := rfl

@[simp] theorem max_rat (x y : ℚ) : FloatOps.max x y = Max.max x y := by
  by_cases smaller : x < y
  · simp [FloatOps.max, smaller, smaller.le]
  · simp [FloatOps.max, smaller, not_lt.mp smaller]

@[simp] theorem min_rat (x y : ℚ) : FloatOps.min x y = Min.min x y := by
  by_cases larger : y < x
  · simp [FloatOps.min, larger, larger.le]
  · simp [FloatOps.min, larger, not_lt.mp larger]

@[simp] theorem abs_rat (x : ℚ) : FloatOps.abs x = |x| := by
  by_cases negative : x < 0
  · simp [FloatOps.abs, negative, abs_of_neg negative]
  · simp [FloatOps.abs, negative, abs_of_nonneg (not_lt.mp negative)]

/-- Clamping to bounds in order ends between them. -/
theorem clamp_mem {low high : ℚ} (x : ℚ) (ordered : low ≤ high) :
    low ≤ clamp x low high ∧ clamp x low high ≤ high := by
  by_cases below : x < low
  · simp [clamp, below, ordered]
  · by_cases above : high < x
    · simp [clamp, below, above, ordered]
    · simp [clamp, below, above, not_lt.mp below, not_lt.mp above]

theorem clamp_of_mem {x low high : ℚ} (above : low ≤ x) (below : x ≤ high) :
    clamp x low high = x := by
  simp [clamp, not_lt.mpr above, not_lt.mpr below]

/-- The lower bound is the image of what is not above it. -/
theorem clamp_eq_low_iff {low high : ℚ} (x : ℚ) (apart : low < high) :
    clamp x low high = low ↔ x ≤ low := by
  by_cases below : x < low
  · simp [clamp, below, below.le]
  · by_cases above : high < x
    · simp [clamp, below, above, apart.ne', apart.trans above]
    · rw [clamp_of_mem (not_lt.mp below) (not_lt.mp above)]
      exact ⟨le_of_eq, fun most => le_antisymm most (not_lt.mp below)⟩

/-- The upper bound is the image of what is not below it. -/
theorem clamp_eq_high_iff {low high : ℚ} (x : ℚ) (apart : low < high) :
    clamp x low high = high ↔ high ≤ x := by
  by_cases below : x < low
  · simp [clamp, below, apart.ne, below.trans apart]
  · by_cases above : high < x
    · simp [clamp, below, above, above.le]
    · rw [clamp_of_mem (not_lt.mp below) (not_lt.mp above)]
      exact ⟨ge_of_eq, fun least => le_antisymm (not_lt.mp above) least⟩

/-- What clamping moves, it moves towards the interval. -/
theorem clamp_cases (x low high : ℚ) :
    (x ≤ clamp x low high ∧ clamp x low high = low) ∨ clamp x low high = x ∨
      (clamp x low high ≤ x ∧ clamp x low high = high) := by
  by_cases below : x < low
  · exact .inl (by simp [clamp, below, below.le])
  · by_cases above : high < x
    · exact .inr (.inr (by simp [clamp, below, above, above.le]))
    · exact .inr (.inl (by simp [clamp, below, above]))

/-- The greater of two values is clamped to the greater value. -/
theorem clamp_mono {v w low high : ℚ} (nonempty : low ≤ high) (ordered : v ≤ w) :
    clamp v low high ≤ clamp w low high := by
  obtain ⟨least, most⟩ := clamp_mem v nonempty
  obtain ⟨least', most'⟩ := clamp_mem w nonempty
  rcases clamp_cases v low high with ⟨_, atLow⟩ | same | ⟨_, atHigh⟩
  · linarith
  · rcases clamp_cases w low high with ⟨_, _⟩ | same' | ⟨_, atHigh'⟩ <;> linarith
  · rcases clamp_cases w low high with ⟨_, _⟩ | same' | ⟨_, atHigh'⟩ <;> linarith

section Symmetric

variable {bound v w : ℚ}

/-- What clamping takes away grows with the value. -/
theorem sub_clamp_mono (nonneg : 0 ≤ bound) (ordered : v ≤ w) :
    v - clamp v (-bound) bound ≤ w - clamp w (-bound) bound := by
  rcases clamp_cases v (-bound) bound with ⟨low, atLow⟩ | same | ⟨high, atHigh⟩
  · obtain ⟨_, most⟩ := clamp_mem w (show -bound ≤ bound by linarith)
    rcases clamp_cases w (-bound) bound with ⟨_, atLow'⟩ | same' | ⟨high', _⟩ <;> linarith
  · rcases clamp_cases w (-bound) bound with ⟨low', atLow'⟩ | same' | ⟨high', _⟩
    · obtain ⟨least, _⟩ := clamp_mem v (show -bound ≤ bound by linarith)
      linarith
    · linarith
    · linarith
  · obtain ⟨_, most⟩ := clamp_mem w (show -bound ≤ bound by linarith)
    rcases clamp_cases w (-bound) bound with ⟨low', atLow'⟩ | same' | ⟨high', _⟩ <;> linarith

theorem clamp_neg (v : ℚ) (nonneg : 0 ≤ bound) :
    clamp (-v) (-bound) bound = -clamp v (-bound) bound := by
  unfold clamp
  by_cases below : v < -bound
  · have above : bound < -v := by linarith
    have notBelow : ¬ -v < -bound := by linarith
    simp [below, above, notBelow]
  · by_cases above : bound < v
    · have below' : -v < -bound := by linarith
      simp [below, above, below']
    · have notBelow : ¬ -v < -bound := by linarith
      have notAbove : ¬ bound < -v := by linarith
      simp [below, above, notBelow, notAbove]

/-- A value beyond a bound is moved to it, any other is not moved. -/
theorem abs_sub_clamp (nonneg : 0 ≤ bound) (v : ℚ) :
    |v - clamp v (-bound) bound| = Max.max (|v| - bound) 0 := by
  unfold clamp
  by_cases below : v < -bound
  · have negative : v + bound < 0 := by linarith
    have outside : 0 ≤ -v - bound := by linarith
    simp only [lt_rat, below, decide_true, if_true]
    rw [sub_neg_eq_add, abs_of_neg negative, abs_of_neg (by linarith : v < 0),
      max_eq_left outside]
    linarith
  · by_cases above : bound < v
    · simp only [lt_rat, below, above, decide_true, decide_false, if_true, Bool.false_eq_true,
        if_false]
      rw [abs_of_pos (by linarith : 0 < v - bound), abs_of_pos (by linarith : 0 < v),
        max_eq_left (by linarith)]
    · have inside : |v| ≤ bound := abs_le.mpr ⟨not_lt.mp below, not_lt.mp above⟩
      simp [below, above, inside]

end Symmetric

/-- A limited step from one point of an interval towards another stays in the interval. -/
theorem limited_step_mem {low high last target step : ℚ} (nonneg : 0 ≤ step)
    (lastLow : low ≤ last) (lastHigh : last ≤ high) (targetLow : low ≤ target)
    (targetHigh : target ≤ high) :
    low ≤ last + clamp (target - last) (-step) step ∧
      last + clamp (target - last) (-step) step ≤ high := by
  rcases clamp_cases (target - last) (-step) step with ⟨moved, bound⟩ | same | ⟨moved, bound⟩
  · constructor <;> linarith
  · constructor <;> linarith
  · constructor <;> linarith

end FloatOps

end Teleop.Lib
