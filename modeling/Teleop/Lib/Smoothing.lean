import Mathlib.Algebra.BigOperators.Group.List.Basic
import Mathlib.Algebra.Order.Field.Basic
import Mathlib.Tactic.Linarith
import Mathlib.Tactic.Ring

/-!
# Exponential smoothing

A value that moves, in every step, some part of the way to where it is pulled.  It stays in
every interval that contains all of these targets, and what remains of the distance to a fixed
target is the product of the parts left over.
-/

namespace Teleop.Lib

variable {K : Type} [Field K]

/-- The part `alpha` of the way from `x` to `target`. -/
def smooth (x target alpha : K) : K := x + (target - x) * alpha

theorem smooth_sub (x target alpha : K) :
    smooth x target alpha - target = (1 - alpha) * (x - target) := by
  unfold smooth
  ring

/-- The same as a weighted mean. -/
theorem smooth_eq_mean (x target alpha : K) :
    smooth x target alpha = x * (1 - alpha) + target * alpha := by
  unfold smooth
  ring

/-- Steps towards one target. -/
def settle (x target : K) (alphas : List K) : K :=
  alphas.foldl (fun value alpha => smooth value target alpha) x

@[simp] theorem settle_nil (x target : K) : settle x target [] = x := rfl

@[simp] theorem settle_cons (x target alpha : K) (alphas : List K) :
    settle x target (alpha :: alphas) = settle (smooth x target alpha) target alphas := rfl

/-- What is left of the distance. -/
theorem settle_sub (x target : K) (alphas : List K) :
    settle x target alphas - target = (alphas.map (1 - ·)).prod * (x - target) := by
  induction alphas generalizing x with
  | nil => simp
  | cons alpha rest inductionHypothesis =>
      rw [settle_cons, inductionHypothesis, smooth_sub, List.map_cons, List.prod_cons]
      ring

variable [LinearOrder K] [IsStrictOrderedRing K]

section Step

variable {x target alpha low high : K}

theorem le_smooth (nonneg : 0 ≤ alpha) (most : alpha ≤ 1) (value : low ≤ x) (pull : low ≤ target) :
    low ≤ smooth x target alpha := by
  have kept := mul_nonneg (sub_nonneg.mpr value) (sub_nonneg.mpr most)
  have moved := mul_nonneg (sub_nonneg.mpr pull) nonneg
  rw [smooth_eq_mean]
  linarith

theorem smooth_le (nonneg : 0 ≤ alpha) (most : alpha ≤ 1) (value : x ≤ high)
    (pull : target ≤ high) : smooth x target alpha ≤ high := by
  have kept := mul_nonneg (sub_nonneg.mpr value) (sub_nonneg.mpr most)
  have moved := mul_nonneg (sub_nonneg.mpr pull) nonneg
  rw [smooth_eq_mean]
  linarith

/-- An interval that contains the value and the target contains the step between them. -/
theorem smooth_mem (nonneg : 0 ≤ alpha) (most : alpha ≤ 1) (value : low ≤ x ∧ x ≤ high)
    (pull : low ≤ target ∧ target ≤ high) :
    low ≤ smooth x target alpha ∧ smooth x target alpha ≤ high :=
  ⟨le_smooth nonneg most value.1 pull.1, smooth_le nonneg most value.2 pull.2⟩

end Step

section Remainder

variable {alphas : List K}

theorem prod_remainder_nonneg (parts : ∀ alpha ∈ alphas, alpha ≤ 1) :
    0 ≤ (alphas.map (1 - ·)).prod := by
  induction alphas with
  | nil => exact zero_le_one
  | cons alpha rest inductionHypothesis =>
      obtain ⟨part, others⟩ := List.forall_mem_cons.mp parts
      rw [List.map_cons, List.prod_cons]
      exact mul_nonneg (sub_nonneg.mpr part) (inductionHypothesis others)

/-- The distance to the target, which the value never overshoots. -/
theorem abs_settle_sub (x target : K) (parts : ∀ alpha ∈ alphas, alpha ≤ 1) :
    |settle x target alphas - target| = (alphas.map (1 - ·)).prod * |x - target| := by
  rw [settle_sub, abs_mul, abs_of_nonneg (prod_remainder_nonneg parts)]

/-- Equal steps leave a power of the distance. -/
theorem abs_settle_replicate_sub (x target : K) {alpha : K} (part : alpha ≤ 1) (n : Nat) :
    |settle x target (List.replicate n alpha) - target| = (1 - alpha) ^ n * |x - target| := by
  rw [abs_settle_sub, List.map_replicate, List.prod_replicate]
  intro other listed
  rw [List.eq_of_mem_replicate listed]
  exact part

end Remainder

end Teleop.Lib
