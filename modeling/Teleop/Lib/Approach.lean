import Mathlib.Data.Nat.Dist

/-!
# Approaching a target

Sequences of numbers each of which lies between its predecessor and a target.  If every step
covers some distance, the target is reached; if every step from afar covers any distance at
all, the sequence ends up near it.
-/

namespace Teleop.Lib

/-- `next` lies between `last` and `target`. -/
def Toward (last next target : Nat) : Prop :=
  (last ≤ next ∧ next ≤ target) ∨ (target ≤ next ∧ next ≤ last)

section Step

variable {last next target : Nat}

theorem Toward.dist_le (toward : Toward last next target) :
    Nat.dist next target ≤ Nat.dist last target := by
  unfold Toward at toward
  unfold Nat.dist
  omega

/-- Between two numbers of an interval there are only numbers of the interval. -/
theorem Toward.mem {low high : Nat} (toward : Toward last next target)
    (lastLow : low ≤ last) (lastHigh : last ≤ high) (targetLow : low ≤ target)
    (targetHigh : target ≤ high) : low ≤ next ∧ next ≤ high := by
  unfold Toward at toward
  omega

end Step

section Sequence

variable {x : Nat → Nat} {target : Nat}

/-- Steps of some width cover any distance. -/
theorem dist_le_of_steps {width : Nat}
    (steps : ∀ n, Nat.dist (x (n + 1)) target ≤ Nat.dist (x n) target - width) (n : Nat) :
    Nat.dist (x n) target ≤ Nat.dist (x 0) target - n * width := by
  induction n with
  | zero => simp
  | succ n inductionHypothesis =>
      have step := steps n
      rw [Nat.succ_mul]
      omega

/-- As many steps as fit into the distance, rounded up, reach the target. -/
theorem eq_of_steps {width n : Nat}
    (steps : ∀ n, Nat.dist (x (n + 1)) target ≤ Nat.dist (x n) target - width)
    (enough : Nat.dist (x 0) target ≤ n * width) : x n = target := by
  have covered := dist_le_of_steps steps n
  apply Nat.eq_of_dist_eq_zero
  omega

/-- Steps that get closer from afar end near the target, and stay there. -/
theorem eventually_near {slack : Nat}
    (noFarther : ∀ n, Nat.dist (x (n + 1)) target ≤ Nat.dist (x n) target)
    (closer : ∀ n, slack < Nat.dist (x n) target →
      Nat.dist (x (n + 1)) target < Nat.dist (x n) target) :
    ∃ N, ∀ n, N ≤ n → Nat.dist (x n) target ≤ slack := by
  have shrinks (n : Nat) :
      Nat.dist (x n) target ≤ slack ∨ Nat.dist (x n) target + n ≤ Nat.dist (x 0) target := by
    induction n with
    | zero => exact .inr (Nat.le_refl _)
    | succ n inductionHypothesis =>
        have same := noFarther n
        have less := closer n
        omega
  refine ⟨Nat.dist (x 0) target, ?_⟩
  intro n late
  rcases shrinks n with near | spent
  · exact near
  · omega

end Sequence

end Teleop.Lib
