import Teleop.Lib.Approach
import Teleop.Lib.Checked

/-!
# The smoothed round-trip time

A moving average with weight one quarter, in truncating arithmetic: a quarter of the estimate
is replaced by a quarter of the sample.  The code keeps the value 0 for an estimate that has
not seen a sample, and an estimate of 0 takes over the next sample as it is.
-/

namespace Teleop.Link

open Teleop.Lib

/-- Records a sample; without a result when some arithmetic overflows. -/
def noteRttNs (rttEwmaNs sampleNs : UInt64) : Option UInt64 :=
  if rttEwmaNs = 0 then some sampleNs
  else do
    let kept ← checkedSub rttEwmaNs (rttEwmaNs / 4)
    checkedAdd kept (sampleNs / 4)

/-- The estimate after some samples. -/
def rttEstimateNs (samples : List UInt64) : Option UInt64 := samples.foldlM noteRttNs 0

section Step

variable (rttEwmaNs sampleNs : UInt64)

/-- What a sample makes of the estimate, as numbers. -/
theorem noteRttNs_spec :
    ∃ next, noteRttNs rttEwmaNs sampleNs = some next ∧
      next.toNat = if rttEwmaNs.toNat = 0 then sampleNs.toNat
        else rttEwmaNs.toNat - rttEwmaNs.toNat / 4 + sampleNs.toNat / 4 := by
  have quarter : (rttEwmaNs / 4).toNat = rttEwmaNs.toNat / 4 := UInt64.toNat_div ..
  have share : (sampleNs / 4).toNat = sampleNs.toNat / 4 := UInt64.toNat_div ..
  have zero : rttEwmaNs = 0 ↔ rttEwmaNs.toNat = 0 := by rw [← UInt64.toNat_inj]; rfl
  unfold noteRttNs
  by_cases none : rttEwmaNs = 0
  · exact ⟨_, if_pos none, by rw [if_pos (zero.mp none)]⟩
  · obtain ⟨kept, keptValue⟩ := checkedSub_of_le (a := rttEwmaNs) (b := rttEwmaNs / 4)
      (by rw [quarter]; omega)
    have room : (rttEwmaNs - rttEwmaNs / 4).toNat + (sampleNs / 4).toNat < 2 ^ 64 := by
      have bound := rttEwmaNs.toNat_lt
      have bound' := sampleNs.toNat_lt
      rw [keptValue, quarter, share]
      omega
    obtain ⟨sum, sumValue⟩ := checkedAdd_of_lt room
    refine ⟨rttEwmaNs - rttEwmaNs / 4 + sampleNs / 4, ?_, ?_⟩
    · rw [if_neg none, kept, Option.bind_eq_bind, Option.bind_some, sum]
    · rw [if_neg (mt zero.mpr none), sumValue, keptValue, quarter, share]

/-- The estimate moves towards the sample and not beyond it: rounding down keeps the order. -/
theorem noteRttNs_toward :
    ∃ next, noteRttNs rttEwmaNs sampleNs = some next ∧
      Toward rttEwmaNs.toNat next.toNat sampleNs.toNat ∧
      (3 < Nat.dist rttEwmaNs.toNat sampleNs.toNat →
        Nat.dist next.toNat sampleNs.toNat < Nat.dist rttEwmaNs.toNat sampleNs.toNat) := by
  obtain ⟨next, noted, value⟩ := noteRttNs_spec rttEwmaNs sampleNs
  refine ⟨next, noted, ?_, ?_⟩
  · unfold Toward
    split at value <;> omega
  · unfold Nat.dist
    split at value <;> omega

end Step

/-- Every sample is taken, and the estimate stays among the samples. -/
theorem rttEstimateNs_mem {samples : List UInt64} (nonempty : samples ≠ []) :
    ∃ estimate, rttEstimateNs samples = some estimate ∧
      (∃ least ∈ samples, least ≤ estimate) ∧ ∃ greatest ∈ samples, estimate ≤ greatest := by
  unfold rttEstimateNs
  induction samples using List.reverseRecOn with
  | nil => exact absurd rfl nonempty
  | append_singleton samples sample inductionHypothesis =>
      rw [List.foldlM_append]
      by_cases first : samples = []
      · subst first
        exact ⟨sample, rfl, ⟨sample, by simp⟩, ⟨sample, by simp⟩⟩
      · obtain ⟨estimate, folded, ⟨least, low, leastLe⟩, ⟨greatest, high, leGreatest⟩⟩ :=
          inductionHypothesis first
        obtain ⟨next, noted, toward, _⟩ := noteRttNs_toward estimate sample
        rw [UInt64.le_iff_toNat_le] at leastLe leGreatest
        refine ⟨next, ?_, ?_, ?_⟩
        · rw [folded]
          simpa using noted
        · by_cases lower : least ≤ next
          · exact ⟨least, List.mem_append_left _ low, lower⟩
          · refine ⟨sample, by simp, ?_⟩
            rw [UInt64.le_iff_toNat_le] at lower ⊢
            unfold Toward at toward
            omega
        · by_cases upper : next ≤ greatest
          · exact ⟨greatest, List.mem_append_left _ high, upper⟩
          · refine ⟨sample, by simp, ?_⟩
            rw [UInt64.le_iff_toNat_le] at upper ⊢
            unfold Toward at toward
            omega

/-- A sample that comes again and again draws the estimate towards it. -/
theorem exists_repeated (estimate sampleNs : UInt64) :
    ∃ estimates : Nat → UInt64, estimates 0 = estimate ∧
      (∀ n, noteRttNs (estimates n) sampleNs = some (estimates (n + 1)) ∧
        Toward (estimates n).toNat (estimates (n + 1)).toNat sampleNs.toNat) ∧
      ∃ N, ∀ n, N ≤ n → Nat.dist (estimates n).toNat sampleNs.toNat ≤ 3 := by
  choose next noted toward closer using fun rttEwmaNs => noteRttNs_toward rttEwmaNs sampleNs
  obtain ⟨estimates, start, step⟩ : ∃ estimates : Nat → UInt64, estimates 0 = estimate ∧
      ∀ n, estimates (n + 1) = next (estimates n) :=
    ⟨fun n => next^[n] estimate, rfl, fun n => Function.iterate_succ_apply' next n estimate⟩
  refine ⟨estimates, start, ?_, ?_⟩
  · intro n
    rw [step]
    exact ⟨noted _, toward _⟩
  · apply eventually_near
    · intro n
      rw [step]
      exact (toward _).dist_le
    · intro n
      rw [step]
      exact closer _

/-- After any samples the estimate is one of a mean: among the samples, and drawn towards a
sample that is repeated until it is within 3 ns of it. -/
theorem rttEstimate_mean (samples : List UInt64) (nonempty : samples ≠ []) :
    ∃ estimate, rttEstimateNs samples = some estimate ∧
      (∃ least ∈ samples, least ≤ estimate) ∧ (∃ greatest ∈ samples, estimate ≤ greatest) ∧
      ∀ sampleNs, ∃ estimates : Nat → UInt64, estimates 0 = estimate ∧
        (∀ n, noteRttNs (estimates n) sampleNs = some (estimates (n + 1)) ∧
          Toward (estimates n).toNat (estimates (n + 1)).toNat sampleNs.toNat) ∧
        ∃ N, ∀ n, N ≤ n → Nat.dist (estimates n).toNat sampleNs.toNat ≤ 3 := by
  obtain ⟨estimate, folded, least, greatest⟩ := rttEstimateNs_mem nonempty
  exact ⟨estimate, folded, least, greatest, exists_repeated estimate⟩

theorem rttEstimate_mean_three :
    ∃ estimate, rttEstimateNs [7, 0, 18446744073709551615] = some estimate ∧
      (∃ least ∈ [7, 0, 18446744073709551615], least ≤ estimate) ∧
      (∃ greatest ∈ [7, 0, 18446744073709551615], estimate ≤ greatest) ∧
      ∀ sampleNs, ∃ estimates : Nat → UInt64, estimates 0 = estimate ∧
        (∀ n, noteRttNs (estimates n) sampleNs = some (estimates (n + 1)) ∧
          Toward (estimates n).toNat (estimates (n + 1)).toNat sampleNs.toNat) ∧
        ∃ N, ∀ n, N ≤ n → Nat.dist (estimates n).toNat sampleNs.toNat ≤ 3 :=
  rttEstimate_mean [7, 0, 18446744073709551615] (List.cons_ne_nil _ _)

end Teleop.Link
