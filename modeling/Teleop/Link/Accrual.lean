import Mathlib.Algebra.BigOperators.Ring.List
import Mathlib.Algebra.Order.BigOperators.Group.List
import Teleop.Link.Backpressure

/-!
# What refilling in small steps loses

A refill credits whole bytes only and still moves the time of the last refill,
so the fraction of a byte an interval leaves over is gone.  Many short intervals
therefore credit less than one long one; and the product for one long interval
saturates, so that they may also credit more.
-/

namespace Teleop.Link

open Teleop.Lib

namespace Backpressure

/-- Refills at some times, one after the other. -/
def refills : List UInt64 → Backpressure → Option Backpressure
  | [], bp => some bp
  | nowNs :: rest, bp => (bp.refill nowNs).bind (refills rest)

/-- The time since the one before, for each of some times after `last`. -/
def intervals : (last : Nat) → List UInt64 → List Nat
  | _, [] => []
  | last, nowNs :: rest => (nowNs.toNat - last) :: intervals nowNs.toNat rest

theorem sum_intervals {last : Nat} {times : List UInt64} {final : UInt64}
    (after : last ≤ final.toNat) (increasing : (times ++ [final]).Pairwise (· ≤ ·))
    (later : ∀ nowNs ∈ times ++ [final], last ≤ nowNs.toNat) :
    (intervals last (times ++ [final])).sum = final.toNat - last := by
  induction times generalizing last with
  | nil => simp [intervals]
  | cons nowNs rest inductionHypothesis =>
      obtain ⟨first, others⟩ := List.pairwise_cons.mp increasing
      have here : last ≤ nowNs.toNat := later nowNs List.mem_cons_self
      have beyond : nowNs.toNat ≤ final.toNat :=
        UInt64.le_iff_toNat_le.mp (first final (List.mem_append_right _ List.mem_cons_self))
      have remaining := inductionHypothesis beyond others fun time among =>
        UInt64.le_iff_toNat_le.mp (first time among)
      rw [List.cons_append, intervals, List.sum_cons, remaining]
      omega

/-- The bytes that refills at the end of some intervals credit. -/
def wholeBytesOf (capacityBps : UInt64) (elapsed : List Nat) : Nat :=
  (elapsed.map (wholeBytes capacityBps.toNat)).sum

variable {bp : Backpressure}

/-- Without an admission between, the credits of the single intervals add up to the rim. -/
theorem refills_of_bounded (bounded : bp.Bounded) (times : List UInt64)
    (increasing : times.Pairwise (· ≤ ·))
    (later : ∀ nowNs ∈ times, bp.lastRefillNs.toNat ≤ nowNs.toNat) :
    ∃ after, refills times bp = some after ∧
      after.tokens.toNat =
        min (bp.tokens.toNat +
            wholeBytesOf bp.capacityBps (intervals bp.lastRefillNs.toNat times) * 65536)
          (bucket bp.capacityBps) := by
  induction times generalizing bp with
  | nil =>
      refine ⟨bp, rfl, ?_⟩
      have filled := bounded.filled
      simp only [intervals, wholeBytesOf, List.map_nil, List.sum_nil]
      omega
  | cons nowNs rest inductionHypothesis =>
      obtain ⟨first, others⟩ := List.pairwise_cons.mp increasing
      have here : bp.lastRefillNs.toNat ≤ nowNs.toNat := later nowNs List.mem_cons_self
      have step : ∃ middle, bp.refill nowNs = some middle ∧ middle.Bounded ∧
          middle.capacityBps = bp.capacityBps ∧ middle.lastRefillNs = nowNs ∧
          middle.tokens.toNat =
            min (bp.tokens.toNat +
                wholeBytes bp.capacityBps.toNat (nowNs.toNat - bp.lastRefillNs.toNat) * 65536)
              (bucket bp.capacityBps) := by
        rcases refill_cases bounded nowNs with ⟨le, unchanged⟩ | ⟨_, tokens, refilled, value⟩
        · have same : bp.lastRefillNs = nowNs := UInt64.toNat.inj (Nat.le_antisymm here le)
          have filled := bounded.filled
          refine ⟨bp, unchanged, bounded, rfl, same, ?_⟩
          rw [same, Nat.sub_self]
          simp only [wholeBytes, Nat.mul_zero, Nat.zero_min, Nat.zero_div]
          omega
        · refine ⟨_, refilled, ⟨bounded.small, ?_⟩, rfl, rfl, value⟩
          rw [value]
          exact Nat.min_le_right _ _
      obtain ⟨middle, refilled, middleBounded, capacity, last, tokens⟩ := step
      obtain ⟨after, credited, value⟩ :=
        inductionHypothesis middleBounded others fun time among => by
          rw [last]
          exact UInt64.le_iff_toNat_le.mp (first time among)
      refine ⟨after, ?_, ?_⟩
      · rw [refills, refilled]
        exact credited
      · rw [value, tokens, capacity, last]
        simp only [intervals, wholeBytesOf, List.map_cons, List.sum_cons]
        omega

/-- The tokens of a new bucket after refills at some times and no admission. -/
def tokensAfter (capacityBps : UInt64) (times : List UInt64) : Option UInt64 :=
  (refills times (new capacityBps)).map (·.tokens)

/-- Refills at `times` and at `final` leave less than a byte more or less than the single
refill at `final`. -/
def AccruesLosslessly (capacityBps : UInt64) (times : List UInt64) (final : UInt64) : Prop :=
  ∃ parts whole, tokensAfter capacityBps (times ++ [final]) = some parts ∧
    tokensAfter capacityBps [final] = some whole ∧
    parts.toNat < whole.toNat + 65536 ∧ whole.toNat < parts.toNat + 65536

/-- The fractions of a byte that the intervals leave over make up less than a byte; or, where
the single product saturates, the intervals credit just the bytes it saturates at. -/
def FractionsFit (capacityBps : UInt64) (times : List UInt64) (final : UInt64) : Prop :=
  if capacityBps.toNat * final.toNat < 2 ^ 64 then
    ((intervals 0 (times ++ [final])).map (capacityBps.toNat * · % 8000000000)).sum < 8000000000
  else wholeBytesOf capacityBps (intervals 0 (times ++ [final])) = 2305843009

instance decidableFractionsFit (capacityBps : UInt64) (times : List UInt64) (final : UInt64) :
    Decidable (FractionsFit capacityBps times final) := by
  unfold FractionsFit
  infer_instance

section Accrual

variable {capacityBps : UInt64} {times : List UInt64} {final : UInt64}

theorem new_bounded (positive : 1 ≤ capacityBps.toNat) (small : capacityBps.toNat ≤ 2 ^ 50) :
    (new capacityBps).Bounded ∧ (new capacityBps).capacityBps = capacityBps := by
  have paid := Usage.start_paid positive small
  exact ⟨paid.bounded, paid.capacity⟩

/-- What a new bucket holds after some refills. -/
theorem tokensAfter_eq (positive : 1 ≤ capacityBps.toNat) (small : capacityBps.toNat ≤ 2 ^ 50)
    (times : List UInt64) (increasing : times.Pairwise (· ≤ ·)) :
    ∃ tokens, tokensAfter capacityBps times = some tokens ∧
      tokens.toNat = min (wholeBytesOf capacityBps (intervals 0 times) * 65536)
        (bucket capacityBps) := by
  obtain ⟨bounded, capacity⟩ := new_bounded positive small
  obtain ⟨after, refilled, value⟩ :=
    refills_of_bounded bounded times increasing fun nowNs _ => Nat.zero_le _
  refine ⟨after.tokens, by rw [tokensAfter, refilled]; rfl, ?_⟩
  rw [value, capacity]
  simp [new]

/-- Where no product saturates, the intervals credit as much as the whole time exactly when
their fractions fit into less than a byte. -/
theorem wholeBytesOf_eq_iff (increasing : (times ++ [final]).Pairwise (· ≤ ·)) :
    wholeBytesOf capacityBps (intervals 0 (times ++ [final])) =
        wholeBytes capacityBps.toNat final.toNat ↔
      FractionsFit capacityBps times final := by
  unfold FractionsFit
  split
  · rename_i fits
    have total : (intervals 0 (times ++ [final])).sum = final.toNat :=
      sum_intervals (Nat.zero_le _) increasing fun _ _ => Nat.zero_le _
    have parts : (intervals 0 (times ++ [final])).map (wholeBytes capacityBps.toNat) =
        ((intervals 0 (times ++ [final])).map (capacityBps.toNat * ·)).map (· / 8000000000) := by
      rw [List.map_map]
      apply List.map_congr_left
      intro elapsed among
      have within : elapsed ≤ final.toNat := by
        rw [← total]
        exact List.le_sum_of_mem among
      have product := Nat.mul_le_mul_left capacityBps.toNat within
      simp only [wholeBytes, Function.comp_apply]
      rw [Nat.min_eq_left (by omega)]
    have products : ((intervals 0 (times ++ [final])).map (capacityBps.toNat * ·)).sum =
        capacityBps.toNat * final.toNat := by
      rw [← total]
      simpa using List.sum_map_mul_left (intervals 0 (times ++ [final])) id capacityBps.toNat
    have whole : wholeBytes capacityBps.toNat final.toNat =
        capacityBps.toNat * final.toNat / 8000000000 := by
      rw [wholeBytes, Nat.min_eq_left (by omega)]
    rw [wholeBytesOf, parts, whole, ← products, sum_quotients_eq_iff (by decide), List.map_map]
    rfl
  · rename_i saturates
    have whole : wholeBytes capacityBps.toNat final.toNat = 2305843009 := by
      rw [wholeBytes, Nat.min_eq_right (by omega)]
      decide
    rw [whole]

end Accrual

/-- Refills at increasing times whose credit stays below the rim accrue as the single refill at
the last of them does, to within a byte, exactly when the fractions they drop fit. -/
theorem accruesLosslessly_iff_fractionsFit (capacityBps : UInt64)
    (positive : 1 ≤ capacityBps.toNat) (small : capacityBps.toNat ≤ 2 ^ 50)
    (times : List UInt64) (final : UInt64)
    (increasing : (times ++ [final]).Pairwise (· ≤ ·))
    (below : ∀ tokens, tokensAfter capacityBps (times ++ [final]) = some tokens →
      tokens.toNat < bucket capacityBps) :
    AccruesLosslessly capacityBps times final ↔ FractionsFit capacityBps times final := by
  obtain ⟨parts, credited, partsValue⟩ := tokensAfter_eq positive small _ increasing
  obtain ⟨whole, single, wholeValue⟩ :=
    tokensAfter_eq positive small [final] (List.pairwise_singleton _ _)
  have room := below parts credited
  have one : wholeBytesOf capacityBps (intervals 0 [final]) =
      wholeBytes capacityBps.toNat final.toNat := by
    simp [wholeBytesOf, intervals]
  rw [one] at wholeValue
  rw [← wholeBytesOf_eq_iff increasing]
  unfold bucket at room partsValue wholeValue
  constructor
  · rintro ⟨_, _, partsCredited, wholeCredited, above, under⟩
    cases credited.symm.trans partsCredited
    cases single.symm.trans wholeCredited
    omega
  · intro equal
    rw [equal] at partsValue
    exact ⟨parts, whole, credited, single, by omega, by omega⟩

/-- Twenty refills, one every 10 microseconds, at a megabyte per second. -/
theorem tenMicroseconds_lossless :
    AccruesLosslessly 8000000 ((List.range 20).map fun n => .ofNat (10000 * n)) 200000 := by
  have credited : tokensAfter 8000000 (((List.range 20).map fun n => .ofNat (10000 * n)) ++
      [200000]) = some 13107200 := by decide +kernel
  apply (accruesLosslessly_iff_fractionsFit 8000000 (by decide) (by decide) _ 200000
    (by decide +kernel) _).mpr
  · decide +kernel
  · intro tokens same
    cases credited.symm.trans same
    decide

/-- Three refills, one every 999 nanoseconds, credit nothing where one would credit two bytes. -/
theorem accrual_loses :
    tokensAfter 8000000 ([999, 1998] ++ [2997]) = some 0 ∧
      tokensAfter 8000000 [2997] = some (2 * tokenScale) ∧
      (∀ tokens, tokensAfter 8000000 ([999, 1998] ++ [2997]) = some tokens →
        tokens.toNat < bucket 8000000) ∧
      ¬ AccruesLosslessly 8000000 [999, 1998] 2997 := by
  have none : tokensAfter 8000000 ([999, 1998] ++ [2997]) = some 0 := by decide +kernel
  have two : tokensAfter 8000000 [2997] = some (2 * tokenScale) := by decide +kernel
  refine ⟨none, two, ?_, ?_⟩
  · intro tokens same
    cases none.symm.trans same
    decide
  · rintro ⟨parts, whole, partsCredited, wholeCredited, _, under⟩
    cases none.symm.trans partsCredited
    cases two.symm.trans wholeCredited
    exact absurd under (by decide)

end Backpressure

end Teleop.Link
