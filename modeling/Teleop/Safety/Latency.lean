import Mathlib.Tactic.FinCases
import Teleop.Lib.ExactArithmetic
import Teleop.Lib.Smoothing
import Teleop.Lib.TransitionSystem
import Teleop.Safety.Stages

/-!
# The delay that stale commands are compensated for

The tracked delay is between those that were observed and follows a steady link geometrically;
what it attenuates keeps its direction and at least a fifth of its size.
-/

namespace Teleop.Safety

open Teleop.Core Teleop.Core.ControlCommand Teleop.Lib Teleop.Lib.FloatOps Teleop.Lib.FloatPair

/-- A tracker and the delays it has observed. -/
structure TrackedLink where
  latency : LatencyCompensator ℚ
  delays : List ℚ

/-- The clock of the loop and the stamp of a command. -/
structure Observation where
  nowNs : UInt64
  stampNs : UInt64

/-- The delay of an observation, which is not negative. -/
def Observation.delay (observation : Observation) : ℚ :=
  ((saturatingSub observation.nowNs observation.stampNs).toNat : ℚ)

namespace TrackedLink

def observe (link : TrackedLink) (observation : Observation) : TrackedLink where
  latency := (link.latency.observe observation.nowNs observation.stampNs).1
  delays := link.delays ++ [observation.delay]

/-- Trackers of any factor and any limit. -/
def system : TransitionSystem TrackedLink Observation :=
  .ofTotal (fun link => ∃ alpha maxNs, link = ⟨.new alpha maxNs, []⟩) observe

end TrackedLink

/-- The axes that are attenuated. -/
def Translational (axis : Fin 6) : Prop := axis ∈ [roll, pitch, latX, latY]

instance (axis : Fin 6) : Decidable (Translational axis) := by
  unfold Translational
  infer_instance

section Step

variable {latency : LatencyCompensator ℚ}

theorem delay_nonneg (observation : Observation) : 0 ≤ observation.delay := Nat.cast_nonneg _

/-- The first delay is taken as it is, a later one is smoothed in. -/
theorem ewmaNs_observe (latency : LatencyCompensator ℚ) (observation : Observation) :
    (latency.observe observation.nowNs observation.stampNs).1.ewmaNs =
      if latency.samples = 0 then observation.delay
      else smooth latency.ewmaNs observation.delay latency.alpha := by
  rw [smooth_eq_mean]
  rfl

/-- Attenuation of the four translational axes, and of no other. -/
theorem axes_compensate (latency : LatencyCompensator ℚ) (cmd : ControlCommand ℚ) (axis : Fin 6) :
    (latency.compensate cmd).axes axis =
      if (latency.attenuation : ℚ) < 1 ∧ Translational axis then
        cmd.axes axis * (latency.attenuation : ℚ)
      else cmd.axes axis := by
  unfold LatencyCompensator.compensate
  by_cases less : (latency.attenuation : ℚ) < 1
  · simp only [lt_rat, ofRat_rat, less, decide_true, if_true, true_and, List.foldl_cons,
      List.foldl_nil, setAxis]
    fin_cases axis <;> simp [Translational, roll, pitch, latX, latY]
  · simp only [lt_rat, ofRat_rat, less, decide_false, Bool.false_eq_true, if_false, false_and]

/-- The attenuation of a delay, as a part of the limit. -/
theorem attenuation_eq (nonneg : 0 ≤ latency.ewmaNs) :
    (latency.attenuation : ℚ) = 1 - Min.min (latency.ewmaNs / latency.maxNs) 1 * (4 / 5) := by
  unfold LatencyCompensator.attenuation
  rcases nonneg.eq_or_lt with none | some
  · rw [← none]
    simp
  · simp only [le_rat, ofRat_rat, min_rat, not_le.mpr some, decide_false, Bool.false_eq_true,
      if_false]
    norm_num [narrow]

end Step

/-- What a tracker says of its link. -/
structure Tracks (link : TrackedLink) : Prop where
  factor : 1 / 100 ≤ link.latency.alpha ∧ link.latency.alpha ≤ 1
  limit : 1 ≤ link.latency.maxNs
  nonneg : 0 ≤ link.latency.ewmaNs
  fresh : link.delays = [] → link.latency.samples = 0
  /-- The tracked delay is in every interval that contains the observed ones. -/
  hull : link.delays ≠ [] → ∀ low high, (∀ delay ∈ link.delays, low ≤ delay ∧ delay ≤ high) →
    low ≤ link.latency.ewmaNs ∧ link.latency.ewmaNs ≤ high

namespace Tracks

variable {link : TrackedLink}

theorem start (alpha : ℚ) (maxNs : UInt64) : Tracks ⟨.new alpha maxNs, []⟩ where
  factor := by
    have ordered : (1 / 100 : ℚ) ≤ 1 := by norm_num
    have mem := clamp_mem alpha ordered
    norm_num [LatencyCompensator.new]
    norm_num at mem
    exact mem
  limit := by
    have least : 1 ≤ Nat.max maxNs.toNat 1 := Nat.le_max_right _ _
    simp only [LatencyCompensator.new, ofRat_rat]
    exact_mod_cast least
  nonneg := le_refl _
  fresh _ := rfl
  hull some := absurd rfl some

theorem observe (tracks : Tracks link) (observation : Observation) :
    Tracks (link.observe observation) := by
  obtain ⟨least, most⟩ := tracks.factor
  have part : 0 ≤ link.latency.alpha := le_trans (by norm_num) least
  have value : (link.observe observation).latency.ewmaNs =
      if link.latency.samples = 0 then observation.delay
      else smooth link.latency.ewmaNs observation.delay link.latency.alpha :=
    ewmaNs_observe link.latency observation
  refine ⟨⟨least, most⟩, tracks.limit, ?_, ?_, ?_⟩
  · rw [value]
    split
    · exact delay_nonneg observation
    · exact le_smooth part most tracks.nonneg (delay_nonneg observation)
  · intro none
    exact absurd none (List.append_ne_nil_of_right_ne_nil _ (List.cons_ne_nil _ _))
  · intro _ low high inside
    have last := inside observation.delay (List.mem_append_right _ (List.mem_singleton_self _))
    rw [value]
    split
    · exact last
    · rename_i counted
      have some : link.delays ≠ [] := fun none => counted (tracks.fresh none)
      have before := tracks.hull some low high
        fun delay among => inside delay (List.mem_append_left _ among)
      exact smooth_mem part most before last

end Tracks

theorem tracks_of_reachable {link : TrackedLink} (reached : TrackedLink.system.Reachable link) :
    Tracks link := by
  apply reached.invariant
  · rintro _ ⟨alpha, maxNs, rfl⟩
    exact .start alpha maxNs
  · rintro link observation _ tracks rfl
    exact tracks.observe observation

/-- What the safety loop relies on: the tracked delay is one of a mean of those observed, a steady
link is followed geometrically, and no axis is enlarged, reversed or cut below a fifth. -/
structure Compensates (link : TrackedLink) : Prop where
  hull : link.delays ≠ [] → ∀ low high, (∀ delay ∈ link.delays, low ≤ delay ∧ delay ≤ high) →
    low ≤ link.latency.ewmaNs ∧ link.latency.ewmaNs ≤ high
  steady : ∀ delay (observations : List Observation),
    (∀ observation ∈ observations, observation.delay = delay) →
      |(observations.foldl TrackedLink.observe link).latency.ewmaNs - delay| ≤
        (1 - link.latency.alpha) ^ observations.length * |link.latency.ewmaNs - delay|
  bounds : 1 / 5 ≤ (link.latency.attenuation : ℚ) ∧ (link.latency.attenuation : ℚ) ≤ 1
  whole : (link.latency.attenuation : ℚ) = 1 ↔ link.latency.ewmaNs = 0
  floor : (link.latency.attenuation : ℚ) = 1 / 5 ↔ link.latency.maxNs ≤ link.latency.ewmaNs
  axes : ∀ (cmd : ControlCommand ℚ) (axis : Fin 6), (link.latency.compensate cmd).axes axis =
    if Translational axis then cmd.axes axis * (link.latency.attenuation : ℚ) else cmd.axes axis

section Results

variable {link : TrackedLink}

theorem Tracks.ratio (tracks : Tracks link) :
    0 ≤ Min.min (link.latency.ewmaNs / link.latency.maxNs) 1 ∧
      Min.min (link.latency.ewmaNs / link.latency.maxNs) 1 ≤ 1 := by
  have positive : 0 < link.latency.maxNs := lt_of_lt_of_le zero_lt_one tracks.limit
  exact ⟨le_min (div_nonneg tracks.nonneg positive.le) zero_le_one, min_le_right _ _⟩

theorem abs_observe_sub_le (tracks : Tracks link) (observation : Observation) :
    |(link.observe observation).latency.ewmaNs - observation.delay| ≤
      (1 - link.latency.alpha) * |link.latency.ewmaNs - observation.delay| := by
  have most := tracks.factor.2
  have value : (link.observe observation).latency.ewmaNs =
      if link.latency.samples = 0 then observation.delay
      else smooth link.latency.ewmaNs observation.delay link.latency.alpha :=
    ewmaNs_observe link.latency observation
  rw [value]
  split
  · rw [sub_self, abs_zero]
    exact mul_nonneg (sub_nonneg.mpr most) (abs_nonneg _)
  · rw [smooth_sub, abs_mul, abs_of_nonneg (sub_nonneg.mpr most)]

theorem Tracks.steady (tracks : Tracks link) (delay : ℚ) (observations : List Observation)
    (same : ∀ observation ∈ observations, observation.delay = delay) :
    |(observations.foldl TrackedLink.observe link).latency.ewmaNs - delay| ≤
      (1 - link.latency.alpha) ^ observations.length * |link.latency.ewmaNs - delay| := by
  induction observations generalizing link with
  | nil => simp
  | cons first rest inductionHypothesis =>
      obtain ⟨now, later⟩ := List.forall_mem_cons.mp same
      have step := abs_observe_sub_le tracks first
      rw [now] at step
      have left := pow_nonneg (sub_nonneg.mpr tracks.factor.2) rest.length
      calc |((first :: rest).foldl TrackedLink.observe link).latency.ewmaNs - delay|
          ≤ (1 - link.latency.alpha) ^ rest.length *
              |(link.observe first).latency.ewmaNs - delay| :=
            inductionHypothesis (tracks.observe first) later
        _ ≤ (1 - link.latency.alpha) ^ rest.length *
              ((1 - link.latency.alpha) * |link.latency.ewmaNs - delay|) :=
            mul_le_mul_of_nonneg_left step left
        _ = (1 - link.latency.alpha) ^ (first :: rest).length * |link.latency.ewmaNs - delay| := by
            rw [List.length_cons, pow_succ, mul_assoc]

/-- In every run of the tracker the compensation is sound. -/
theorem compensates_of_reachable (reached : TrackedLink.system.Reachable link) :
    Compensates link := by
  have tracks := tracks_of_reachable reached
  have positive : 0 < link.latency.maxNs := lt_of_lt_of_le zero_lt_one tracks.limit
  have value := attenuation_eq tracks.nonneg
  obtain ⟨least, most⟩ := tracks.ratio
  refine ⟨tracks.hull, tracks.steady, ?_, ?_, ?_, ?_⟩
  · rw [value]
    constructor <;> linarith
  · have none : Min.min (link.latency.ewmaNs / link.latency.maxNs) 1 = 0 ↔
        link.latency.ewmaNs = 0 := by
      rw [min_eq_iff]
      simp only [div_eq_zero_iff, positive.ne', or_false, one_ne_zero, false_and, and_iff_left_iff_imp]
      intro nothing
      rw [nothing, zero_div]
      exact zero_le_one
    rw [value, ← none]
    constructor <;> intro equal <;> linarith
  · have all : Min.min (link.latency.ewmaNs / link.latency.maxNs) 1 = 1 ↔
        link.latency.maxNs ≤ link.latency.ewmaNs := by
      rw [min_eq_right_iff, one_le_div positive]
    rw [value, ← all]
    constructor <;> intro equal <;> linarith
  · intro cmd axis
    rw [axes_compensate]
    by_cases less : (link.latency.attenuation : ℚ) < 1
    · simp only [less, true_and]
    · have unit : (link.latency.attenuation : ℚ) = 1 := by
        rw [value] at less ⊢
        linarith
      simp only [unit, mul_one, ite_self]

/-- A link of 100 and of 300 nanoseconds. -/
def twoDelays : TrackedLink :=
  [⟨1100, 1000⟩, ⟨2300, 2000⟩].foldl TrackedLink.observe ⟨.new (1 / 5) 1000, []⟩

theorem compensates_twoDelays : Compensates twoDelays ∧ twoDelays.latency.ewmaNs = 140 ∧
    (twoDelays.latency.attenuation : ℚ) = 111 / 125 := by
  have reached : TrackedLink.system.Reachable twoDelays :=
    TransitionSystem.reachable_foldl _ TrackedLink.observe ⟨1 / 5, 1000, rfl⟩ _
  exact ⟨compensates_of_reachable reached, by decide +kernel, by decide +kernel⟩

end Results

end Teleop.Safety
