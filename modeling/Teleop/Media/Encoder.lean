import Teleop.Lib.Approach
import Teleop.Lib.Checked
import Teleop.Lib.Word

/-!
# The bitrate governor of the video encoder

At every tick the governor reads a suggested bitrate, clamps it to the range of the session and
moves the bitrate of the encoder towards it by a limited step.
-/

namespace Teleop.Media

open Teleop.Lib

/-- What the governor uses of an encoder. -/
class VideoEncoder (E : Type) where
  setBitrate : E → UInt64 → E
  currentBitrate : E → UInt64

/-- The placeholder encoder. -/
structure NullEncoder where
  bitrate : UInt64
  deriving DecidableEq, Repr

instance : VideoEncoder NullEncoder where
  setBitrate enc bps := { enc with bitrate := bps }
  currentBitrate enc := enc.bitrate

/-- `Ord::clamp`. -/
def clampBps (bps minBps maxBps : UInt64) : UInt64 :=
  if bps < minBps then minBps else if maxBps < bps then maxBps else bps

/-- Moves `last` towards `want` by a quarter of it, but at least by `minStep`. -/
def slew (last want minStep : UInt64) : UInt64 :=
  if last = want then want
  else
    let delta := absDiff want last
    let step := min delta (max (max (want / 4) minStep) 1)
    if last < want then min (saturatingAdd last step) want
    else max (saturatingSub last step) want

/-- The governor without its signal, whose value is given to each tick. -/
structure EncoderGovernor where
  last : UInt64
  minBps : UInt64
  maxBps : UInt64
  minStep : UInt64
  deriving DecidableEq, Repr

namespace EncoderGovernor

/-- Without a result where the assertion on the range fails. -/
def new (minBps maxBps : UInt64) : Option EncoderGovernor :=
  if minBps ≤ maxBps then
    some { last := minBps, minBps, maxBps, minStep := max (maxBps / 64) 1000 }
  else none

/-- Reads the signal and applies the next bitrate, which is also returned. -/
def tick {E : Type} [VideoEncoder E] (gov : EncoderGovernor) (suggested : UInt64) (enc : E) :
    EncoderGovernor × E × UInt64 :=
  let want := clampBps suggested gov.minBps gov.maxBps
  let next := slew gov.last want gov.minStep
  ({ gov with last := next }, VideoEncoder.setBitrate enc next, next)

/-- Ticks at which the signal has some values. -/
def ticks {E : Type} [VideoEncoder E] (gov : EncoderGovernor) (enc : E) :
    List UInt64 → EncoderGovernor × E
  | [] => (gov, enc)
  | suggested :: rest =>
      let (gov, enc, _) := gov.tick suggested enc
      gov.ticks enc rest

end EncoderGovernor

section Slew

variable (last want minStep : UInt64)

/-- The width of a step, while the target is farther away. -/
def stepWidth : Nat := max (max (want.toNat / 4) minStep.toNat) 1

/-- A step ends between the last bitrate and the wanted one, and covers its width. -/
theorem slew_spec :
    Toward last.toNat (slew last want minStep).toNat want.toNat ∧
      Nat.dist (slew last want minStep).toNat want.toNat ≤
        Nat.dist last.toNat want.toNat - stepWidth want minStep := by
  have bound := want.toNat_lt
  have quarter : (want / 4).toNat = want.toNat / 4 := UInt64.toNat_div ..
  have width : (max (max (want / 4) minStep) 1).toNat = stepWidth want minStep := by
    rw [UInt64.toNat_max, UInt64.toNat_max, quarter, UInt64.toNat_one, stepWidth]
  unfold slew
  by_cases same : last = want
  · rw [if_pos same, same]
    exact ⟨.inl ⟨Nat.le_refl _, Nat.le_refl _⟩, by simp⟩
  · rw [if_neg same]
    dsimp only
    by_cases rises : last < want
    · rw [if_pos rises, UInt64.toNat_min, toNat_saturatingAdd, UInt64.toNat_min, toNat_absDiff,
        width]
      rw [UInt64.lt_iff_toNat_lt] at rises
      unfold Toward Nat.dist
      omega
    · rw [if_neg rises, UInt64.toNat_max, toNat_saturatingSub, UInt64.toNat_min, toNat_absDiff,
        width]
      rw [UInt64.lt_iff_toNat_lt] at rises
      unfold Toward Nat.dist
      omega

end Slew

theorem clampBps_mem {minBps maxBps : UInt64} (bps : UInt64) (ordered : minBps ≤ maxBps) :
    minBps.toNat ≤ (clampBps bps minBps maxBps).toNat ∧
      (clampBps bps minBps maxBps).toNat ≤ maxBps.toNat := by
  unfold clampBps
  rw [UInt64.le_iff_toNat_le] at ordered
  split
  · exact ⟨Nat.le_refl _, ordered⟩
  · rename_i above
    rw [UInt64.not_lt, UInt64.le_iff_toNat_le] at above
    split
    · exact ⟨ordered, Nat.le_refl _⟩
    · rename_i below
      rw [UInt64.not_lt, UInt64.le_iff_toNat_le] at below
      exact ⟨above, below⟩

namespace EncoderGovernor

variable {E : Type} [VideoEncoder E] {gov : EncoderGovernor} {minBps maxBps : UInt64}

/-- A governor of a range, with its last bitrate in it. -/
structure Governs (gov : EncoderGovernor) (minBps maxBps : UInt64) : Prop where
  least : gov.minBps = minBps
  greatest : gov.maxBps = maxBps
  step : gov.minStep = max (maxBps / 64) 1000
  low : minBps.toNat ≤ gov.last.toNat
  high : gov.last.toNat ≤ maxBps.toNat

theorem exists_new (ordered : minBps ≤ maxBps) :
    ∃ gov, new minBps maxBps = some gov ∧ gov.Governs minBps maxBps :=
  ⟨_, if_pos ordered, rfl, rfl, rfl, Nat.le_refl _, UInt64.le_iff_toNat_le.mp ordered⟩

/-- The bitrate that a tick applies. -/
def applied (gov : EncoderGovernor) (suggested : UInt64) : UInt64 :=
  slew gov.last (clampBps suggested gov.minBps gov.maxBps) gov.minStep

theorem tick_eq (gov : EncoderGovernor) (suggested : UInt64) (enc : E) :
    gov.tick suggested enc =
      ({ gov with last := gov.applied suggested },
        VideoEncoder.setBitrate enc (gov.applied suggested), gov.applied suggested) := rfl

/-- The width of the steps towards a suggested bitrate. -/
def width (suggested minBps maxBps : UInt64) : Nat :=
  max (max ((clampBps suggested minBps maxBps).toNat / 4) (maxBps.toNat / 64)) 1000

theorem Governs.stepWidth_eq (governs : gov.Governs minBps maxBps) (suggested : UInt64) :
    stepWidth (clampBps suggested minBps maxBps) gov.minStep = width suggested minBps maxBps := by
  have share : (maxBps / 64).toNat = maxBps.toNat / 64 := UInt64.toNat_div ..
  have floor : (1000 : UInt64).toNat = 1000 := rfl
  unfold stepWidth width
  rw [governs.step, UInt64.toNat_max, share, floor]
  omega

/-- What one tick applies. -/
theorem Governs.applied (governs : gov.Governs minBps maxBps) (ordered : minBps ≤ maxBps)
    (suggested : UInt64) :
    ({ gov with last := gov.applied suggested } : EncoderGovernor).Governs minBps maxBps ∧
      Toward gov.last.toNat (gov.applied suggested).toNat
        (clampBps suggested minBps maxBps).toNat ∧
      Nat.dist (gov.applied suggested).toNat (clampBps suggested minBps maxBps).toNat ≤
        Nat.dist gov.last.toNat (clampBps suggested minBps maxBps).toNat -
          width suggested minBps maxBps := by
  have spec := slew_spec gov.last (clampBps suggested minBps maxBps) gov.minStep
  rw [governs.stepWidth_eq suggested] at spec
  have same : gov.applied suggested =
      slew gov.last (clampBps suggested minBps maxBps) gov.minStep := by
    rw [EncoderGovernor.applied, governs.least, governs.greatest]
  rw [← same] at spec
  obtain ⟨toward, shorter⟩ := spec
  obtain ⟨wantLow, wantHigh⟩ := clampBps_mem suggested ordered
  obtain ⟨low, high⟩ := toward.mem governs.low governs.high wantLow wantHigh
  exact ⟨⟨governs.least, governs.greatest, governs.step, low, high⟩, toward, shorter⟩

/-- Whatever the signal says, the bitrate stays in the range. -/
theorem Governs.ticks (governs : gov.Governs minBps maxBps) (ordered : minBps ≤ maxBps)
    (enc : E) (values : List UInt64) : (gov.ticks enc values).1.Governs minBps maxBps := by
  induction values generalizing gov enc with
  | nil => exact governs
  | cons suggested rest inductionHypothesis =>
      exact inductionHypothesis (governs.applied ordered suggested).1 _

theorem ticks_succ (gov : EncoderGovernor) (enc : E) (suggested : UInt64) (n : Nat) :
    (gov.ticks enc (List.replicate (n + 1) suggested)).1.last =
      (gov.ticks enc (List.replicate n suggested)).1.applied suggested := by
  induction n generalizing gov enc with
  | zero => rfl
  | succ n inductionHypothesis => exact inductionHypothesis _ _

/-- How the governor goes on from a state, towards a suggested bitrate. -/
structure Steers (gov : EncoderGovernor) (enc : E) (minBps maxBps suggested : UInt64) : Prop where
  /-- The next bitrate is in the range, and not beyond the one that is wanted. -/
  applies : ∃ bps, gov.tick suggested enc =
      ({ gov with last := bps }, VideoEncoder.setBitrate enc bps, bps) ∧
    minBps ≤ bps ∧ bps ≤ maxBps ∧
    Toward gov.last.toNat bps.toNat (clampBps suggested minBps maxBps).toNat
  /-- A constant suggestion is reached by as many steps as cover the greatest bitrate. -/
  reaches : ∀ n,
    (maxBps.toNat + width suggested minBps maxBps - 1) / width suggested minBps maxBps ≤ n →
      (gov.ticks enc (List.replicate n suggested)).1.last = clampBps suggested minBps maxBps

theorem Governs.applies (governs : gov.Governs minBps maxBps) (ordered : minBps ≤ maxBps)
    (enc : E) (suggested : UInt64) :
    ∃ bps, gov.tick suggested enc =
        ({ gov with last := bps }, VideoEncoder.setBitrate enc bps, bps) ∧
      minBps ≤ bps ∧ bps ≤ maxBps ∧
      Toward gov.last.toNat bps.toNat (clampBps suggested minBps maxBps).toNat := by
  obtain ⟨next, toward, _⟩ := governs.applied ordered suggested
  exact ⟨_, tick_eq gov suggested enc, UInt64.le_iff_toNat_le.mpr next.low,
    UInt64.le_iff_toNat_le.mpr next.high, toward⟩

theorem Governs.reaches (governs : gov.Governs minBps maxBps) (ordered : minBps ≤ maxBps)
    (enc : E) (suggested : UInt64) {n : Nat}
    (enough : (maxBps.toNat + width suggested minBps maxBps - 1) /
      width suggested minBps maxBps ≤ n) :
    (gov.ticks enc (List.replicate n suggested)).1.last = clampBps suggested minBps maxBps := by
  have positive : 0 < width suggested minBps maxBps := by
    unfold width
    omega
  have covered := Nat.lt_mul_of_div_lt (Nat.lt_succ_of_le enough) positive
  rw [Nat.succ_mul] at covered
  have far : Nat.dist gov.last.toNat (clampBps suggested minBps maxBps).toNat ≤
      maxBps.toNat := by
    have wantHigh := (clampBps_mem suggested ordered).2
    have high := governs.high
    unfold Nat.dist
    omega
  have steps (n : Nat) :
      Nat.dist (gov.ticks enc (List.replicate (n + 1) suggested)).1.last.toNat
          (clampBps suggested minBps maxBps).toNat ≤
        Nat.dist (gov.ticks enc (List.replicate n suggested)).1.last.toNat
          (clampBps suggested minBps maxBps).toNat - width suggested minBps maxBps := by
    rw [ticks_succ]
    exact ((governs.ticks ordered enc _).applied ordered suggested).2.2
  apply UInt64.toNat.inj
  exact eq_of_steps (x := fun n => (gov.ticks enc (List.replicate n suggested)).1.last.toNat)
    steps (far.trans (by omega))

/-- Whatever the signal was, the bitrate stays in the range, moves towards what is suggested and
not beyond it, and reaches a constant suggestion. -/
theorem governor_stable (minBps maxBps : UInt64) (ordered : minBps ≤ maxBps) (enc : E)
    (history : List UInt64) (suggested : UInt64) :
    ∃ started, new minBps maxBps = some started ∧
      (started.ticks enc history).1.Steers (started.ticks enc history).2 minBps maxBps
        suggested := by
  obtain ⟨started, created, start⟩ := exists_new ordered
  have governs := start.ticks ordered enc history
  exact ⟨started, created, governs.applies ordered _ suggested,
    fun _ enough => governs.reaches ordered _ suggested enough⟩

theorem governor_stable_session :
    ∃ started, new 1000000 80000000 = some started ∧
      (started.ticks (NullEncoder.mk 0) [100000000, 0]).1.Steers
        (started.ticks (NullEncoder.mk 0) [100000000, 0]).2 1000000 80000000 100000000 :=
  governor_stable 1000000 80000000 (by decide) (NullEncoder.mk 0) [100000000, 0] 100000000

end EncoderGovernor

end Teleop.Media
