import Mathlib.Algebra.Order.Field.Basic
import Mathlib.Order.Monotone.Defs
import Mathlib.Tactic.NormNum
import Mathlib.Tactic.Ring
import Teleop.Core.Command
import Teleop.Lib.ExactArithmetic

/-!
# The controller map

Maps the axes of a device report onto a command.  Roll, pitch and yaw go through a symmetric
deadzone, the throttle is moved from the range of the device to that of the command.
-/

namespace Teleop.Input

open Teleop.Core Teleop.Lib Teleop.Lib.FloatOps

/-- Normalized controller snapshot. -/
structure ControllerReport (S : Type) where
  seq : UInt32
  buttons : UInt32
  axes : Fin 8 → S
  timestampNs : UInt64
  deriving DecidableEq

/-- Semantic channel slots of a report. -/
inductive Slot where
  | roll
  | pitch
  | yaw
  | throttle
  | latX
  | latY
  | spare0
  | spare1
  deriving DecidableEq, Repr

def Slot.index : Slot → Fin 8
  | .roll => 0
  | .pitch => 1
  | .yaw => 2
  | .throttle => 3
  | .latX => 4
  | .latY => 5
  | .spare0 => 6
  | .spare1 => 7

namespace Axis

def roll : Fin 6 := 0
def pitch : Fin 6 := 1
def yaw : Fin 6 := 2
def throttle : Fin 6 := 3

end Axis

/-- Mapping from raw device axes to command channels.  A slot may be any index. -/
structure ControllerMap (S : Type) where
  rollSlot : Nat
  pitchSlot : Nat
  yawSlot : Nat
  throttleSlot : Nat
  invertRoll : Bool
  invertPitch : Bool
  invertYaw : Bool
  deadzone : S
  deriving DecidableEq

section Definitions

variable {S : Type} [FloatOps S]

def ControllerReport.default : ControllerReport S where
  seq := 0
  buttons := 0
  axes _ := 0
  timestampNs := 0

/-- The value of a slot, 0 past the end. -/
def ControllerReport.raw (report : ControllerReport S) (slot : Nat) : S :=
  if inside : slot < 8 then report.axes ⟨slot, inside⟩ else 0

/-- `f32::signum`, whose result on zeros does not matter below. -/
def signum (v : S) : S := if !eq v v then v else if lt v 0 then ofRat (-1) else ofRat 1

/-- The symmetric deadzone. -/
def dz (v zone : S) : S :=
  if le zone 0 || le (FloatOps.abs v) zone then 0
  else (v - signum v * zone) / (ofRat 1 - zone)

namespace ControllerMap

def default : ControllerMap S where
  rollSlot := Slot.roll.index
  pitchSlot := Slot.pitch.index
  yawSlot := Slot.yaw.index
  throttleSlot := Slot.throttle.index
  invertRoll := false
  invertPitch := false
  invertYaw := false
  deadzone := ofRat 0.04

def sgn (invert : Bool) : S := if invert then ofRat (-1) else ofRat 1

/-- The shaped value of a raw one. -/
def shaped (map : ControllerMap S) (raw : S) : S :=
  dz (clamp raw (ofRat (-1)) (ofRat 1)) map.deadzone

/-- One channel of the command. -/
def channel (map : ControllerMap S) (report : ControllerReport S) (slot : Nat) (invert : Bool) :
    S :=
  map.shaped (report.raw slot) * sgn invert

/-- Maps a report onto a command; whatever is no axis of it stays. -/
def apply (map : ControllerMap S) (report : ControllerReport S) (out : ControlCommand S) :
    ControlCommand S :=
  let out := out.setAxis Axis.roll (map.channel report map.rollSlot map.invertRoll)
  let out := out.setAxis Axis.pitch (map.channel report map.pitchSlot map.invertPitch)
  let out := out.setAxis Axis.yaw (map.channel report map.yawSlot map.invertYaw)
  let thr := clamp (report.raw map.throttleSlot) (ofRat (-1)) (ofRat 1)
  out.setAxis Axis.throttle (clamp (thr * ofRat 0.5 + ofRat 0.5) 0 (ofRat 1))

theorem sameHeader_apply (map : ControllerMap S) (report : ControllerReport S)
    (out : ControlCommand S) : out.SameHeader (map.apply report out) := rfl

theorem axes_apply (map : ControllerMap S) (report : ControllerReport S)
    (out : ControlCommand S) :
    (map.apply report out).axes Axis.roll = map.channel report map.rollSlot map.invertRoll ∧
      (map.apply report out).axes Axis.pitch =
        map.channel report map.pitchSlot map.invertPitch ∧
      (map.apply report out).axes Axis.yaw = map.channel report map.yawSlot map.invertYaw :=
  ⟨rfl, rfl, rfl⟩

end ControllerMap

end Definitions

/-- What a deadzone is to make of a raw value. -/
structure ShapesWell (zone : ℚ) (shaped : ℚ → ℚ) : Prop where
  monotone : Monotone shaped
  odd : ∀ v, shaped (-v) = -shaped v
  bounded : ∀ v, |shaped v| ≤ 1
  inside : ∀ v, |v| ≤ zone → shaped v = 0
  /-- There is no jump at the edge of the zone. -/
  edge : ∀ v, zone < |v| → |shaped v| ≤ (|v| - zone) / (1 - zone)
  full : shaped 1 = 1 ∧ shaped (-1) = -1
  identity : zone = 0 → ∀ v, |v| ≤ 1 → shaped v = v

section Deadzone

variable {zone : ℚ}

/-- What a deadzone takes from a value is its part inside the zone. -/
theorem dz_eq (positive : 0 < zone) (v : ℚ) :
    dz v zone = (v - clamp v (-zone) zone) / (1 - zone) := by
  have wide : ¬ zone ≤ 0 := not_le.mpr positive
  unfold dz signum clamp
  rcases lt_or_ge v 0 with negative | nonneg
  · have above : ¬ zone < v := by linarith
    by_cases beyond : v < -zone
    · have outside : zone < -v := by linarith
      simp [wide, negative, abs_of_neg negative, beyond, outside]
    · have within : -v ≤ zone := by linarith
      simp [abs_of_neg negative, within, beyond, above]
  · have below : ¬ v < -zone := by linarith
    by_cases beyond : zone < v
    · simp [wide, abs_of_nonneg nonneg, beyond, below, not_lt.mpr nonneg]
    · simp [abs_of_nonneg nonneg, not_lt.mp beyond, beyond, below]

end Deadzone

namespace ControllerMap

section Shaped

variable {map : ControllerMap ℚ}

theorem shaped_eq (positive : 0 < map.deadzone) (raw : ℚ) :
    map.shaped raw =
      (clamp raw (-1) 1 - clamp (clamp raw (-1) 1) (-map.deadzone) map.deadzone) /
        (1 - map.deadzone) :=
  dz_eq positive _

theorem abs_clamp_unit (raw : ℚ) : |clamp raw (-1) 1| ≤ 1 ∧ |clamp raw (-1) 1| ≤ |raw| := by
  obtain ⟨least, most⟩ := clamp_mem raw (show (-1 : ℚ) ≤ 1 by norm_num)
  refine ⟨abs_le.mpr ⟨least, most⟩, ?_⟩
  rcases clamp_cases raw (-1) 1 with ⟨low, atLow⟩ | same | ⟨high, atHigh⟩
  · rw [atLow, abs_neg, abs_one]
    linarith [neg_le_abs raw]
  · rw [same]
  · rw [atHigh, abs_one]
    linarith [le_abs_self raw]

/-- How much of a deflection is left. -/
theorem abs_shaped (positive : 0 < map.deadzone) (small : map.deadzone < 1) (raw : ℚ) :
    |map.shaped raw| =
      Max.max (|clamp raw (-1) 1| - map.deadzone) 0 / (1 - map.deadzone) := by
  have room : 0 < 1 - map.deadzone := by linarith
  rw [shaped_eq positive, abs_div, abs_sub_clamp positive.le, abs_of_pos room]

theorem full_deflection (positive : 0 < map.deadzone) (small : map.deadzone < 1) :
    map.shaped 1 = 1 ∧ map.shaped (-1) = -1 := by
  have room : 0 < 1 - map.deadzone := by linarith
  have one : clamp (1 : ℚ) (-1) 1 = 1 := clamp_of_mem (by norm_num) le_rfl
  have edge : clamp (1 : ℚ) (-map.deadzone) map.deadzone = map.deadzone := by
    have notBelow : ¬ (1 : ℚ) < -map.deadzone := by linarith
    simp [clamp, notBelow, small]
  have opposite : -1 - -map.deadzone = -(1 - map.deadzone) := by ring
  constructor
  · rw [shaped_eq positive, one, edge, div_self room.ne']
  · rw [shaped_eq positive, clamp_neg 1 zero_le_one, one, clamp_neg 1 positive.le, edge, opposite,
      neg_div, div_self room.ne']

theorem shapesWell (positive : 0 < map.deadzone) (small : map.deadzone < 1) :
    ShapesWell map.deadzone map.shaped where
  monotone := by
    intro v w ordered
    have room : 0 < 1 - map.deadzone := by linarith
    rw [shaped_eq positive, shaped_eq positive]
    apply div_le_div_of_nonneg_right _ room.le
    exact sub_clamp_mono positive.le (clamp_mono (by norm_num) ordered)
  odd := by
    intro v
    rw [shaped_eq positive, shaped_eq positive, clamp_neg v zero_le_one,
      clamp_neg _ positive.le]
    ring
  bounded := by
    intro v
    have room : 0 < 1 - map.deadzone := by linarith
    have unit := (abs_clamp_unit v).1
    rw [abs_shaped positive small, div_le_one room]
    exact max_le (by linarith) (by linarith)
  inside := by
    intro v inside
    have less := (abs_clamp_unit v).2
    rw [← abs_eq_zero, abs_shaped positive small, max_eq_right (by linarith), zero_div]
  edge := by
    intro v outside
    have room : 0 < 1 - map.deadzone := by linarith
    have less := (abs_clamp_unit v).2
    rw [abs_shaped positive small]
    apply div_le_div_of_nonneg_right _ room.le
    exact max_le (by linarith) (by linarith)
  full := full_deflection positive small
  identity := by
    intro zero
    exact absurd zero positive.ne'

end Shaped

/-- The channels of a command are the shaped values of their slots, up to a sign, and they are
shaped well exactly when there is a deadzone: without one they are all dead. -/
theorem shapesWell_iff (map : ControllerMap ℚ) (small : map.deadzone < 1) :
    (∀ report out,
      (map.apply report out).axes Axis.roll =
          map.shaped (report.raw map.rollSlot) * sgn map.invertRoll ∧
        (map.apply report out).axes Axis.pitch =
          map.shaped (report.raw map.pitchSlot) * sgn map.invertPitch ∧
        (map.apply report out).axes Axis.yaw =
          map.shaped (report.raw map.yawSlot) * sgn map.invertYaw) ∧
      (ShapesWell map.deadzone map.shaped ↔ 0 < map.deadzone) := by
  refine ⟨map.axes_apply, ?_, fun positive => shapesWell positive small⟩
  intro well
  by_contra none
  have dead : map.shaped 1 = 0 := by simp [shaped, dz, not_lt.mp none]
  have full := well.full.1
  rw [dead] at full
  exact zero_ne_one full

theorem shapesWell_iff_default :
    (∀ report out,
      ((default : ControllerMap ℚ).apply report out).axes Axis.roll =
          (default : ControllerMap ℚ).shaped (report.raw 0) * sgn false ∧
        ((default : ControllerMap ℚ).apply report out).axes Axis.pitch =
          (default : ControllerMap ℚ).shaped (report.raw 1) * sgn false ∧
        ((default : ControllerMap ℚ).apply report out).axes Axis.yaw =
          (default : ControllerMap ℚ).shaped (report.raw 2) * sgn false) ∧
      (ShapesWell 0.04 (default : ControllerMap ℚ).shaped ↔ (0 : ℚ) < 0.04) :=
  shapesWell_iff default (show (0.04 : ℚ) < 1 by norm_num)

/-- Without a deadzone full deflection is mapped to rest. -/
theorem not_shapesWell :
    ¬∀ map : ControllerMap ℚ, 0 ≤ map.deadzone → map.deadzone < 1 →
      ShapesWell map.deadzone map.shaped := by
  intro well
  have full := (well { (default : ControllerMap ℚ) with deadzone := 0 } le_rfl zero_lt_one).full.1
  have dead : ({ (default : ControllerMap ℚ) with deadzone := 0 } : ControllerMap ℚ).shaped 1 =
      0 := by decide
  rw [dead] at full
  exact zero_ne_one full

end ControllerMap

end Teleop.Input
