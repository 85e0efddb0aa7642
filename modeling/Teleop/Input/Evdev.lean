import Mathlib.Tactic.FieldSimp
import Mathlib.Tactic.SplitIfs
import Teleop.Input.ControllerMap
import Teleop.Lib.Checked

/-!
# Absolute axes of an evdev device

The limits of the axes are read when a device is opened and stored by slot, in the order of one
table of codes; a sample is normalized with the limits of the slot that another table gives its
code.  Arithmetic on the samples of the device traps on overflow.
-/

namespace Teleop.Input

open Teleop.Lib Teleop.Lib.FloatOps

def evKey : UInt16 := 0x01
def evAbs : UInt16 := 0x03

def absX : UInt16 := 0x00
def absY : UInt16 := 0x01
def absZ : UInt16 := 0x02
def absRx : UInt16 := 0x03
def absRz : UInt16 := 0x05
def absThrottle : UInt16 := 0x06
def absRudder : UInt16 := 0x07
def absHat0x : UInt16 := 0x10

/-- Axis codes calibrated when a device is opened. -/
def calCodes : List UInt16 :=
  [absX, absY, absRx, absThrottle, absRudder, absHat0x, absZ, absRz]

/-- The slot of a code, and whether its samples are negated. -/
def slotOf (code : UInt16) : Option (Slot × Bool) :=
  if code = absX then some (.roll, false)
  else if code = absY then some (.pitch, true)
  else if code = absRx then some (.yaw, false)
  else if (code = absZ ∨ code = absRz) ∧ code = absRz then some (.throttle, false)
  else if code = absZ then some (.spare0, false)
  else if code = absThrottle then some (.throttle, false)
  else if code = absRudder then some (.yaw, false)
  else if code = absHat0x then some (.latX, false)
  else none

/-- Accumulates events into a report. -/
structure EvdevAccumulator (S : Type) where
  /-- Least and greatest value of the axis of a slot. -/
  calib : Fin 8 → Int32 × Int32
  buttons : UInt32
  axes : Fin 8 → S
  /-- Seconds and microseconds of the last event. -/
  lastTime : Int64 × Int64

namespace EvdevAccumulator

variable {S : Type} [FloatOps S]

def default : EvdevAccumulator S where
  calib slot := if slot < 6 then (-1023, 1023) else (0, 1023)
  buttons := 0
  axes _ := 0
  lastTime := (0, 0)

/-- Normalizes a sample of an absolute axis; without a result when a subtraction overflows. -/
def pushAbs (acc : EvdevAccumulator S) (code : UInt16) (value : Int32) :
    Option (EvdevAccumulator S × Bool) :=
  match slotOf code with
  | none => some (acc, false)
  | some (slot, invert) => do
      let (least, greatest) := acc.calib slot.index
      let width ← checkedSubI32 greatest least
      let span := if width < 1 then 1 else width
      let offset ← checkedSubI32 value least
      let norm : S := ofRat offset.toInt / ofRat span.toInt * ofRat 2 - ofRat 1
      let clamped := clamp norm (ofRat (-1)) (ofRat 1)
      let sample := if invert then -clamped else clamped
      some ({ acc with axes := fun k => if k = slot.index then sample else acc.axes k }, true)

omit [FloatOps S] in
def setCalib (acc : EvdevAccumulator S) (slot : Fin 8) (limits : Int32 × Int32) :
    EvdevAccumulator S :=
  { acc with calib := fun k => if k = slot then limits else acc.calib k }

/-- The calibration loop; `probe` is what the device says of an axis. -/
def calibrate (acc : EvdevAccumulator S) (probe : UInt16 → Option (Int32 × Int32)) :
    EvdevAccumulator S :=
  calCodes.zipIdx.foldl (fun acc (code, slot) =>
    match probe code with
    | some limits => acc.setCalib (.ofNat 8 (min slot 7)) limits
    | none => acc) acc

end EvdevAccumulator

/-- The code whose limits are stored in a slot. -/
def storedCode (slot : Slot) : UInt16 := calCodes.getD slot.index 0

section Calibration

variable {device : UInt16 → Int32 × Int32} {code : UInt16} {slot : Slot} {invert : Bool}

theorem calib_calibrate {S : Type} (device : UInt16 → Int32 × Int32) (acc : EvdevAccumulator S)
    (slot : Slot) :
    (acc.calibrate fun code => some (device code)).calib slot.index =
      device (storedCode slot) := by
  cases slot <;> rfl

theorem slotOf_storedCode (slot : Slot) : (slotOf (storedCode slot)).isSome := by
  cases slot <;> decide

/-- Two codes share the slot of another one, and the third is looked up in a foreign slot. -/
theorem storedCode_eq_iff (consumed : slotOf code = some (slot, invert)) :
    storedCode slot = code ↔ code ∉ [absRz, absRudder, absHat0x] := by
  unfold slotOf at consumed
  split_ifs at consumed <;> cases consumed <;> simp_all <;> decide

/-- A sample in the range of an axis, as the accumulator makes it of the limits. -/
def normalized (least greatest value : Int32) : ℚ :=
  clamp (((value.toInt - least.toInt : ℤ) : ℚ) / ((greatest.toInt - least.toInt : ℤ) : ℚ) * 2 - 1)
    (-1) 1

/-- A sample is taken when both of its differences fit. -/
theorem pushAbs_iff {acc : EvdevAccumulator ℚ} (consumed : slotOf code = some (slot, invert))
    {least greatest : Int32} (limits : acc.calib slot.index = (least, greatest))
    (ordered : least.toInt < greatest.toInt) (value : Int32) (sample : ℚ) :
    (∃ after, acc.pushAbs code value = some (after, true) ∧ after.axes slot.index = sample) ↔
      (greatest.toInt - least.toInt < 2 ^ 31 ∧ -2 ^ 31 ≤ value.toInt - least.toInt ∧
        value.toInt - least.toInt < 2 ^ 31) ∧
      sample = if invert then -normalized least greatest value
        else normalized least greatest value := by
  unfold EvdevAccumulator.pushAbs
  simp only [consumed, limits, Option.bind_eq_bind]
  constructor
  · rintro ⟨after, pushed, rfl⟩
    obtain ⟨width, widthTaken, pushed⟩ := Option.bind_eq_some_iff.mp pushed
    obtain ⟨offset, offsetTaken, pushed⟩ := Option.bind_eq_some_iff.mp pushed
    rw [checkedSubI32_eq_some_iff] at widthTaken offsetTaken
    have wide : ¬ width < 1 := by
      rw [Int32.lt_iff_toInt_lt, widthTaken, Int32.toInt_one]
      omega
    have widthBound := width.toInt_lt
    have offsetLow := offset.le_toInt
    have offsetHigh := offset.toInt_lt
    refine ⟨by omega, ?_⟩
    cases pushed
    simp only [if_true, if_neg wide, offsetTaken, widthTaken]
    rfl
  · rintro ⟨⟨widthFits, offsetLow, offsetHigh⟩, rfl⟩
    have widthTaken : checkedSubI32 greatest least = some (greatest - least) :=
      if_pos ⟨by omega, widthFits⟩
    have offsetTaken : checkedSubI32 value least = some (value - least) :=
      if_pos ⟨offsetLow, offsetHigh⟩
    have width := checkedSubI32_eq_some_iff.mp widthTaken
    have offset := checkedSubI32_eq_some_iff.mp offsetTaken
    have wide : ¬ greatest - least < 1 := by
      rw [Int32.lt_iff_toInt_lt, width, Int32.toInt_one]
      omega
    rw [widthTaken, Option.bind_some, offsetTaken, Option.bind_some]
    refine ⟨_, rfl, ?_⟩
    simp only [if_true, if_neg wide, offset, width]
    rfl

/-- A sample stands for where it lies between the limits of its own axis. -/
def Scales (device : UInt16 → Int32 × Int32) (acc : EvdevAccumulator ℚ) (code : UInt16)
    (slot : Slot) (invert : Bool) (value : Int32) : Prop :=
  ∃ after, (acc.calibrate fun code => some (device code)).pushAbs code value =
      some (after, true) ∧
    after.axes slot.index =
      (if invert then -1 else 1) *
        (2 * ((value.toInt - (device code).1.toInt : ℤ) : ℚ) /
          (((device code).2.toInt - (device code).1.toInt : ℤ) : ℚ) - 1)

section Range

variable {least greatest : Int32} (value : Int32)

theorem normalized_of_mem (ordered : least.toInt < greatest.toInt)
    (above : least.toInt ≤ value.toInt) (below : value.toInt ≤ greatest.toInt) :
    normalized least greatest value =
      2 * ((value.toInt - least.toInt : ℤ) : ℚ) /
        ((greatest.toInt - least.toInt : ℤ) : ℚ) - 1 := by
  have positive : (0 : ℚ) < ((greatest.toInt - least.toInt : ℤ) : ℚ) := by
    exact_mod_cast Int.sub_pos_of_lt ordered
  have nonneg : (0 : ℚ) ≤ ((value.toInt - least.toInt : ℤ) : ℚ) := by
    exact_mod_cast Int.sub_nonneg_of_le above
  have most : ((value.toInt - least.toInt : ℤ) : ℚ) ≤
      ((greatest.toInt - least.toInt : ℤ) : ℚ) := by
    exact_mod_cast Int.sub_le_sub_right below _
  have share := div_nonneg nonneg positive.le
  have whole := (div_le_one positive).mpr most
  unfold normalized
  rw [clamp_of_mem (by linarith) (by linarith)]
  ring

/-- The lower end of the axis is reached by the least value and what is below it. -/
theorem normalized_eq_neg_one_iff (ordered : least.toInt < greatest.toInt) :
    normalized least greatest value = -1 ↔ value.toInt ≤ least.toInt := by
  have positive : (0 : ℚ) < ((greatest.toInt - least.toInt : ℤ) : ℚ) := by
    exact_mod_cast Int.sub_pos_of_lt ordered
  have sign : (0 : ℚ) < ((value.toInt - least.toInt : ℤ) : ℚ) /
      ((greatest.toInt - least.toInt : ℤ) : ℚ) ↔ (0 : ℚ) < ((value.toInt - least.toInt : ℤ) : ℚ) :=
    div_pos_iff_of_pos_right positive
  have difference : (0 : ℚ) < ((value.toInt - least.toInt : ℤ) : ℚ) ↔
      least.toInt < value.toInt := by
    rw [Int.cast_pos]
    exact Int.sub_pos
  unfold normalized
  rw [clamp_eq_low_iff _ (by norm_num), ← not_lt, ← not_lt, ← difference, ← sign]
  constructor
  · intro low above
    exact low (by linarith)
  · intro low above
    exact low (by linarith)

/-- The upper end of the axis is reached by the greatest value and what is above it. -/
theorem normalized_eq_one_iff (ordered : least.toInt < greatest.toInt) :
    normalized least greatest value = 1 ↔ greatest.toInt ≤ value.toInt := by
  have positive : (0 : ℚ) < ((greatest.toInt - least.toInt : ℤ) : ℚ) := by
    exact_mod_cast Int.sub_pos_of_lt ordered
  have whole : (1 : ℚ) ≤ ((value.toInt - least.toInt : ℤ) : ℚ) /
      ((greatest.toInt - least.toInt : ℤ) : ℚ) ↔
        ((greatest.toInt - least.toInt : ℤ) : ℚ) ≤ ((value.toInt - least.toInt : ℤ) : ℚ) :=
    one_le_div positive
  have difference : ((greatest.toInt - least.toInt : ℤ) : ℚ) ≤
      ((value.toInt - least.toInt : ℤ) : ℚ) ↔ greatest.toInt ≤ value.toInt := by
    rw [Int.cast_le]
    exact Int.sub_le_sub_right_iff
  unfold normalized
  rw [clamp_eq_high_iff _ (by norm_num), ← difference, ← whole]
  constructor
  · intro high
    linarith
  · intro high
    linarith

end Range

/-- Samples in the range are scaled when the limits in the slot are those of the axis, and the
range is narrow enough for its width. -/
theorem scales_of_stored (acc : EvdevAccumulator ℚ) (consumed : slotOf code = some (slot, invert))
    (stored : device (storedCode slot) = device code)
    (ordered : (device code).1.toInt < (device code).2.toInt)
    (narrow : (device code).2.toInt - (device code).1.toInt < 2 ^ 31) {value : Int32}
    (above : (device code).1 ≤ value) (below : value ≤ (device code).2) :
    Scales device acc code slot invert value := by
  have limits : (acc.calibrate fun code => some (device code)).calib slot.index =
      ((device code).1, (device code).2) := by rw [calib_calibrate, stored]
  rw [Int32.le_iff_toInt_le] at above below
  unfold Scales
  rw [pushAbs_iff consumed limits ordered, normalized_of_mem value ordered above below]
  refine ⟨⟨narrow, by omega, by omega⟩, ?_⟩
  split
  · rw [neg_one_mul]
  · rw [one_mul]

/-- Where all samples of a range are scaled, the limits in the slot are those of the axis. -/
theorem stored_of_scales (acc : EvdevAccumulator ℚ) (consumed : slotOf code = some (slot, invert))
    (ordered : ∀ code, (slotOf code).isSome → (device code).1.toInt < (device code).2.toInt)
    (scales : ∀ value, (device code).1 ≤ value → value ≤ (device code).2 →
      Scales device acc code slot invert value) :
    device (storedCode slot) = device code ∧
      (device code).2.toInt - (device code).1.toInt < 2 ^ 31 := by
  have own := ordered code (by rw [consumed]; rfl)
  have foreign := ordered (storedCode slot) (slotOf_storedCode slot)
  have limits : (acc.calibrate fun code => some (device code)).calib slot.index =
      ((device (storedCode slot)).1, (device (storedCode slot)).2) := calib_calibrate device acc slot
  -- both scales agree on every sample of the range
  have agrees (value : Int32) (above : (device code).1.toInt ≤ value.toInt)
      (below : value.toInt ≤ (device code).2.toInt) :
      (device (storedCode slot)).2.toInt - (device (storedCode slot)).1.toInt < 2 ^ 31 ∧
        normalized (device (storedCode slot)).1 (device (storedCode slot)).2 value =
          normalized (device code).1 (device code).2 value := by
    have scaled := scales value (Int32.le_iff_toInt_le.mpr above) (Int32.le_iff_toInt_le.mpr below)
    unfold Scales at scaled
    rw [pushAbs_iff consumed limits foreign, ← normalized_of_mem value own above below] at scaled
    refine ⟨scaled.1.1, ?_⟩
    have same := scaled.2
    split at same
    · rw [neg_one_mul] at same
      exact (neg_injective same).symm
    · rw [one_mul] at same
      exact same.symm
  obtain ⟨narrow, atLeast⟩ := agrees (device code).1 (Int.le_refl _) (by omega)
  obtain ⟨_, atMost⟩ := agrees (device code).2 (by omega) (Int.le_refl _)
  rw [(normalized_eq_neg_one_iff _ own).mpr (Int.le_refl _),
    normalized_eq_neg_one_iff _ foreign] at atLeast
  rw [(normalized_eq_one_iff _ own).mpr (Int.le_refl _), normalized_eq_one_iff _ foreign] at atMost
  -- the ends of the foreign range are in the range of the axis, where they are ends as well
  obtain ⟨_, lower⟩ := agrees (device (storedCode slot)).1 atLeast (by omega)
  obtain ⟨_, upper⟩ := agrees (device (storedCode slot)).2 (by omega) atMost
  rw [(normalized_eq_neg_one_iff _ foreign).mpr (Int.le_refl _), eq_comm,
    normalized_eq_neg_one_iff _ own] at lower
  rw [(normalized_eq_one_iff _ foreign).mpr (Int.le_refl _), eq_comm,
    normalized_eq_one_iff _ own] at upper
  have least : (device (storedCode slot)).1 = (device code).1 := Int32.toInt.inj (by omega)
  have greatest : (device (storedCode slot)).2 = (device code).2 := Int32.toInt.inj (by omega)
  exact ⟨Prod.ext least greatest, by rw [← least, ← greatest]; exact narrow⟩

/-- An axis is scaled by its own limits exactly when they are those stored in its slot, which for
three codes are the limits of another axis, and their difference fits in 32 bits. -/
theorem scales_iff (device : UInt16 → Int32 × Int32)
    (ordered : ∀ code, (slotOf code).isSome → (device code).1.toInt < (device code).2.toInt)
    (acc : EvdevAccumulator ℚ) (code : UInt16) (slot : Slot) (invert : Bool)
    (consumed : slotOf code = some (slot, invert)) :
    (∀ value, (device code).1 ≤ value → value ≤ (device code).2 →
      Scales device acc code slot invert value) ↔
      device (storedCode slot) = device code ∧
        (device code).2.toInt - (device code).1.toInt < 2 ^ 31 := by
  constructor
  · exact stored_of_scales acc consumed ordered
  · rintro ⟨stored, narrow⟩ value above below
    exact scales_of_stored acc consumed stored (ordered code (by rw [consumed]; rfl)) narrow above
      below

/-- Sticks and pedals of different ranges, and a hat that reports -1, 0 and 1. -/
def gamepad (code : UInt16) : Int32 × Int32 :=
  if code = absHat0x then (-1, 1) else if code = absRudder then (0, 255) else (-1023, 1023)

theorem ordered_gamepad (code : UInt16) : (gamepad code).1.toInt < (gamepad code).2.toInt := by
  unfold gamepad
  split
  · decide
  · split <;> decide

theorem scales_iff_gamepad :
    (∀ value, (gamepad absY).1 ≤ value → value ≤ (gamepad absY).2 →
      Scales gamepad .default absY .pitch true value) ↔
      gamepad (storedCode .pitch) = gamepad absY ∧
        (gamepad absY).2.toInt - (gamepad absY).1.toInt < 2 ^ 31 :=
  scales_iff gamepad (fun code _ => ordered_gamepad code) .default absY .pitch true rfl

/-- The hat is scaled by the limits of the pedals. -/
theorem not_scales :
    ¬∀ device : UInt16 → Int32 × Int32,
      (∀ code, (slotOf code).isSome → (device code).1.toInt < (device code).2.toInt) →
        ∀ acc code slot invert, slotOf code = some (slot, invert) →
          ∀ value, (device code).1 ≤ value → value ≤ (device code).2 →
            Scales device acc code slot invert value := by
  intro scales
  have stored := (stored_of_scales .default (show slotOf absHat0x = some (.latX, false) from rfl)
    (fun code _ => ordered_gamepad code)
    (scales gamepad (fun code _ => ordered_gamepad code) .default absHat0x .latX false rfl)).1
  exact absurd stored (by decide)

end Calibration

end Teleop.Input
