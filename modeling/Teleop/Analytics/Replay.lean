import Mathlib.Data.List.GetD
import Teleop.Analytics.Samples
import Teleop.Lib.Slices
import Teleop.Lib.Word

/-!
# Reading a log offline

Frames are taken out of a file by offsets, shown line by line and turned into samples.  The
entries are what the bytes of the file say; their length field is the one thing that can lead
out of a frame.
-/

namespace Teleop.Analytics

open Teleop.Core Teleop.Lib FdrEntry

/-- The frames of a file from an offset on; `none` where an offset or a range traps. -/
def parseEntriesAt : (fuel : Nat) → (data : List UInt8) → (off : Nat) → Option (List FdrEntry)
  | 0, _, _ => some []
  | fuel + 1, data, off => do
      let stop ← addOffset off SIZE
      if stop ≤ data.length then do
        match fromBytesAligned (← slice data off stop) with
        | none => return []
        | some e =>
            if e.kind? = some .endMarker then return []
            else do
              let off ← addOffset off SIZE
              let rest ← parseEntriesAt fuel data off
              return e :: rest
      else return []

/-- `parse_entries` with its offsets. -/
def parseEntriesTrapping (data : List UInt8) : Option (List FdrEntry) :=
  parseEntriesAt data.length data 0

section Lines

inductive TelemetryKind where
  | generic
  | battery
  | pose
  | temperature
  deriving DecidableEq, Repr

def TelemetryKind.fromU16 (v : UInt16) : Option TelemetryKind :=
  if v = 0 then some .generic
  else if v = 1 then some .battery
  else if v = 2 then some .pose
  else if v = 3 then some .temperature
  else none

def TelemetryKind.debug : TelemetryKind → String
  | .generic => "Generic"
  | .battery => "Battery"
  | .pose => "Pose"
  | .temperature => "Temperature"

/-- `{:>width}`. -/
def alignRight (width : Nat) (text : String) : String :=
  .ofList (.replicate (width - text.length) ' ') ++ text

/-- `{:<width}`. -/
def alignLeft (width : Nat) (text : String) : String :=
  text ++ .ofList (.replicate (width - text.length) ' ')

variable (floats : Floats)

/-- `{:?}` of an array of `f32`. -/
def debugArray (values : List UInt32) : String :=
  "[" ++ ", ".intercalate (values.map floats.debug) ++ "]"

/-- One line of the replay; `none` where the payload is out of range. -/
def decodeLine (idx : Nat) (e : FdrEntry) (t0 : UInt64) : Option String :=
  let relMs := floats.millis (saturatingSub e.timestampNs t0)
  let head := "[" ++ alignRight 6 (toString idx) ++ "] t=+" ++
    alignRight 10 (floats.fixed64 3 relMs) ++ "ms "
  match e.kind? with
  | some .control => do
      let payload ← e.payload?
      match plainCommand.fromBytesAligned payload with
      | some c =>
          let mode := (c.getMode.map Mode.name).getD "?"
          return head ++ "CONTROL   seq=" ++ alignLeft 6 (toString c.seq.toNat) ++
            " mode=" ++ alignLeft 12 mode ++ " ai=" ++ alignLeft 5 (toString (isAiOrigin c)) ++
            " axes=" ++ debugArray floats (List.ofFn c.axes)
      | none => return head ++ "CONTROL   <malformed>"
  | some .imu => do
      let payload ← e.payload?
      match plainImu.fromBytesAligned payload with
      | some s =>
          return head ++ "IMU       seq=" ++ alignLeft 6 (toString s.seq.toNat) ++
            " gyro_rps=" ++ debugArray floats (List.ofFn s.gyroRps) ++
            " accel_g=" ++ debugArray floats (List.ofFn s.accelG)
      | none => return head ++ "IMU       <malformed>"
  | some .gps => do
      let payload ← e.payload?
      match plainGps.fromBytesAligned payload with
      | some s =>
          return head ++ "GPS       seq=" ++ alignLeft 6 (toString s.seq.toNat) ++
            " lat=" ++ floats.fixed64 6 s.latDeg ++ " lon=" ++ floats.fixed64 6 s.lonDeg ++
            " alt=" ++ floats.fixed64 1 s.altM ++ " speed=" ++ floats.fixed32 1 s.speedMps ++
            "m/s sats=" ++ toString s.sats.toNat ++ " fix=" ++ toString (s.fixOk != 0)
      | none => return head ++ "GPS       <malformed>"
  | some .telemetry => do
      let payload ← e.payload?
      match plainTelemetry.fromBytesAligned payload with
      | some p =>
          let kind := ((TelemetryKind.fromU16 p.kind).map TelemetryKind.debug).getD "?"
          return head ++ "TELEMETRY seq=" ++ alignLeft 6 (toString p.seq.toNat) ++
            " kind=" ++ alignLeft 12 kind ++ " values=" ++ debugArray floats (List.ofFn p.values)
      | none => return head ++ "TELEMETRY <malformed>"
  | some .endMarker | none => return head ++ "<end/unknown>"

variable {floats}

/-- An entry within its frame has a line, malformed or not. -/
theorem exists_decodeLine {e : FdrEntry} (within : e.payloadLen.toNat ≤ MAX_PAYLOAD)
    (idx : Nat) (t0 : UInt64) : ∃ line, decodeLine floats idx e t0 = some line := by
  have payload : e.payload? = some (e.payload.take e.payloadLen.toNat) := if_pos within
  unfold decodeLine
  simp only [payload, Option.bind_eq_bind, Option.bind_some]
  split <;> first | exact ⟨_, rfl⟩ | (split <;> exact ⟨_, rfl⟩)

end Lines

section Bytes

/-- The byte at an index, 0 past the end. -/
def byteAt (data : List UInt8) (index : Nat) : UInt8 := data.getD index 0

/-- The length field of the `k`th frame. -/
def lengthField (data : List UInt8) (k : Nat) : Nat :=
  (byteAt data (k * SIZE + 8)).toNat + 256 * (byteAt data (k * SIZE + 9)).toNat

/-- The `k`th frame is an end marker. -/
def Ends (data : List UInt8) (k : Nat) : Prop := byteAt data (k * SIZE + 10) = 255

/-- Every whole frame before the first end marker announces no more than its own payload. -/
def LengthsFit (data : List UInt8) : Prop :=
  ∀ k, (k + 1) * SIZE ≤ data.length → (∀ j ≤ k, ¬Ends data j) → lengthField data k ≤ MAX_PAYLOAD

theorem byteAt_drop (data : List UInt8) (n index : Nat) :
    byteAt (data.drop n) index = byteAt data (n + index) := by
  simp [byteAt, List.getD_eq_getElem?_getD, List.getElem?_drop]

theorem lengthField_drop (data : List UInt8) (k : Nat) :
    lengthField (data.drop SIZE) k = lengthField data (k + 1) := by
  have moved (offset : Nat) : SIZE + (k * SIZE + offset) = (k + 1) * SIZE + offset := by
    rw [Nat.succ_mul]
    omega
  simp only [lengthField, byteAt_drop, moved]

theorem ends_drop (data : List UInt8) (k : Nat) : Ends (data.drop SIZE) k ↔ Ends data (k + 1) := by
  have moved : SIZE + (k * SIZE + 10) = (k + 1) * SIZE + 10 := by
    rw [Nat.succ_mul]
    omega
  simp only [Ends, byteAt_drop, moved]

theorem drop_eq_byteAt_cons {data : List UInt8} {index : Nat} (inside : index < data.length) :
    data.drop index = byteAt data index :: data.drop (index + 1) := by
  rw [List.drop_eq_getElem_cons inside, byteAt, List.getD_eq_getElem _ _ inside]

/-- What the header of a frame says, byte by byte. -/
theorem header_of_fromBytesAligned {data : List UInt8} (enough : SIZE ≤ data.length) :
    ∃ e, fromBytesAligned data = some e ∧ e.payloadLen.toNat = lengthField data 0 ∧
      (e.kind? = some .endMarker ↔ Ends data 0) := by
  have size : SIZE = 528 := rfl
  have low := (byteAt data 8).toNat_lt
  have high := (byteAt data 9).toNat_lt
  have lengthBytes : (data.drop 8).take 2 = [byteAt data 8, byteAt data 9] := by
    rw [drop_eq_byteAt_cons (by omega), drop_eq_byteAt_cons (by omega)]
    rfl
  have kindByte : ((data.drop 8).drop 2).take 1 = [byteAt data 10] := by
    rw [List.drop_drop, drop_eq_byteAt_cons (by omega)]
    rfl
  unfold fromBytesAligned
  rw [dif_neg (by omega)]
  simp only [decodeFields, lengthBytes, kindByte]
  refine ⟨_, rfl, ?_, ?_⟩
  · have length : ofLe [byteAt data 8, byteAt data 9] = lengthField data 0 := by
      simp [ofLe, lengthField]
    have value : lengthField data 0 = (byteAt data 8).toNat + 256 * (byteAt data 9).toNat := by
      simp [lengthField]
    simp only [length, UInt16.toNat_ofNat']
    omega
  · have kind : UInt8.ofNat (ofLe [byteAt data 10]) = byteAt data 10 := by simp [ofLe]
    have ends : Ends data 0 ↔ byteAt data 10 = 255 := by simp [Ends]
    simp only [kind?, kind, ends]
    exact RecordKind.fromU8_eq_endMarker_iff

/-- Only the first frame of some bytes is looked at. -/
theorem fromBytesAligned_take (data : List UInt8) :
    fromBytesAligned (data.take SIZE) = fromBytesAligned data := by
  have fields : decodeFields [8, 2, 1, 1, 4] (data.take SIZE) = decodeFields [8, 2, 1, 1, 4] data :=
    decodeFields_take (by decide) data
  have payload : ((data.take SIZE).drop HEADER_LEN).take MAX_PAYLOAD =
      (data.drop HEADER_LEN).take MAX_PAYLOAD := by
    rw [List.drop_take, List.take_take, SIZE, Nat.add_sub_cancel_left, Nat.min_self]
  by_cases short : data.length < SIZE
  · rw [List.take_of_length_le (Nat.le_of_lt short)]
  · have enough : ¬(data.take SIZE).length < SIZE := by
      rw [List.length_take]
      omega
    unfold fromBytesAligned
    rw [dif_neg short, dif_neg enough]
    simp only [fields, payload]

/-- Past a frame that is no end marker the same is asked of the rest. -/
theorem lengthsFit_iff {data : List UInt8} (whole : SIZE ≤ data.length)
    (running : ¬Ends data 0) :
    LengthsFit data ↔ lengthField data 0 ≤ MAX_PAYLOAD ∧ LengthsFit (data.drop SIZE) := by
  have shorter (k : Nat) : (k + 1) * SIZE ≤ (data.drop SIZE).length ↔
      (k + 2) * SIZE ≤ data.length := by
    rw [List.length_drop, Nat.succ_mul (k + 1)]
    omega
  constructor
  · intro fit
    refine ⟨fit 0 (by omega) ?_, ?_⟩
    · intro j first
      obtain rfl := Nat.le_zero.mp first
      exact running
    · intro k fits before
      rw [lengthField_drop]
      apply fit (k + 1) ((shorter k).mp fits)
      intro j earlier
      cases j with
      | zero => exact running
      | succ j => exact fun ends => before j (by omega) ((ends_drop data j).mpr ends)
  · rintro ⟨first, others⟩ k fits before
    cases k with
    | zero => exact first
    | succ k =>
        rw [← lengthField_drop]
        apply others k ((shorter k).mpr fits)
        intro j earlier ends
        exact before (j + 1) (by omega) ((ends_drop data j).mp ends)

/-- The lengths that a reader finds fit exactly when those in the bytes do. -/
theorem forall_parseLoop_iff {fuel : Nat} {data : List UInt8} (enough : data.length ≤ fuel) :
    (∀ e ∈ parseLoop fuel data, e.payloadLen.toNat ≤ MAX_PAYLOAD) ↔ LengthsFit data := by
  induction fuel generalizing data with
  | zero =>
      have positive : 0 < SIZE := by decide
      constructor
      · intro _ k whole
        rw [Nat.succ_mul] at whole
        omega
      · intro _ e among
        cases among
  | succ fuel inductionHypothesis =>
      by_cases whole : SIZE ≤ data.length
      · obtain ⟨e, read, length, kind⟩ := header_of_fromBytesAligned whole
        have size : 0 < SIZE := by decide
        have shorter : (data.drop SIZE).length ≤ fuel := by
          rw [List.length_drop]
          omega
        have others := inductionHypothesis shorter
        rw [parseLoop, read]
        dsimp only
        by_cases ends : Ends data 0
        · rw [if_pos (kind.mpr ends)]
          constructor
          · intro _ k _ running
            exact absurd ends (running 0 (Nat.zero_le k))
          · intro _ e among
            cases among
        · rw [if_neg (fun marked => ends (kind.mp marked)), List.forall_mem_cons, others, length]
          exact (lengthsFit_iff whole ends).symm
      · have nothing : fromBytesAligned data = none := dif_pos (Nat.not_le.mp whole)
        rw [parseLoop, nothing]
        constructor
        · intro _ k fits
          rw [Nat.succ_mul] at fits
          omega
        · intro _ e among
          cases among

/-- Within what memory can hold, the offsets of a reader lead nowhere else than its frames. -/
theorem parseEntriesAt_eq {data : List UInt8} (sized : data.length + SIZE < 2 ^ 64) (fuel : Nat)
    {off : Nat} (inside : off ≤ data.length) :
    parseEntriesAt fuel data off = some (parseLoop fuel (data.drop off)) := by
  induction fuel generalizing off with
  | zero => rfl
  | succ fuel inductionHypothesis =>
      have stop := addOffset_of_lt (a := off) (b := SIZE) (by omega)
      rw [parseEntriesAt, parseLoop, stop, Option.bind_eq_bind, Option.bind_some]
      by_cases whole : off + SIZE ≤ data.length
      · have range := slice_of_le (Nat.le_add_right off SIZE) whole
        have front : (data.take (off + SIZE)).drop off = (data.drop off).take SIZE := by
          rw [List.drop_take, Nat.add_sub_cancel_left]
        rw [if_pos whole, range, front]
        simp only [Option.bind_eq_bind, Option.bind_some, fromBytesAligned_take]
        cases fromBytesAligned (data.drop off) with
        | none => rfl
        | some e =>
            dsimp only
            by_cases marked : e.kind? = some .endMarker
            · rw [if_pos marked, if_pos marked]
              rfl
            · rw [if_neg marked, if_neg marked, inductionHypothesis whole, List.drop_drop]
              rfl
      · have nothing : fromBytesAligned (data.drop off) = none := by
          apply dif_pos
          rw [List.length_drop]
          omega
        rw [if_neg whole, nothing]
        rfl

theorem parseEntriesTrapping_eq {data : List UInt8} (sized : data.length + SIZE < 2 ^ 64) :
    parseEntriesTrapping data = some (parseEntries data) := by
  rw [parseEntriesTrapping, parseEntriesAt_eq sized _ (Nat.zero_le _), List.drop_zero]
  rfl

end Bytes

/-- The reader, the payload of each entry, the dataset and every line of the replay come to
their ends, and all rows of the dataset are of one length. -/
def Survives (floats : Floats) (data : List UInt8) : Prop :=
  ∃ entries, parseEntriesTrapping data = some entries ∧
    (∀ e ∈ entries, (∃ payload, e.payload? = some payload) ∧
      ∀ idx t0, ∃ line, decodeLine floats idx e t0 = some line) ∧
    ∃ dataset, AiDataset.fromEntries floats entries = some dataset ∧
      ∀ s ∈ dataset.samples, s.features.length = dataset.featureDim

theorem exists_payload_iff {e : FdrEntry} :
    (∃ payload, e.payload? = some payload) ↔ e.payloadLen.toNat ≤ MAX_PAYLOAD := by
  simp [payload?]

theorem lengthsFit_of_survives {floats : Floats} {data : List UInt8}
    (sized : data.length < 2 ^ 63) (survives : Survives floats data) : LengthsFit data := by
  obtain ⟨entries, parsed, each, -⟩ := survives
  have size : SIZE = 528 := rfl
  rw [parseEntriesTrapping_eq (by omega)] at parsed
  obtain rfl := Option.some.inj parsed
  apply (forall_parseLoop_iff (Nat.le_refl data.length)).mp
  intro e among
  exact exists_payload_iff.mp (each e among).1

/-- The tooling survives a file exactly when no frame before the end marker announces more than
its payload.  Nothing else in a file can stop it. -/
theorem survives_iff_lengthsFit (floats : Floats) {data : List UInt8}
    (sized : data.length < 2 ^ 63) : Survives floats data ↔ LengthsFit data := by
  refine ⟨lengthsFit_of_survives sized, ?_⟩
  intro fit
  have size : SIZE = 528 := rfl
  have within := (forall_parseLoop_iff (Nat.le_refl data.length)).mpr fit
  have gathered : ∃ dataset, AiDataset.fromEntries floats (parseEntries data) = some dataset ∧ _ :=
    AiDataset.fromEntries_of_within within
  obtain ⟨dataset, built, -⟩ := gathered
  refine ⟨_, parseEntriesTrapping_eq (by omega), ?_, dataset, built,
    AiDataset.length_features_of_fromEntries built⟩
  intro e among
  exact ⟨exists_payload_iff.mpr (within e among), exists_decodeLine (within e among)⟩

section Instance

/-- The conversions and texts of zero. -/
def zeroFloats : Floats where
  ofNat _ := 0
  narrow _ := 0
  millis _ := 0
  debug _ := "0.0"
  fixed32 digits _ := "0." ++ .ofList (.replicate digits '0')
  fixed64 digits _ := "0." ++ .ofList (.replicate digits '0')

/-- A frame of zeros, but for the length that it announces. -/
def announcing (low high : UInt8) : List UInt8 := .replicate 8 0 ++ [low, high] ++ .replicate 518 0

/-- Two frames, the second with a payload of the largest length. -/
theorem survives_twoFrames : Survives zeroFloats (announcing 3 0 ++ announcing 0 2) := by
  have length : (announcing 3 0 ++ announcing 0 2).length = 1056 := by decide +kernel
  apply (survives_iff_lengthsFit zeroFloats (by rw [length]; decide)).mpr
  intro k inside _
  have size : SIZE = 528 := rfl
  rw [length, size] at inside
  obtain rfl | rfl : k = 0 ∨ k = 1 := by omega
  · decide +kernel
  · decide +kernel

/-- A frame that announces one byte more than it has. -/
def longFrame : List UInt8 := announcing 1 2

theorem not_survives_longFrame :
    ¬∀ data : List UInt8, data.length < 2 ^ 63 → Survives zeroFloats data := by
  intro survives
  have sized : longFrame.length < 2 ^ 63 := by decide +kernel
  have fit := lengthsFit_of_survives sized (survives longFrame sized)
  have running : ∀ j ≤ 0, ¬Ends longFrame j := by
    intro j before
    obtain rfl := Nat.le_zero.mp before
    show ¬byteAt longFrame (0 * SIZE + 10) = 255
    decide +kernel
  exact absurd (fit 0 (by decide +kernel) running) (by decide +kernel)

end Instance

end Teleop.Analytics
