import Mathlib.Data.UInt
import Teleop.Lib.Bytes

/-!
# Frames of the flight recorder

A frame is a header of 16 bytes and an inline payload of 512, blitted to disk as it lies in
memory on a little-endian target.  A reader of a stream stops at the first end marker.
-/

namespace Teleop.Analytics

open Teleop.Lib

/-- Payload bytes stored inline in a frame. -/
def MAX_PAYLOAD : Nat := 512

/-- What kind of sample a frame carries. -/
inductive RecordKind where
  | control
  | imu
  | gps
  | telemetry
  /-- End of stream, written by the writer on close. -/
  | endMarker
  deriving DecidableEq, Repr

def RecordKind.toU8 : RecordKind → UInt8
  | .control => 0
  | .imu => 1
  | .gps => 2
  | .telemetry => 3
  | .endMarker => 255

def RecordKind.fromU8 (v : UInt8) : Option RecordKind :=
  if v = 0 then some .control
  else if v = 1 then some .imu
  else if v = 2 then some .gps
  else if v = 3 then some .telemetry
  else if v = 255 then some .endMarker
  else none

@[simp] theorem RecordKind.fromU8_toU8 (kind : RecordKind) : fromU8 kind.toU8 = some kind := by
  cases kind <;> decide

theorem RecordKind.fromU8_eq_endMarker_iff {v : UInt8} :
    fromU8 v = some .endMarker ↔ v = 255 := by
  constructor
  · intro marked
    unfold fromU8 at marked
    repeat' split at marked
    all_goals first | assumption | cases marked
  · intro last
    rw [last]
    rfl

/-- Errors of the producer. -/
inductive RecordError where
  | full
  | payloadTooLarge (got max : Nat)
  deriving DecidableEq, Repr

/-- A frame: a header and an inline payload, of which only the front is meaningful. -/
structure FdrEntry where
  timestampNs : UInt64
  payloadLen : UInt16
  kind : UInt8
  pad : UInt8
  reserved : UInt32
  payload : List UInt8
  sized : payload.length = MAX_PAYLOAD

namespace FdrEntry

/-- Builds a frame from a payload that fits. -/
def new (kind : RecordKind) (payload : List UInt8) (timestampNs : UInt64) :
    Except RecordError FdrEntry :=
  if long : MAX_PAYLOAD < payload.length then .error (.payloadTooLarge payload.length MAX_PAYLOAD)
  else
    .ok {
      timestampNs := timestampNs
      payloadLen := .ofNat payload.length
      kind := kind.toU8
      pad := 0
      reserved := 0
      payload := payload ++ .replicate (MAX_PAYLOAD - payload.length) 0
      sized := by
        rw [List.length_append, List.length_replicate]
        omega }

/-- The kind, or `none` for a discriminant that is none. -/
def kind? (e : FdrEntry) : Option RecordKind := RecordKind.fromU8 e.kind

/-- The meaningful payload; `none` where the slice is out of range. -/
def payload? (e : FdrEntry) : Option (List UInt8) :=
  if e.payloadLen.toNat ≤ MAX_PAYLOAD then some (e.payload.take e.payloadLen.toNat) else none

def HEADER_LEN : Nat := 16

/-- `size_of::<FdrEntry>()`. -/
def SIZE : Nat := HEADER_LEN + MAX_PAYLOAD

/-- The fields of the header with their widths. -/
def headerFields (e : FdrEntry) : List (Nat × Nat) :=
  [(8, e.timestampNs.toNat), (2, e.payloadLen.toNat), (1, e.kind.toNat), (1, e.pad.toNat),
    (4, e.reserved.toNat)]

/-- The memory of a frame. -/
def bytesOf (e : FdrEntry) : List UInt8 := encodeFields e.headerFields ++ e.payload

/-- Copies a frame out of the front of some bytes, if there are enough. -/
def fromBytesAligned (data : List UInt8) : Option FdrEntry :=
  if short : data.length < SIZE then none
  else
    match decodeFields [8, 2, 1, 1, 4] data with
    | [timestampNs, payloadLen, kind, pad, reserved] =>
        some {
          timestampNs := .ofNat timestampNs
          payloadLen := .ofNat payloadLen
          kind := .ofNat kind
          pad := .ofNat pad
          reserved := .ofNat reserved
          payload := (data.drop HEADER_LEN).take MAX_PAYLOAD
          sized := by
            rw [List.length_take, List.length_drop]
            unfold SIZE at short
            omega }
    | _ => none

theorem length_header (e : FdrEntry) : (encodeFields e.headerFields).length = HEADER_LEN := by
  rw [length_encodeFields]
  rfl

@[simp] theorem length_bytesOf (e : FdrEntry) : e.bytesOf.length = SIZE := by
  rw [bytesOf, List.length_append, length_header, e.sized, SIZE]

/-- A frame is copied back, whatever follows it. -/
theorem fromBytesAligned_bytesOf (e : FdrEntry) (rest : List UInt8) :
    fromBytesAligned (e.bytesOf ++ rest) = some e := by
  have enough : ¬ (e.bytesOf ++ rest).length < SIZE := by
    rw [List.length_append, length_bytesOf]
    omega
  have values := decodeFields_encodeFields e.headerFields (e.payload ++ rest)
  rw [← List.append_assoc] at values
  simp only [headerFields, List.map_cons, List.map_nil] at values
  have inline : ((e.bytesOf ++ rest).drop HEADER_LEN).take MAX_PAYLOAD = e.payload := by
    rw [bytesOf, List.append_assoc, List.drop_left' (length_header e), List.take_left' e.sized]
  unfold fromBytesAligned
  rw [dif_neg enough]
  simp only [inline]
  unfold bytesOf headerFields
  simp only [values, ofNat_toNat_mod_one, ofNat_toNat_mod_two, ofNat_toNat_mod_four,
    ofNat_toNat_mod_eight]

/-- The end marker of a stream. -/
def endOfStream : FdrEntry where
  timestampNs := 0
  payloadLen := 0
  kind := RecordKind.endMarker.toU8
  pad := 0
  reserved := 0
  payload := .replicate MAX_PAYLOAD 0
  sized := List.length_replicate ..

end FdrEntry

open FdrEntry

/-- Parses the frames of a stream up to the end marker or to a truncated one. -/
def parseLoop : Nat → List UInt8 → List FdrEntry
  | 0, _ => []
  | fuel + 1, data =>
      match fromBytesAligned data with
      | none => []
      | some e =>
          if e.kind? = some .endMarker then [] else e :: parseLoop fuel (data.drop SIZE)

def parseEntries (data : List UInt8) : List FdrEntry := parseLoop data.length data

/-- The bytes of some frames one after the other. -/
def frames (entries : List FdrEntry) : List UInt8 := entries.flatMap bytesOf

@[simp] theorem frames_append (first second : List FdrEntry) :
    frames (first ++ second) = frames first ++ frames second := List.flatMap_append

theorem frames_concat (entries : List FdrEntry) (e : FdrEntry) :
    frames (entries ++ [e]) = frames entries ++ e.bytesOf := by
  simp [frames]

theorem length_frames (entries : List FdrEntry) :
    (frames entries).length = entries.length * SIZE := by
  induction entries with
  | nil => simp [frames]
  | cons e rest inductionHypothesis =>
      have split : frames (e :: rest) = e.bytesOf ++ frames rest := List.flatMap_cons
      rw [split, List.length_append, length_bytesOf, inductionHypothesis, List.length_cons,
        Nat.succ_mul, Nat.add_comm]

theorem parseLoop_frames (entries : List FdrEntry) (rest : List UInt8) {fuel : Nat}
    (enough : entries.length < fuel) :
    parseLoop fuel (frames entries ++ (endOfStream.bytesOf ++ rest)) =
      entries.takeWhile fun e => e.kind? ≠ some .endMarker := by
  induction entries generalizing fuel with
  | nil =>
      obtain ⟨fuel, rfl⟩ := Nat.exists_eq_succ_of_ne_zero (Nat.ne_of_gt enough)
      have ends : endOfStream.kind? = some .endMarker := by decide
      rw [frames, List.flatMap_nil, List.nil_append, parseLoop, fromBytesAligned_bytesOf]
      simp [ends]
  | cons e others inductionHypothesis =>
      obtain ⟨fuel, rfl⟩ := Nat.exists_eq_succ_of_ne_zero (Nat.ne_zero_of_lt enough)
      have split : frames (e :: others) ++ (endOfStream.bytesOf ++ rest) =
          e.bytesOf ++ (frames others ++ (endOfStream.bytesOf ++ rest)) := by
        rw [frames, List.flatMap_cons, List.append_assoc]
        rfl
      rw [split, parseLoop, fromBytesAligned_bytesOf, List.drop_left' (length_bytesOf e)]
      dsimp only
      by_cases ends : e.kind? = some .endMarker
      · rw [if_pos ends, List.takeWhile_cons_of_neg (by simp [ends])]
      · have fuelLeft : others.length < fuel := Nat.lt_of_succ_lt_succ enough
        rw [if_neg ends, inductionHypothesis fuelLeft, List.takeWhile_cons_of_pos (by simp [ends])]

/-- A reader gets the frames before the first end marker, and nothing of the padding. -/
theorem parseEntries_frames (entries : List FdrEntry) (rest : List UInt8) :
    parseEntries (frames entries ++ (endOfStream.bytesOf ++ rest)) =
      entries.takeWhile fun e => e.kind? ≠ some .endMarker := by
  apply parseLoop_frames
  have size : 0 < SIZE := by decide
  rw [List.length_append, List.length_append, length_frames, length_bytesOf]
  have wide := Nat.le_mul_of_pos_right entries.length size
  omega

end Teleop.Analytics
