import Mathlib.Data.UInt
import Mathlib.Logic.Function.Iterate
import Teleop.Lib.Bytes

/-!
# MAVLink frames

Framing of MAVLink 1 and 2: how long a frame is, where its fields lie and when its checksum
is compared.  Version 1 has a header of 5 bytes after the magic; for version 2 the code counts
10 where the wire format has 9.
-/

namespace Teleop.Hal

open Teleop.Lib

def mavlink1Magic : UInt8 := 0xFE
def mavlink2Magic : UInt8 := 0xFD

/-- Length of the signature tail of version 2. -/
def mavlink2SignatureLen : Nat := 13

/-- Largest payload of either version. -/
def mavlinkMaxPayload : Nat := 255

/-- Built-in dialect: message id, payload length and extra byte of the checksum. -/
def dialect : List (UInt32 × UInt8 × UInt8) :=
  [(0, 9, 50), (30, 28, 39), (33, 28, 104), (1, 31, 124), (24, 12, 167)]

/-- Payload length and extra byte of a message id. -/
def dialectFor (msgid : UInt32) : Option (UInt8 × UInt8) :=
  (dialect.find? fun entry => entry.1 == msgid).map (·.2)

/-- One of the eight passes for a byte. -/
def mavCrcPass (crc : UInt16) : UInt16 :=
  if crc &&& 1 ≠ 0 then (crc >>> 1) ^^^ .ofNat 0x8408 else crc >>> 1

/-- CRC-16/MCRF4XX. -/
def mavCrc16 (data : List UInt8) : UInt16 :=
  data.foldl (fun crc b => mavCrcPass^[8] (crc ^^^ b.toUInt16)) (.ofNat 0xFFFF)

/-- Why a parse failed. -/
inductive MavError where
  | magic
  | truncated
  | crc
  deriving DecidableEq, Repr

def MavError.display : MavError → String
  | .magic => "not a MAVLink frame (bad magic)"
  | .truncated => "truncated MAVLink frame"
  | .crc => "MAVLink checksum mismatch"

/-- One decoded frame.  The payload is an array of 255 bytes whose unused tail is zero. -/
structure MavFrame where
  version : UInt8
  seq : UInt8
  sysid : UInt8
  compid : UInt8
  msgid : UInt32
  payloadLen : UInt8
  payload : List UInt8
  crc : UInt16
  signed : UInt8
  deriving DecidableEq, Repr

/-- The populated part of the payload. -/
def MavFrame.populated (frame : MavFrame) : List UInt8 :=
  frame.payload.take frame.payloadLen.toNat

/-- Length on the wire as the code computes it. -/
def frameLen (version : UInt8) (payloadLen : Nat) (signed : Bool) : Nat :=
  let headerTotal := if version = 1 then 6 else 11
  let sig := if version = 2 ∧ signed = true then mavlink2SignatureLen else 0
  headerTotal + payloadLen + 2 + sig

/-- `buf[i]`, for an index that the length checks cover. -/
def byteAt (buf : List UInt8) (i : Nat) : UInt8 := buf.getD i 0

/-- Version announced by the leading byte. -/
def versionOf (buf : List UInt8) : Option UInt8 :=
  if byteAt buf 0 = mavlink1Magic then some 1
  else if byteAt buf 0 = mavlink2Magic then some 2
  else none

/-- Header bytes after the magic. -/
def headerAfter (version : UInt8) : Nat := if version = 1 then 5 else 10

/-- The payload length byte. -/
def payloadLenOf (buf : List UInt8) : Nat := (byteAt buf 1).toNat

/-- The signature bit of the incompat flags. -/
def signedOf (version : UInt8) (buf : List UInt8) : Bool :=
  decide (version = 2 ∧ byteAt buf 2 &&& 1 ≠ 0)

/-- The length of the frame that starts with these bytes. -/
def totalOf (version : UInt8) (buf : List UInt8) : Nat :=
  frameLen version (payloadLenOf buf) (signedOf version buf)

/-- Where the checksum lies. -/
def crcPos (version : UInt8) (buf : List UInt8) : Nat :=
  1 + headerAfter version + payloadLenOf buf

/-- `u16::from_le_bytes`. -/
def leUInt16 (low high : UInt8) : UInt16 := low.toUInt16 ||| (high.toUInt16 <<< 8)

/-- The checksum behind the payload. -/
def trailingCrc (version : UInt8) (buf : List UInt8) : UInt16 :=
  leUInt16 (byteAt buf (crcPos version buf)) (byteAt buf (crcPos version buf + 1))

/-- The checksum of the header after the magic and the payload. -/
def computedCrc (version : UInt8) (buf : List UInt8) (extra : UInt8) : UInt16 :=
  mavCrc16 ((buf.take (crcPos version buf)).drop 1) ^^^ extra.toUInt16

def msgidOf (version : UInt8) (buf : List UInt8) : UInt32 :=
  if version = 1 then (byteAt buf 5).toUInt32
  else (byteAt buf 7).toUInt32 ||| ((byteAt buf 8).toUInt32 <<< 8) |||
    ((byteAt buf 9).toUInt32 <<< 16)

/-- The comparison of the checksum fails.  It is made for a known message of the length that
the table has for it. -/
def crcFails (version : UInt8) (buf : List UInt8) : Bool :=
  match dialectFor (msgidOf version buf) with
  | some (expectedLen, extra) =>
      decide (expectedLen.toNat = payloadLenOf buf) &&
        decide (computedCrc version buf extra ≠ trailingCrc version buf)
  | none => false

/-- The fields of a complete frame. -/
def frameOf (version : UInt8) (buf : List UInt8) : MavFrame where
  version := version
  seq := if version = 1 then byteAt buf 2 else byteAt buf 4
  sysid := if version = 1 then byteAt buf 3 else byteAt buf 5
  compid := if version = 1 then byteAt buf 4 else byteAt buf 6
  msgid := msgidOf version buf
  payloadLen := .ofNat (payloadLenOf buf)
  payload := (buf.drop (1 + headerAfter version)).take (payloadLenOf buf) ++
    List.replicate (mavlinkMaxPayload - payloadLenOf buf) 0
  crc := trailingCrc version buf
  signed := if signedOf version buf then 1 else 0

/-- Parses one complete frame from the front of a buffer. -/
def parseFrame (buf : List UInt8) : Except MavError MavFrame :=
  if buf = [] then .error .magic
  else match versionOf buf with
  | none => .error .magic
  | some version =>
      let minHeader := if version = 1 then 2 else 3
      if buf.length < minHeader then .error .truncated
      else if payloadLenOf buf > mavlinkMaxPayload then .error .truncated
      else if buf.length < totalOf version buf then .error .truncated
      else if crcFails version buf then .error .crc
      else .ok (frameOf version buf)

section Parsing

variable {buf : List UInt8} {version : UInt8} {frame : MavFrame}

theorem version_cases (announced : versionOf buf = some version) : version = 1 ∨ version = 2 := by
  unfold versionOf at announced
  split at announced
  · exact .inl (Option.some.inj announced).symm
  · split at announced
    · exact .inr (Option.some.inj announced).symm
    · cases announced

theorem payloadLenOf_le (buf : List UInt8) : payloadLenOf buf ≤ mavlinkMaxPayload :=
  Nat.le_of_lt_succ (byteAt buf 1).toNat_lt

/-- The code's lengths of the parts add up to its length of the frame. -/
theorem totalOf_eq (version : UInt8) (buf : List UInt8) :
    totalOf version buf = crcPos version buf + 2 +
      (if version = 2 ∧ signedOf version buf = true then mavlink2SignatureLen else 0) := by
  unfold totalOf frameLen crcPos headerAfter
  dsimp only
  split <;> omega

/-- A frame is accepted when it is all there and its checksum is not found wrong. -/
theorem parseFrame_eq_ok_iff :
    parseFrame buf = .ok frame ↔
      ∃ version, versionOf buf = some version ∧ totalOf version buf ≤ buf.length ∧
        crcFails version buf = false ∧ frame = frameOf version buf := by
  have long := payloadLenOf_le buf
  unfold parseFrame
  constructor
  · intro parsed
    by_cases empty : buf = []
    · rw [if_pos empty] at parsed
      cases parsed
    rw [if_neg empty] at parsed
    cases announced : versionOf buf with
    | none =>
        rw [announced] at parsed
        cases parsed
    | some version =>
        rw [announced] at parsed
        dsimp only at parsed
        generalize (if version = 1 then 2 else 3) = minHeader at parsed
        by_cases short : buf.length < minHeader
        · rw [if_pos short] at parsed
          cases parsed
        rw [if_neg short, if_neg (Nat.not_lt.mpr long)] at parsed
        by_cases cut : buf.length < totalOf version buf
        · rw [if_pos cut] at parsed
          cases parsed
        rw [if_neg cut] at parsed
        cases passes : crcFails version buf with
        | true =>
            rw [passes, if_pos rfl] at parsed
            cases parsed
        | false =>
            rw [passes, if_neg Bool.false_ne_true] at parsed
            cases parsed
            exact ⟨version, rfl, Nat.le_of_not_lt cut, passes, rfl⟩
  · rintro ⟨version, announced, enough, passes, rfl⟩
    have minimal := totalOf_eq version buf
    unfold crcPos headerAfter at minimal
    have nonempty : buf ≠ [] := by
      rintro rfl
      rw [List.length_nil] at enough
      split at minimal <;> omega
    rw [if_neg nonempty, announced]
    dsimp only
    rw [if_neg, if_neg (Nat.not_lt.mpr long), if_neg (Nat.not_lt.mpr enough), passes]
    · rfl
    · split <;> split at minimal <;> omega

/-- A buffer that ends before the frame does is truncated. -/
theorem parseFrame_truncated (announced : versionOf buf = some version) (nonempty : buf ≠ [])
    (cut : buf.length < totalOf version buf) : parseFrame buf = .error .truncated := by
  unfold parseFrame
  rw [if_neg nonempty, announced]
  dsimp only
  rw [if_neg (Nat.not_lt.mpr (payloadLenOf_le buf)), if_pos cut, ite_self]

end Parsing

end Teleop.Hal
