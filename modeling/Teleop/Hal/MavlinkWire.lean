import Teleop.Hal.Mavlink

/-!
# MAVLink 2 frames on the wire

The header of a MAVLink 2 frame is 10 bytes with its magic.  The parser expects one byte more,
so the end of a frame is never there for it.
-/

namespace Teleop.Hal

open Teleop.Lib

/-- The fields of a MAVLink 2 frame.  A message that the dialect lacks has an extra byte of its
own, and a signature is sent when the flags say so. -/
structure Mavlink2 where
  incompat : UInt8
  compat : UInt8
  seq : UInt8
  sysid : UInt8
  compid : UInt8
  msgid : UInt32
  payload : List UInt8
  unknownExtra : UInt8
  signature : List UInt8
  numbered : msgid.toNat < 2 ^ 24
  fits : payload.length ≤ mavlinkMaxPayload
  sized : signature.length = mavlink2SignatureLen

namespace Mavlink2

/-- The header after the magic. -/
def header (sent : Mavlink2) : List UInt8 :=
  [.ofNat sent.payload.length, sent.incompat, sent.compat, sent.seq, sent.sysid, sent.compid] ++
    leBytes 3 sent.msgid.toNat

/-- The checksum as the module documents it. -/
def checksum (sent : Mavlink2) : UInt16 :=
  mavCrc16 (sent.header ++ sent.payload) ^^^
    (match dialectFor sent.msgid with
      | some (_, extra) => extra
      | none => sent.unknownExtra).toUInt16

def signed (sent : Mavlink2) : Bool := decide (sent.incompat &&& 1 ≠ 0)

/-- The frame on the wire. -/
def wire (sent : Mavlink2) : List UInt8 :=
  mavlink2Magic :: (sent.header ++ (sent.payload ++ (leBytes 2 sent.checksum.toNat ++
    if sent.signed then sent.signature else [])))

/-- The parser returns the fields and the payload of the frame, and consumes all of it. -/
def Parses (sent : Mavlink2) : Prop :=
  ∃ frame, parseFrame sent.wire = .ok frame ∧
    frame.version = 2 ∧ frame.seq = sent.seq ∧ frame.sysid = sent.sysid ∧
    frame.compid = sent.compid ∧ frame.msgid = sent.msgid ∧
    frame.payloadLen.toNat = sent.payload.length ∧ frame.populated = sent.payload ∧
    frame.crc = sent.checksum ∧ frame.signed = (if sent.signed then 1 else 0) ∧
    frameLen 2 sent.payload.length sent.signed = sent.wire.length

variable (sent : Mavlink2)

theorem length_wire :
    sent.wire.length = 12 + sent.payload.length +
      (if sent.signed then mavlink2SignatureLen else 0) := by
  unfold wire header
  simp only [List.length_cons, List.length_append, List.length_nil, length_leBytes]
  split
  · rw [sent.sized]
    omega
  · rw [List.length_nil]
    omega

theorem versionOf_wire : versionOf sent.wire = some 2 := rfl

theorem payloadLenOf_wire : payloadLenOf sent.wire = sent.payload.length :=
  UInt8.toNat_ofNat_of_lt' (Nat.lt_of_le_of_lt sent.fits (by decide))

theorem signedOf_wire : signedOf 2 sent.wire = sent.signed := by
  unfold signedOf signed
  simp only [true_and]
  rfl

/-- The parser wants a byte more than there is. -/
theorem totalOf_wire : totalOf 2 sent.wire = sent.wire.length + 1 := by
  unfold totalOf frameLen
  rw [payloadLenOf_wire, signedOf_wire, length_wire]
  cases sent.signed <;> simp <;> omega

theorem parseFrame_wire : parseFrame sent.wire = .error .truncated := by
  apply parseFrame_truncated sent.versionOf_wire
  · unfold wire
    simp
  · rw [totalOf_wire]
    exact Nat.lt_succ_self _

/-- No MAVLink 2 frame is parsed. -/
theorem not_parses : ¬ sent.Parses := by
  rintro ⟨frame, parsed, _⟩
  rw [parseFrame_wire] at parsed
  cases parsed

/-- A heartbeat, unsigned. -/
def heartbeat : Mavlink2 where
  incompat := 0
  compat := 0
  seq := 7
  sysid := 1
  compid := 1
  msgid := 0
  payload := [1, 0, 0, 0, 1, 8, 128, 3, 3]
  unknownExtra := 0
  signature := List.replicate 13 0
  numbered := by decide
  fits := by decide
  sized := rfl

/-- Its 21 bytes are found truncated. -/
theorem heartbeat_truncated :
    heartbeat.wire.length = 21 ∧ parseFrame heartbeat.wire = .error .truncated ∧
      ¬ heartbeat.Parses := by
  have truncated : parseFrame heartbeat.wire = .error .truncated := by decide
  refine ⟨by decide, truncated, ?_⟩
  rintro ⟨frame, parsed, _⟩
  rw [truncated] at parsed
  cases parsed

end Mavlink2

end Teleop.Hal
