import Teleop.Link.Mux

/-!
# Writing and reading a datagram

What each writer assembles is read back by the demultiplexer: the same channel,
the same flags and the same content, with the integrity tag filled in for a
command.  Byte strings beyond the payload limit are refused by their writer.
-/

namespace Teleop.Link

open Teleop.Core Teleop.Lib

/-- Fields of a telemetry packet in declaration order, with their widths in bytes. -/
def telemetryFields (pkt : TelemetryPacket UInt32) : List (Nat × Nat) :=
  [(4, pkt.magic.toNat), (2, pkt.kind.toNat), (2, pkt.reserved.toNat), (8, pkt.seq.toNat),
    (8, pkt.timestampNs.toNat), (4, (pkt.values 0).toNat), (4, (pkt.values 1).toNat),
    (4, (pkt.values 2).toNat), (4, (pkt.values 3).toNat), (4, (pkt.values 4).toNat),
    (4, (pkt.values 5).toNat), (4, (pkt.values 6).toNat), (4, (pkt.values 7).toNat)]

def telemetryWidths : List Nat := [4, 2, 2, 8, 8, 4, 4, 4, 4, 4, 4, 4, 4]

def telemetryOfFields : List Nat → Option (TelemetryPacket UInt32)
  | [magic, kind, reserved, seq, timestampNs, v0, v1, v2, v3, v4, v5, v6, v7] =>
      some {
        magic := .ofNat magic
        kind := .ofNat kind
        reserved := .ofNat reserved
        seq := .ofNat seq
        timestampNs := .ofNat timestampNs
        values := fun k => [UInt32.ofNat v0, .ofNat v1, .ofNat v2, .ofNat v3, .ofNat v4,
          .ofNat v5, .ofNat v6, .ofNat v7].get k }
  | _ => none

def telemetryImage (pkt : TelemetryPacket UInt32) : List UInt8 :=
  encodeFields (telemetryFields pkt)

theorem length_telemetryImage (pkt : TelemetryPacket UInt32) :
    (telemetryImage pkt).length = 56 := by
  unfold telemetryImage
  rw [length_encodeFields]
  simp only [telemetryFields, List.map_cons, List.map_nil]
  decide

theorem telemetryOfFields_image (pkt : TelemetryPacket UInt32) :
    telemetryOfFields (decodeFields telemetryWidths (telemetryImage pkt)) = some pkt := by
  have values := decodeFields_encodeFields (telemetryFields pkt) []
  rw [List.append_nil] at values
  have widths : (telemetryFields pkt).map (·.1) = telemetryWidths := rfl
  rw [widths] at values
  unfold telemetryImage
  rw [values]
  simp only [telemetryFields, List.map_cons, List.map_nil, telemetryOfFields,
    ofNat_toNat_mod_two, ofNat_toNat_mod_four, ofNat_toNat_mod_eight]
  congr
  funext k
  fin_cases k <;> exact ofNat_toNat_mod_four _

/-- The little-endian image of the structure, which is the archived form of plain data. -/
def Archive.telemetry : Archive (TelemetryPacket UInt32) 56 where
  serialize := telemetryImage
  access bytes :=
    if bytes.length = 56 then telemetryOfFields (decodeFields telemetryWidths bytes) else none
  access_serialize pkt := by
    rw [if_pos (length_telemetryImage pkt)]
    exact telemetryOfFields_image pkt
  length_serialize := length_telemetryImage

namespace MeshBeacon

/-- A beacon is read back exactly when it carries the magic and the version of the
protocol. -/
theorem decode_encode (beacon : MeshBeacon) :
    decode beacon.encode =
      if beacon.magic = meshMagic ∧ beacon.version = 1 then some beacon else none := by
  have values := decodeFields_encodeFields
    [(4, beacon.magic.toNat), (2, beacon.version.toNat), (1, beacon.flags.toNat),
      (1, beacon.pad0.toNat), (8, beacon.unitId.toNat), (4, beacon.seq.toNat),
      (4, beacon.pad1.toNat), (8, beacon.tsNs.toNat), (2, beacon.listenPort.toNat),
      (2, beacon.pad2.toNat), (4, beacon.pad3.toNat)] []
  simp only [List.append_nil, List.map_cons, List.map_nil] at values
  unfold decode
  rw [length_encode, if_neg (Nat.lt_irrefl beaconLen)]
  unfold encode
  rw [values]
  simp only [ofNat_toNat_mod_one, ofNat_toNat_mod_two, ofNat_toNat_mod_four,
    ofNat_toNat_mod_eight]

theorem decode_encode_new (unitId : UInt64) (seq : UInt32) (tsNs : UInt64)
    (listenPort : UInt16) :
    decode (new unitId seq tsNs listenPort).encode = some (new unitId seq tsNs listenPort) :=
  (decode_encode _).trans (if_pos ⟨rfl, rfl⟩)

end MeshBeacon

section RoundTrip

variable (archive : Archive Command 56) (packets : Archive (TelemetryPacket UInt32) 56)
  (source : SocketAddr)

theorem writePayload_of_le (channel : Channel) (frameFlags : UInt8) {payload : List UInt8}
    (fits : payload.length ≤ maxPayload) (message : String) :
    writePayload channel frameFlags payload message =
      .ok (assemble channel frameFlags payload) :=
  if_neg (Nat.not_lt.mpr fits)

theorem writePayload_of_lt (channel : Channel) (frameFlags : UInt8) {payload : List UInt8}
    (long : maxPayload < payload.length) (message : String) :
    writePayload channel frameFlags payload message = .error (.invalidData message) :=
  if_pos long

/-- A writer succeeds and its datagram, received from `source`, is read as `inbound`. -/
def ReadsBack (written : Except LinkError (List UInt8)) (inbound : Inbound) : Prop :=
  ∃ bytes, written = .ok bytes ∧ demux archive packets.access bytes source = .ok inbound

variable {archive packets source}

theorem readsBack_writePayload {channel : Channel} {frameFlags : UInt8} {payload : List UInt8}
    {inbound : Inbound} (fits : payload.length ≤ maxPayload) (message : String)
    (read : demuxPayload archive packets.access (some channel) frameFlags payload source =
      .ok inbound) :
    ReadsBack archive packets source (writePayload channel frameFlags payload message) inbound :=
  ⟨_, writePayload_of_le channel frameFlags fits message,
    (demux_assemble archive packets.access channel frameFlags fits source).trans read⟩

theorem readsBack_control (cmd : Command) {frameFlags : UInt8}
    (noAck : frameFlags &&& flagAck = 0) :
    ReadsBack archive packets source (writeControlFrame archive cmd frameFlags)
      (.control (stamped cmd) source (frameFlags &&& flagReliable != 0)) :=
  ⟨_, writeControlFrame_eq archive cmd frameFlags,
    demux_controlFrame archive packets.access cmd noAck source⟩

theorem readsBack_telemetry (pkt : TelemetryPacket UInt32) :
    ReadsBack archive packets source (writeTelemetryFrame packets pkt)
      (.telemetry pkt source) := by
  have fits : (packets.serialize pkt).length ≤ maxPayload := by
    rw [packets.length_serialize]
    decide
  refine readsBack_writePayload fits _ ?_
  simp only [demuxPayload, packets.access_serialize]

theorem readsBack_mesh (unitId : UInt64) (seq : UInt32) (tsNs : UInt64) (listenPort : UInt16) :
    ReadsBack archive packets source
      (.ok (writeMeshFrame (MeshBeacon.new unitId seq tsNs listenPort)))
      (.mesh (MeshBeacon.new unitId seq tsNs listenPort) source) := by
  have fits : (MeshBeacon.new unitId seq tsNs listenPort).encode.length ≤ maxPayload := by
    rw [MeshBeacon.length_encode]
    decide
  refine ⟨_, rfl, (demux_assemble archive packets.access .mesh 0 fits source).trans ?_⟩
  simp only [demuxPayload, MeshBeacon.decode_encode_new]

/-- Every writer, for all contents: what it assembles is read back unchanged, and the two
writers of arbitrary byte strings refuse exactly the strings beyond the payload limit. -/
theorem readsBack (archive : Archive Command 56) (packets : Archive (TelemetryPacket UInt32) 56)
    (source : SocketAddr) :
    (∀ (cmd : Command) (frameFlags : UInt8), frameFlags &&& flagAck = 0 →
      ReadsBack archive packets source (writeControlFrame archive cmd frameFlags)
        (.control { cmd with crc := commandCrc cmd } source
          (frameFlags &&& flagReliable != 0))) ∧
    (∀ pkt : TelemetryPacket UInt32,
      ReadsBack archive packets source (writeTelemetryFrame packets pkt)
        (.telemetry pkt source)) ∧
    (∀ ack : AckFrame,
      ReadsBack archive packets source (.ok (writeAckFrame ack)) (.ack ack source)) ∧
    (∀ (unitId : UInt64) (seq : UInt32) (tsNs : UInt64) (listenPort : UInt16),
      ReadsBack archive packets source
        (.ok (writeMeshFrame (MeshBeacon.new unitId seq tsNs listenPort)))
        (.mesh (MeshBeacon.new unitId seq tsNs listenPort) source)) ∧
    (∀ payload : List UInt8,
      (payload.length ≤ maxPayload →
        ReadsBack archive packets source (writeIceFrame payload) (.ice payload source)) ∧
      (maxPayload < payload.length →
        writeIceFrame payload = .error (.invalidData "ICE payload exceeds MTU"))) ∧
    (∀ (sealed : List UInt8) (inner : UInt8),
      (sealed.length ≤ maxPayload →
        ReadsBack archive packets source (writeSecureFrame sealed inner)
          (.secure sealed source inner)) ∧
      (maxPayload < sealed.length →
        writeSecureFrame sealed inner = .error (.invalidData "secure payload exceeds MTU"))) := by
  refine ⟨?_, readsBack_telemetry, ?_, readsBack_mesh, ?_, ?_⟩
  · intro cmd frameFlags noAck
    exact readsBack_control cmd noAck
  · intro ack
    exact ⟨_, rfl, demux_writeAckFrame archive packets.access ack source⟩
  · intro payload
    exact ⟨fun fits => readsBack_writePayload fits _ rfl,
      fun long => writePayload_of_lt .ice 0 long _⟩
  · intro sealed inner
    exact ⟨fun fits => readsBack_writePayload fits _ rfl,
      fun long => writePayload_of_lt .secure inner long _⟩

/-- The plain images of the two structures are an archive as the round trip needs it. -/
theorem readsBack_plainImages :
    ReadsBack .command .telemetry ⟨.v4 0x7F000001, 100⟩
      (writeSecureFrame [1, 2, 3] 7) (.secure [1, 2, 3] ⟨.v4 0x7F000001, 100⟩ 7) :=
  ((readsBack .command .telemetry ⟨.v4 0x7F000001, 100⟩).2.2.2.2.2 [1, 2, 3] 7).1 (by decide)

end RoundTrip

end Teleop.Link
