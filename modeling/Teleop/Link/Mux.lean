import Teleop.Link.Crc
import Teleop.Link.Mesh
import Teleop.Link.Reliable

/-!
# The UDP multiplexer

Every datagram is a 16-byte header, a payload and a CRC over both.  The writers
assemble one datagram for each channel; `demux` checks every field and hands the
payload to its channel.
-/

namespace Teleop.Link

open Teleop.Core Teleop.Lib

def maxDatagram : Nat := 1500
def headerLen : Nat := 16
def trailerLen : Nat := 4
def maxPayload : Nat := maxDatagram - headerLen - trailerLen

def frameMagic : UInt32 := 0x54505431
def protocolVersion : UInt16 := 1

/-- Channel discriminator, byte 8 of every datagram. -/
inductive Channel where
  | control
  | telemetry
  | media
  | ice
  | mesh
  | secure
  deriving DecidableEq, Repr

namespace Channel

def asU8 : Channel → UInt8
  | .control => 1
  | .telemetry => 2
  | .media => 3
  | .ice => 4
  | .mesh => 5
  | .secure => 6

def fromU8 (v : UInt8) : Option Channel :=
  if v = 1 then some .control
  else if v = 2 then some .telemetry
  else if v = 3 then some .media
  else if v = 4 then some .ice
  else if v = 5 then some .mesh
  else if v = 6 then some .secure
  else none

@[simp] theorem fromU8_asU8 (channel : Channel) : fromU8 channel.asU8 = some channel := by
  cases channel <;> decide

end Channel

/-- Frame flags, byte 9: the payload is an acknowledgement. -/
def flagAck : UInt8 := 0b00000001

/-- Frame flags, byte 9: sent through the reliable channel. -/
def flagReliable : UInt8 := 0b00000010

namespace AckFrame

def encode (ack : AckFrame) : List UInt8 :=
  encodeFields [(4, ack.baseSeq.toNat), (4, ack.bitmap.toNat), (8, ack.rttSampleNs.toNat)]

def decode (bytes : List UInt8) : Option AckFrame :=
  if bytes.length < 16 then none
  else
    match decodeFields [4, 4, 8] bytes with
    | [baseSeq, bitmap, rttSampleNs] => some ⟨.ofNat baseSeq, .ofNat bitmap, .ofNat rttSampleNs⟩
    | _ => none

theorem length_encode (ack : AckFrame) : ack.encode.length = 16 := by
  unfold encode
  rw [length_encodeFields]
  simp only [List.map_cons, List.map_nil]
  decide

theorem decode_encode (ack : AckFrame) : decode ack.encode = some ack := by
  have values := decodeFields_encodeFields
    [(4, ack.baseSeq.toNat), (4, ack.bitmap.toNat), (8, ack.rttSampleNs.toNat)] []
  simp only [List.append_nil, List.map_cons, List.map_nil] at values
  unfold decode
  rw [length_encode, if_neg (by decide)]
  unfold encode
  rw [values]
  simp only [ofNat_toNat_mod_four, ofNat_toNat_mod_eight]

end AckFrame

def meshMagic : UInt32 := 0x4D534801

/-- Wire layout of one discovery beacon. -/
structure MeshBeacon where
  magic : UInt32
  version : UInt16
  flags : UInt8
  pad0 : UInt8
  unitId : UInt64
  seq : UInt32
  pad1 : UInt32
  tsNs : UInt64
  listenPort : UInt16
  pad2 : UInt16
  pad3 : UInt32
  deriving DecidableEq, Repr

def beaconLen : Nat := 40

namespace MeshBeacon

def new (unitId : UInt64) (seq : UInt32) (tsNs : UInt64) (listenPort : UInt16) : MeshBeacon where
  magic := meshMagic
  version := 1
  flags := 0
  pad0 := 0
  unitId := unitId
  seq := seq
  pad1 := 0
  tsNs := tsNs
  listenPort := listenPort
  pad2 := 0
  pad3 := 0

def encode (beacon : MeshBeacon) : List UInt8 :=
  encodeFields
    [(4, beacon.magic.toNat), (2, beacon.version.toNat), (1, beacon.flags.toNat),
      (1, beacon.pad0.toNat), (8, beacon.unitId.toNat), (4, beacon.seq.toNat),
      (4, beacon.pad1.toNat), (8, beacon.tsNs.toNat), (2, beacon.listenPort.toNat),
      (2, beacon.pad2.toNat), (4, beacon.pad3.toNat)]

def decode (bytes : List UInt8) : Option MeshBeacon :=
  if bytes.length < beaconLen then none
  else
    match decodeFields [4, 2, 1, 1, 8, 4, 4, 8, 2, 2, 4] bytes with
    | [magic, version, flags, pad0, unitId, seq, pad1, tsNs, listenPort, pad2, pad3] =>
        let beacon : MeshBeacon :=
          ⟨.ofNat magic, .ofNat version, .ofNat flags, .ofNat pad0, .ofNat unitId, .ofNat seq,
            .ofNat pad1, .ofNat tsNs, .ofNat listenPort, .ofNat pad2, .ofNat pad3⟩
        if beacon.magic = meshMagic ∧ beacon.version = 1 then some beacon else none
    | _ => none

theorem length_encode (beacon : MeshBeacon) : beacon.encode.length = beaconLen := by
  unfold encode
  rw [length_encodeFields]
  simp only [List.map_cons, List.map_nil]
  decide

end MeshBeacon

/-- Link-layer header prepended to every payload. -/
structure WireFrame where
  magic : UInt32
  version : UInt16
  payloadLen : UInt16
  deriving DecidableEq, Repr

namespace WireFrame

def encode (header : WireFrame) : List UInt8 :=
  encodeFields [(4, header.magic.toNat), (2, header.version.toNat), (2, header.payloadLen.toNat)]

def decode (bytes : List UInt8) : Option WireFrame :=
  match decodeFields [4, 2, 2] bytes with
  | [magic, version, payloadLen] => some ⟨.ofNat magic, .ofNat version, .ofNat payloadLen⟩
  | _ => none

theorem length_encode (header : WireFrame) : header.encode.length = 8 := by
  unfold encode
  rw [length_encodeFields]
  simp only [List.map_cons, List.map_nil]
  decide

theorem decode_encode (header : WireFrame) (rest : List UInt8) :
    decode (header.encode ++ rest) = some header := by
  have values := decodeFields_encodeFields
    [(4, header.magic.toNat), (2, header.version.toNat), (2, header.payloadLen.toNat)] rest
  simp only [List.map_cons, List.map_nil] at values
  unfold decode encode
  rw [values]
  simp only [ofNat_toNat_mod_two, ofNat_toNat_mod_four]

end WireFrame

/-- `write_header`: the wire frame, channel, flags and six reserved bytes. -/
def writeHeader (channel : Channel) (frameFlags : UInt8) (payloadLen : UInt16) : List UInt8 :=
  WireFrame.encode ⟨frameMagic, protocolVersion, payloadLen⟩ ++
    [channel.asU8, frameFlags, 0, 0, 0, 0, 0, 0]

/-- `finish_frame`: append the CRC trailer. -/
def finishFrame (body : List UInt8) : List UInt8 := body ++ leBytes trailerLen (crc32 body).toNat

/-- A whole datagram. -/
def assemble (channel : Channel) (frameFlags : UInt8) (payload : List UInt8) : List UInt8 :=
  finishFrame (writeHeader channel frameFlags (.ofNat payload.length) ++ payload)

/-- I/O failures that the link distinguishes. -/
inductive LinkError where
  | wouldBlock
  | invalidData (message : String)
  deriving DecidableEq, Repr

section Writers

variable (archive : Archive Command 56)

/-- The control datagram of a command. -/
def controlFrame (cmd : Command) (frameFlags : UInt8) : List UInt8 :=
  assemble .control frameFlags (archive.serialize (stamped cmd))

def writeControlFrame (cmd : Command) (frameFlags : UInt8) : Except LinkError (List UInt8) :=
  let payload := archive.serialize (stamped cmd)
  if payload.length > maxPayload then .error (.invalidData "control payload exceeds MTU")
  else .ok (controlFrame archive cmd frameFlags)

/-- A command is small enough: writing its datagram never fails. -/
theorem writeControlFrame_eq (cmd : Command) (frameFlags : UInt8) :
    writeControlFrame archive cmd frameFlags = .ok (controlFrame archive cmd frameFlags) := by
  unfold writeControlFrame
  dsimp only
  rw [archive.length_serialize, if_neg (by decide)]

/-- What the writers of whole payloads share: refused when too long, never truncated. -/
def writePayload (channel : Channel) (frameFlags : UInt8) (payload : List UInt8)
    (message : String) : Except LinkError (List UInt8) :=
  if payload.length > maxPayload then .error (.invalidData message)
  else .ok (assemble channel frameFlags payload)

def writeTelemetryFrame (packets : Archive (TelemetryPacket UInt32) 56)
    (pkt : TelemetryPacket UInt32) : Except LinkError (List UInt8) :=
  writePayload .telemetry 0 (packets.serialize pkt) "telemetry payload exceeds MTU"

def writeIceFrame (bytes : List UInt8) : Except LinkError (List UInt8) :=
  writePayload .ice 0 bytes "ICE payload exceeds MTU"

/-- The flags carry the tag of the inner channel. -/
def writeSecureFrame (sealed : List UInt8) (frameFlags : UInt8) :
    Except LinkError (List UInt8) :=
  writePayload .secure frameFlags sealed "secure payload exceeds MTU"

def writeMeshFrame (beacon : MeshBeacon) : List UInt8 := assemble .mesh 0 beacon.encode

def writeAckFrame (ack : AckFrame) : List UInt8 := assemble .control flagAck ack.encode

end Writers

/-- Parse failure classification. -/
inductive FrameError where
  | malformed
  | crc
  | payload
  deriving DecidableEq, Repr

/-- One demultiplexed inbound frame. -/
inductive Inbound where
  | control (cmd : Command) (source : SocketAddr) (reliable : Bool)
  | telemetry (pkt : TelemetryPacket UInt32) (source : SocketAddr)
  | ice (payload : List UInt8) (source : SocketAddr)
  | mesh (beacon : MeshBeacon) (source : SocketAddr)
  | ack (ack : AckFrame) (source : SocketAddr)
  | secure (sealed : List UInt8) (source : SocketAddr) (inner : UInt8)
  deriving DecidableEq

section Demux

variable (archive : Archive Command 56) (telemetry : List UInt8 → Option (TelemetryPacket UInt32))

/-- The channel part of `demux`, after header and trailer passed. -/
def demuxPayload (channel : Option Channel) (frameFlags : UInt8) (payload : List UInt8)
    (source : SocketAddr) : Except FrameError Inbound :=
  match channel with
  | some .control =>
      if frameFlags &&& flagAck ≠ 0 then
        match AckFrame.decode payload with
        | some ack => .ok (.ack ack source)
        | none => .error .payload
      else
        match archive.access payload with
        | some cmd =>
            if commandCrc cmd = cmd.crc then
              .ok (.control cmd source (frameFlags &&& flagReliable != 0))
            else .error .crc
        | none => .error .payload
  | some .telemetry =>
      match telemetry payload with
      | some pkt => .ok (.telemetry pkt source)
      | none => .error .payload
  | some .ice => .ok (.ice payload source)
  | some .mesh =>
      match MeshBeacon.decode payload with
      | some beacon => .ok (.mesh beacon source)
      | none => .error .payload
  | some .secure => .ok (.secure payload source frameFlags)
  | some .media | none => .error .payload

/-- The frame parser: validates header, trailer CRC and channel payload. -/
def demux (bytes : List UInt8) (source : SocketAddr) : Except FrameError Inbound :=
  if bytes.length < headerLen + trailerLen then .error .malformed
  else
    match WireFrame.decode bytes with
    | none => .error .malformed
    | some header =>
        let finish := headerLen + header.payloadLen.toNat
        if header.magic ≠ frameMagic ∨ header.version ≠ protocolVersion then .error .malformed
        else if finish + trailerLen ≠ bytes.length then .error .malformed
        else if crc32 (bytes.take finish) ≠ .ofNat (ofLe (bytes.drop finish)) then .error .crc
        else
          demuxPayload archive telemetry (Channel.fromU8 (bytes.getD 8 0)) (bytes.getD 9 0)
            ((bytes.take finish).drop headerLen) source

/-- One datagram from the socket; what exceeds the receive buffer is cut off. -/
def recvFrame (bytes : List UInt8) (source : SocketAddr) : Except FrameError Inbound :=
  demux archive telemetry (bytes.take maxDatagram) source

theorem length_writeHeader (channel : Channel) (frameFlags : UInt8) (payloadLen : UInt16) :
    (writeHeader channel frameFlags payloadLen).length = headerLen := by
  unfold writeHeader
  rw [List.length_append, WireFrame.length_encode]
  rfl

theorem assemble_eq (channel : Channel) (frameFlags : UInt8) (payload : List UInt8) :
    ∃ rest, assemble channel frameFlags payload =
      WireFrame.encode ⟨frameMagic, protocolVersion, .ofNat payload.length⟩ ++
        channel.asU8 :: frameFlags :: rest := by
  unfold assemble finishFrame writeHeader
  exact ⟨_, by simp only [List.append_assoc, List.cons_append, List.nil_append]; rfl⟩

theorem length_assemble (channel : Channel) (frameFlags : UInt8) (payload : List UInt8) :
    (assemble channel frameFlags payload).length = headerLen + payload.length + trailerLen := by
  unfold assemble finishFrame
  rw [List.length_append, List.length_append, length_writeHeader, length_leBytes]

theorem channelByte_assemble (channel : Channel) (frameFlags : UInt8) (payload : List UInt8) :
    (assemble channel frameFlags payload).getD 8 0 = channel.asU8 := by
  obtain ⟨rest, layout⟩ := assemble_eq channel frameFlags payload
  rw [layout, List.getD_append_right _ _ _ _ (by rw [WireFrame.length_encode]),
    WireFrame.length_encode]
  rfl

theorem flagsByte_assemble (channel : Channel) (frameFlags : UInt8) (payload : List UInt8) :
    (assemble channel frameFlags payload).getD 9 0 = frameFlags := by
  obtain ⟨rest, layout⟩ := assemble_eq channel frameFlags payload
  rw [layout, List.getD_append_right _ _ _ _ (by rw [WireFrame.length_encode]; decide),
    WireFrame.length_encode]
  rfl

/-- A datagram of the writers passes every check and reaches its channel. -/
theorem demux_assemble (channel : Channel) (frameFlags : UInt8) {payload : List UInt8}
    (fits : payload.length ≤ maxPayload) (source : SocketAddr) :
    demux archive telemetry (assemble channel frameFlags payload) source =
      demuxPayload archive telemetry (some channel) frameFlags payload source := by
  have small : payload.length < 2 ^ 16 := Nat.lt_of_le_of_lt fits (by decide)
  have len : (UInt16.ofNat payload.length).toNat = payload.length :=
    UInt16.toNat_ofNat_of_lt small
  have bodyLength : (writeHeader channel frameFlags (.ofNat payload.length) ++ payload).length =
      headerLen + payload.length := by
    rw [List.length_append, length_writeHeader]
  have body : (assemble channel frameFlags payload).take (headerLen + payload.length) =
      writeHeader channel frameFlags (.ofNat payload.length) ++ payload :=
    List.take_left' bodyLength
  have trailer : (assemble channel frameFlags payload).drop (headerLen + payload.length) =
      leBytes trailerLen
        (crc32 (writeHeader channel frameFlags (.ofNat payload.length) ++ payload)).toNat :=
    List.drop_left' bodyLength
  obtain ⟨rest, layout⟩ := assemble_eq channel frameFlags payload
  have header : WireFrame.decode (assemble channel frameFlags payload) =
      some ⟨frameMagic, protocolVersion, .ofNat payload.length⟩ := by
    rw [layout]
    exact WireFrame.decode_encode _ _
  unfold demux
  rw [if_neg (by rw [length_assemble]; omega), header]
  dsimp only
  rw [len, length_assemble, body, trailer, channelByte_assemble, flagsByte_assemble,
    Channel.fromU8_asU8, ofLe_leBytes]
  rw [if_neg (by decide), if_neg (by simp)]
  rw [if_neg (by rw [show trailerLen = 4 from rfl, ofNat_toNat_mod_four]; simp)]
  rw [List.drop_left' (length_writeHeader ..)]

/-- The command that is read back from a control datagram is the stamped one. -/
theorem demux_controlFrame (cmd : Command) {frameFlags : UInt8}
    (noAck : frameFlags &&& flagAck = 0) (source : SocketAddr) :
    demux archive telemetry (controlFrame archive cmd frameFlags) source =
      .ok (.control (stamped cmd) source (frameFlags &&& flagReliable != 0)) := by
  have size := archive.length_serialize (stamped cmd)
  unfold controlFrame
  rw [demux_assemble archive telemetry _ _ (by rw [size]; decide)]
  unfold demuxPayload
  dsimp only
  rw [if_neg (by rw [noAck]; simp), archive.access_serialize]
  dsimp only
  rw [if_pos (commandCrc_stamped cmd)]

theorem demux_writeAckFrame (ack : AckFrame) (source : SocketAddr) :
    demux archive telemetry (writeAckFrame ack) source = .ok (.ack ack source) := by
  have size := ack.length_encode
  unfold writeAckFrame
  rw [demux_assemble archive telemetry _ _ (by rw [size]; decide)]
  unfold demuxPayload
  dsimp only
  rw [if_pos (by decide), AckFrame.decode_encode]

/-- A beacon datagram reaches the mesh channel or is rejected there. -/
theorem demux_writeMeshFrame (beacon : MeshBeacon) (source : SocketAddr) :
    demux archive telemetry (writeMeshFrame beacon) source = .error .payload ∨
      ∃ decoded, demux archive telemetry (writeMeshFrame beacon) source =
        .ok (.mesh decoded source) := by
  have size := beacon.length_encode
  unfold writeMeshFrame
  rw [demux_assemble archive telemetry _ _ (by rw [size]; decide)]
  unfold demuxPayload
  dsimp only
  split
  · exact .inr ⟨_, rfl⟩
  · exact .inl rfl

end Demux

end Teleop.Link
