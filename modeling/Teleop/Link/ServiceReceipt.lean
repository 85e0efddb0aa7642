import Teleop.Link.ServiceSends

/-!
# What a service reads from another service

The datagrams of the writers fit the receive buffer, so what one service sends is
what the other one reads: control commands, beacons and acknowledgements.
-/

namespace Teleop.Link

open Teleop.Lib

/-- Channel and flags of a reliable control datagram. -/
def isReliableControl (bytes : List UInt8) : Bool :=
  bytes.getD 8 0 == Channel.control.asU8 && bytes.getD 9 0 == flagReliable

section Frames

variable (archive : Archive Command 56)

theorem isReliableControl_assemble (channel : Channel) (frameFlags : UInt8)
    (payload : List UInt8) :
    isReliableControl (assemble channel frameFlags payload) =
      (channel.asU8 == Channel.control.asU8 && frameFlags == flagReliable) := by
  unfold isReliableControl
  rw [channelByte_assemble, flagsByte_assemble]

theorem isReliableControl_controlFrame (cmd : Command) :
    isReliableControl (controlFrame archive cmd flagReliable) = true :=
  isReliableControl_assemble .control flagReliable _

theorem isReliableControl_meshFrame (beacon : MeshBeacon) :
    isReliableControl (writeMeshFrame beacon) = false :=
  isReliableControl_assemble .mesh _ _

theorem isReliableControl_ackFrame (ack : AckFrame) :
    isReliableControl (writeAckFrame ack) = false :=
  isReliableControl_assemble .control flagAck _

theorem take_assemble (channel : Channel) (frameFlags : UInt8) {payload : List UInt8}
    (fits : payload.length ≤ maxPayload) :
    (assemble channel frameFlags payload).take maxDatagram =
      assemble channel frameFlags payload := by
  apply List.take_of_length_le
  rw [length_assemble]
  unfold maxPayload at fits
  have header : headerLen = 16 := rfl
  have trailer : trailerLen = 4 := rfl
  have limit : maxDatagram = 1500 := rfl
  omega

theorem take_controlFrame (cmd : Command) (frameFlags : UInt8) :
    (controlFrame archive cmd frameFlags).take maxDatagram =
      controlFrame archive cmd frameFlags := by
  apply take_assemble
  rw [archive.length_serialize]
  decide

theorem take_writeMeshFrame (beacon : MeshBeacon) :
    (writeMeshFrame beacon).take maxDatagram = writeMeshFrame beacon := by
  apply take_assemble
  rw [beacon.length_encode]
  decide

theorem take_writeAckFrame (ack : AckFrame) :
    (writeAckFrame ack).take maxDatagram = writeAckFrame ack := by
  apply take_assemble
  rw [ack.length_encode]
  decide

variable (telemetry : List UInt8 → Option (Core.TelemetryPacket UInt32))

theorem recvFrame_reliable (cmd : Command) (source : SocketAddr) :
    recvFrame archive telemetry (controlFrame archive cmd flagReliable) source =
      .ok (.control (stamped cmd) source true) := by
  unfold recvFrame
  rw [take_controlFrame, demux_controlFrame archive telemetry cmd (by decide)]
  rfl

theorem recvFrame_unreliable (cmd : Command) (source : SocketAddr) :
    recvFrame archive telemetry (controlFrame archive cmd 0) source =
      .ok (.control (stamped cmd) source false) := by
  unfold recvFrame
  rw [take_controlFrame, demux_controlFrame archive telemetry cmd (by decide)]
  rfl

theorem recvFrame_mesh (beacon : MeshBeacon) (source : SocketAddr) :
    recvFrame archive telemetry (writeMeshFrame beacon) source = .error .payload ∨
      ∃ decoded, recvFrame archive telemetry (writeMeshFrame beacon) source =
        .ok (.mesh decoded source) := by
  unfold recvFrame
  rw [take_writeMeshFrame]
  exact demux_writeMeshFrame archive telemetry beacon source

theorem recvFrame_ack (ack : AckFrame) (source : SocketAddr) :
    recvFrame archive telemetry (writeAckFrame ack) source = .ok (.ack ack source) := by
  unfold recvFrame
  rw [take_writeAckFrame, demux_writeAckFrame archive telemetry]

/-- A datagram that reads as `inbound` is handled as `inbound`. -/
theorem ServiceCore.receive_of_read {core : ServiceCore} {bytes : List UInt8}
    {source : SocketAddr} {inbound : Inbound}
    (read : recvFrame archive telemetry bytes source = .ok inbound) :
    core.receive archive telemetry bytes source = core.dispatch inbound := by
  unfold ServiceCore.receive
  split
  · rename_i failure failed
    cases read.symm.trans failed
  · rename_i other same
    cases read.symm.trans same
    rfl

theorem ServiceCore.receive_of_failed {core : ServiceCore} {bytes : List UInt8}
    {source : SocketAddr} {failure : FrameError}
    (failed : recvFrame archive telemetry bytes source = .error failure) :
    core.receive archive telemetry bytes source = (core, none) := by
  unfold ServiceCore.receive
  split
  · rfl
  · rename_i other same
    cases failed.symm.trans same

end Frames

end Teleop.Link
