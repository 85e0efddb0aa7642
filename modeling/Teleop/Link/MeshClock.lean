import Teleop.Link.MuxRoundTrip
import Teleop.Link.ServiceReceipt

/-!
# Beacon timestamps of two processes

Each service reads its clock from the instant its own process started.  The
sender stamps a beacon with such a reading and the receiver compares it with one
of its own, so what the skew guard measures is the difference of the uptimes.
-/

namespace Teleop.Link

open Teleop.Lib

/-- `anchor.elapsed().as_nanos() as u64` at an instant of true time, in nanoseconds. -/
def elapsedNs (anchor instant : Nat) : UInt64 := .ofNat (instant - anchor)

@[simp] theorem toNat_elapsedNs (anchor instant : Nat) :
    (elapsedNs anchor instant).toNat = (instant - anchor) % 2 ^ 64 := by
  simp [elapsedNs]

/-- Two uptimes, in the nanoseconds a `u64` holds, differ by at most `skew`. -/
def UptimesAgree (skew first second : Nat) : Prop :=
  first % 2 ^ 64 ≤ second % 2 ^ 64 + skew ∧ second % 2 ^ 64 ≤ first % 2 ^ 64 + skew

/-- With both processes up for less than the range of the clock, uptimes agree when neither
process started too long before the other; a delay counts as an earlier start of the
receiver. -/
theorem uptimesAgree_iff_starts {skew senderStart emitted receiverStart received : Nat}
    (started : senderStart ≤ emitted) (startedToo : receiverStart ≤ received)
    (fits : emitted - senderStart < 2 ^ 64) (fitsToo : received - receiverStart < 2 ^ 64)
    (ordered : emitted ≤ received) :
    UptimesAgree skew (emitted - senderStart) (received - receiverStart) ↔
      senderStart + (received - emitted) ≤ receiverStart + skew ∧
        receiverStart ≤ senderStart + (received - emitted) + skew := by
  unfold UptimesAgree
  rw [Nat.mod_eq_of_lt fits, Nat.mod_eq_of_lt fitsToo]
  omega

theorem absDiff_le_iff (a b bound : UInt64) :
    absDiff a b ≤ bound ↔ a.toNat ≤ b.toNat + bound.toNat ∧ b.toNat ≤ a.toNat + bound.toNat := by
  rw [UInt64.le_iff_toNat_le, toNat_absDiff]
  unfold Nat.dist
  omega

namespace NeighborTable

/-- What the clock-skew guard of `observe` drops. -/
def Skewed (table : NeighborTable) (beacon : Beacon) : Prop :=
  absDiff beacon.tsNs beacon.nowNs > table.cfg.maxClockSkewNs

theorem observe_of_skewed {table : NeighborTable} {beacon : Beacon}
    (skewed : table.Skewed beacon) : table.observe beacon = (table, false) :=
  if_pos skewed

/-- A new unit is recorded, given a free slot, exactly when the guard lets its beacon pass. -/
theorem recorded_iff_not_skewed {table : NeighborTable} {beacon : Beacon}
    (unknown : ∀ entry ∈ table.iter, entry.unitId ≠ beacon.unitId)
    (free : ∃ slot, table.slots slot = none) :
    (∃ entry ∈ (table.observe beacon).1.iter, entry.unitId = beacon.unitId) ↔
      ¬ table.Skewed beacon := by
  constructor
  · rintro ⟨entry, listed, unit⟩ skewed
    rw [observe_of_skewed skewed] at listed
    exact unknown entry listed unit
  · intro passes
    obtain ⟨slot, empty⟩ := free
    obtain ⟨found, placed⟩ : ∃ found,
        LinearProbing.place NeighborEntry.unitId table.home table.slots beacon.unitId =
          some found := LinearProbing.place_of_free empty beacon.unitId
    rcases table.observe_cases beacon with
      ⟨_, skewed | full⟩ | ⟨place, entry, placedAt, held, _⟩ | ⟨place, placedAt, _, result⟩
    · exact absurd skewed passes
    · exact nomatch placed.symm.trans full
    · exact absurd (LinearProbing.place_spec placedAt held)
        (unknown entry ((mem_iter table entry).mpr ⟨place, held⟩))
    · rw [result]
      refine ⟨inserted beacon, (mem_iter _ _).mpr ⟨place, ?_⟩, rfl⟩
      exact Function.update_self ..

end NeighborTable

namespace ServiceCore

/-- The beacon that the service emits next. -/
def nextBeacon (core : ServiceCore) : MeshBeacon :=
  .new core.cfg.unitId core.beaconSeq (core.env.clock core.readings)
    (core.localPort.getD core.cfg.listenPort)

theorem sent_sendBeaconTo {core : ServiceCore} (transmits : core.env.accepts core.sends = true)
    (dst : SocketAddr) :
    (core.sendBeaconTo dst).1.sent = core.sent ++ [⟨dst, writeMeshFrame core.nextBeacon⟩] := by
  have sent := congrArg ServiceCore.sent
    (transmit_state core.nowNs.1 dst (writeMeshFrame core.nextBeacon))
  rw [if_pos (show core.nowNs.1.env.accepts core.nowNs.1.sends = true from transmits)] at sent
  exact sent

/-- What `observe` is told when the beacon of another service arrives. -/
def observed (receiver sender : ServiceCore) (source : SocketAddr) : Beacon where
  unitId := sender.cfg.unitId
  addr := { source with port := sender.nextBeacon.listenPort }
  seq := sender.beaconSeq
  tsNs := sender.env.clock sender.readings
  nowNs := receiver.env.clock receiver.readings

variable (archive : Archive Command 56)
  (telemetry : List UInt8 → Option (Core.TelemetryPacket UInt32))

theorem recvFrame_nextBeacon (sender : ServiceCore) (source : SocketAddr) :
    recvFrame archive telemetry (writeMeshFrame sender.nextBeacon) source =
      .ok (.mesh sender.nextBeacon source) := by
  have fits : sender.nextBeacon.encode.length ≤ maxPayload := by
    rw [MeshBeacon.length_encode]
    decide
  unfold recvFrame
  rw [take_writeMeshFrame]
  refine (demux_assemble archive telemetry .mesh 0 fits source).trans ?_
  simp only [demuxPayload, nextBeacon, MeshBeacon.decode_encode_new]

theorem mesh_receive_nextBeacon (receiver sender : ServiceCore) (source : SocketAddr) :
    (receiver.receive archive telemetry (writeMeshFrame sender.nextBeacon) source).1.mesh =
      (receiver.mesh.observe (receiver.observed sender source)).1 := by
  rw [receive_of_read archive telemetry (recvFrame_nextBeacon archive telemetry sender source)]
  unfold dispatch
  dsimp only
  split
  · unfold sendBeaconTo
    dsimp only
    rw [transmit_state]
    rfl
  · rfl

/-- A beacon that one service emits and another one receives.  With the clocks counting from
the start of each process, the skew guard lets it pass exactly when the uptime of the sender
at emission and that of the receiver at receipt agree; a new unit is recorded, given a free
slot, exactly then. -/
theorem beacon_passes_iff_uptimesAgree (sender receiver : ServiceCore) (dst source : SocketAddr)
    {senderStart emitted receiverStart received : Nat}
    (senderClock : sender.env.clock sender.readings = elapsedNs senderStart emitted)
    (receiverClock : receiver.env.clock receiver.readings = elapsedNs receiverStart received)
    (transmits : sender.env.accepts sender.sends = true) :
    ∃ frame beacon,
      (sender.sendBeaconTo dst).1.sent = sender.sent ++ [⟨dst, frame⟩] ∧
      (receiver.receive archive telemetry frame source).1.mesh =
        (receiver.mesh.observe beacon).1 ∧
      (¬ receiver.mesh.Skewed beacon ↔
        UptimesAgree receiver.mesh.cfg.maxClockSkewNs.toNat (emitted - senderStart)
          (received - receiverStart)) ∧
      ((∀ entry ∈ receiver.mesh.iter, entry.unitId ≠ sender.cfg.unitId) →
        (∃ slot, receiver.mesh.slots slot = none) →
        ((∃ entry ∈ (receiver.receive archive telemetry frame source).1.mesh.iter,
            entry.unitId = sender.cfg.unitId) ↔
          UptimesAgree receiver.mesh.cfg.maxClockSkewNs.toNat (emitted - senderStart)
            (received - receiverStart))) := by
  have guard : ¬ receiver.mesh.Skewed (receiver.observed sender source) ↔
      UptimesAgree receiver.mesh.cfg.maxClockSkewNs.toNat (emitted - senderStart)
        (received - receiverStart) := by
    unfold NeighborTable.Skewed UptimesAgree
    rw [gt_iff_lt, UInt64.not_lt, absDiff_le_iff]
    simp only [observed, senderClock, receiverClock, toNat_elapsedNs]
  have handled := mesh_receive_nextBeacon archive telemetry receiver sender source
  refine ⟨_, receiver.observed sender source, sent_sendBeaconTo transmits dst, handled, guard, ?_⟩
  intro unknown free
  rw [handled, ← guard]
  exact NeighborTable.recorded_iff_not_skewed unknown free

/-- A unit with the given process start, at true time `instant`. -/
def startedAt (unitId : UInt64) (anchor instant : Nat) : ServiceCore :=
  .new { unitId } (.withCapacity 1) none ⟨fun _ => true, fun _ => elapsedNs anchor instant⟩

/-- Two units started within the same second hear each other. -/
theorem startedTogether_recorded :
    ∃ entry ∈ ((startedAt 2 1000000000 5000000000).receive .command Archive.telemetry.access
        (writeMeshFrame (startedAt 1 0 5000000000).nextBeacon)
        ⟨.v4 0x7F000001, 100⟩).1.mesh.iter, entry.unitId = 1 := by
  obtain ⟨frame, _, sent, _, _, records⟩ :=
    beacon_passes_iff_uptimesAgree .command Archive.telemetry.access (startedAt 1 0 5000000000)
      (startedAt 2 1000000000 5000000000) ⟨.v4 0x7F000001, 200⟩ ⟨.v4 0x7F000001, 100⟩ rfl rfl rfl
  rw [sent_sendBeaconTo rfl] at sent
  obtain ⟨rfl⟩ : writeMeshFrame (startedAt 1 0 5000000000).nextBeacon = frame := by
    simpa using sent
  refine (records ?_ ⟨⟨0, by decide⟩, rfl⟩).mpr (by unfold UptimesAgree; decide)
  intro entry listed
  obtain ⟨slot, held⟩ := (NeighborTable.mem_iter _ _).mp listed
  cases held

/-- A unit that has been up for 31 seconds is not heard by one that has just started: the
beacon arrives at the instant it is emitted and all 128 slots are free. -/
theorem startedLater_not_recorded :
    ((startedAt 2 31000000000 31000000000).receive .command Archive.telemetry.access
        (writeMeshFrame (startedAt 1 0 31000000000).nextBeacon)
        ⟨.v4 0x7F000001, 100⟩).1.mesh =
      .withCapacity 128 := by
  have skewed : (startedAt 2 31000000000 31000000000).mesh.Skewed
      ((startedAt 2 31000000000 31000000000).observed (startedAt 1 0 31000000000)
        ⟨.v4 0x7F000001, 100⟩) := by
    unfold NeighborTable.Skewed
    decide
  rw [mesh_receive_nextBeacon, NeighborTable.observe_of_skewed skewed]
  rfl

end ServiceCore

end Teleop.Link
