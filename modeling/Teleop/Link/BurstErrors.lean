import Teleop.Lib.ShiftRegister
import Teleop.Link.MuxRoundTrip

/-!
# Burst errors on a datagram

The table-driven checksum is a shift register fed with the bits in the order of
transmission, and a datagram with its trailer always leaves the same residue in
it.  A burst of at most 32 bits changes the residue, wherever it falls.
-/

namespace Teleop.Link

open Teleop.Core Teleop.Lib Teleop.Lib.ShiftRegister

/-- The reflected polynomial of CRC-32. -/
def crcPoly : BitVec 32 := 0xEDB88320#32

/-- Bits of a byte in the order of transmission, the least significant first. -/
def byteBits (b : UInt8) : List Bool := (List.range 8).map b.toNat.testBit

def bitsOf (bytes : List UInt8) : List Bool := bytes.flatMap byteBits

@[simp] theorem length_byteBits (b : UInt8) : (byteBits b).length = 8 := by simp [byteBits]

theorem ofBits_byteBits (b : UInt8) : ofBits (byteBits b) = b.toNat := by
  unfold byteBits
  rw [ofBits_testBit, Nat.mod_eq_of_lt b.toNat_lt]

theorem byteBits_injective {a b : UInt8} (same : byteBits a = byteBits b) : a = b := by
  apply UInt8.toNat.inj
  rw [← ofBits_byteBits a, same, ofBits_byteBits b]

@[simp] theorem bitsOf_cons (b : UInt8) (rest : List UInt8) :
    bitsOf (b :: rest) = byteBits b ++ bitsOf rest := rfl

theorem bitsOf_append (first second : List UInt8) :
    bitsOf (first ++ second) = bitsOf first ++ bitsOf second :=
  List.flatMap_append

theorem length_bitsOf (bytes : List UInt8) : (bitsOf bytes).length = 8 * bytes.length := by
  induction bytes with
  | nil => rfl
  | cons b rest inductionHypothesis => simp [inductionHypothesis, Nat.mul_add, Nat.add_comm]

theorem bitsOf_injective {first second : List UInt8} (sameLength : first.length = second.length)
    (same : bitsOf first = bitsOf second) : first = second := by
  induction first generalizing second with
  | nil => exact (List.length_eq_zero_iff.mp sameLength.symm).symm
  | cons a first inductionHypothesis =>
      cases second with
      | nil => cases sameLength
      | cons b second =>
          have parts := List.append_inj same (by simp)
          rw [byteBits_injective parts.1,
            inductionHypothesis (Nat.succ.inj sameLength) parts.2]

theorem ofBits_bitsOf (bytes : List UInt8) : ofBits (bitsOf bytes) = ofLe bytes := by
  induction bytes with
  | nil => rfl
  | cons b rest inductionHypothesis =>
      rw [bitsOf_cons, ofBits_append, ofBits_byteBits, length_byteBits, inductionHypothesis]
      rfl

theorem toBitVec_crcPass (c : UInt32) : (crcPass c).toBitVec = step crcPoly c.toBitVec := by
  have low : c &&& 1 ≠ 0 ↔ c.toBitVec.getLsbD 0 = true := and_one_ne_zero_iff c
  unfold crcPass step
  by_cases odd : c.toBitVec.getLsbD 0 = true
  · rw [if_pos (low.mpr odd), if_pos odd]
    rfl
  · rw [if_neg (mt low.mp odd), if_neg odd]
    rfl

theorem toBitVec_iterate_crcPass (n : Nat) (c : UInt32) :
    (crcPass^[n] c).toBitVec = (step crcPoly)^[n] c.toBitVec := by
  induction n generalizing c with
  | zero => rfl
  | succ n inductionHypothesis =>
      rw [Function.iterate_succ_apply, inductionHypothesis, toBitVec_crcPass]
      rfl

theorem crcTable_get (i : Fin 256) : crcTable.get i = crcPass^[8] (UInt32.ofNat i) :=
  Vector.getElem_ofFn i.isLt

/-- Looking a byte up in the table takes its eight bits in. -/
theorem toBitVec_crcByte (c : UInt32) (b : UInt8) :
    (crcByte c b).toBitVec = feed crcPoly c.toBitVec (byteBits b) := by
  have small : b.toNat < 2 ^ 8 := b.toNat_lt
  have entered : (c ^^^ b.toUInt32).toBitVec = c.toBitVec ^^^ BitVec.ofNat 32 b.toNat := by
    apply BitVec.eq_of_toNat_eq
    simp
  have low : ((c ^^^ b.toUInt32) &&& 0xFF).toNat =
      (c.toBitVec ^^^ BitVec.ofNat 32 b.toNat).toNat % 2 ^ 8 := by
    rw [← entered, UInt32.toNat_and]
    exact Nat.and_two_pow_sub_one_eq_mod _ 8
  have high : (c.toBitVec ^^^ BitVec.ofNat 32 b.toNat) >>> 8 = c.toBitVec >>> 8 := by
    rw [BitVec.ushiftRight_xor_distrib]
    have gone : BitVec.ofNat 32 b.toNat >>> 8 = 0#32 := by
      apply BitVec.eq_of_toNat_eq
      simpa [Nat.shiftRight_eq_div_pow] using small
    rw [gone, BitVec.xor_zero]
  rw [feed_eq_iterate (by simp), ofBits_byteBits, length_byteBits, iterate_step_eq_xor, high, ← low]
  unfold crcByte
  rw [crcTable_get, UInt32.toBitVec_xor, toBitVec_iterate_crcPass]
  rfl

theorem toBitVec_foldl_crcByte (bytes : List UInt8) (c : UInt32) :
    (bytes.foldl crcByte c).toBitVec = feed crcPoly c.toBitVec (bitsOf bytes) := by
  induction bytes generalizing c with
  | nil => rfl
  | cons b rest inductionHypothesis =>
      rw [List.foldl_cons, inductionHypothesis, toBitVec_crcByte, bitsOf_cons, feed_append]

/-- What a datagram with the right trailer leaves in the register. -/
def residue : BitVec 32 := (step crcPoly)^[32] (BitVec.allOnes 32)

theorem feed_of_trailer {body trailer : List UInt8} (four : trailer.length = 4)
    (agrees : crc32 body = .ofNat (ofLe trailer)) :
    feed crcPoly (BitVec.allOnes 32) (bitsOf (body ++ trailer)) = residue := by
  have start : BitVec.allOnes 32 = (~~~ 0 : UInt32).toBitVec := by decide
  have length : (bitsOf trailer).length = 32 := by rw [length_bitsOf, four]
  have word : BitVec.ofNat 32 (ofLe trailer) =
      ~~~ (body.foldl crcByte (~~~ 0)).toBitVec :=
    (congrArg UInt32.toBitVec agrees).symm
  rw [bitsOf_append, feed_append, start, ← toBitVec_foldl_crcByte body,
    feed_eq_iterate (Nat.le_of_eq length), length, ofBits_bitsOf, word]
  unfold residue
  rw [← BitVec.xor_allOnes, ← BitVec.xor_assoc, BitVec.xor_self, BitVec.zero_xor]

/-- The bits in which two byte strings differ lie within `run` consecutive ones. -/
def DiffersWithin (run : Nat) (first second : List UInt8) : Prop :=
  ∃ start, ∀ i, (bitsOf first)[i]? ≠ (bitsOf second)[i]? → start ≤ i ∧ i < start + run

/-- Four damaged bytes in a row are a burst. -/
theorem differsWithin_replaced (front a b rest : List UInt8)
    (sameLength : a.length = b.length) (short : b.length ≤ 4) :
    DiffersWithin 32 (front ++ (a ++ rest)) (front ++ (b ++ rest)) := by
  refine ⟨8 * front.length, fun i differs => ?_⟩
  rw [bitsOf_append, bitsOf_append, bitsOf_append, bitsOf_append] at differs
  have reached : 8 * front.length ≤ i := by
    by_contra early
    have inside : i < (bitsOf front).length := by rw [length_bitsOf]; omega
    rw [List.getElem?_append_left inside, List.getElem?_append_left inside] at differs
    exact differs rfl
  refine ⟨reached, ?_⟩
  by_contra late
  have beyond : (bitsOf front).length ≤ i := by rw [length_bitsOf]; exact reached
  have behind {x : List UInt8} (length : x.length = b.length) :
      (bitsOf x).length ≤ i - (bitsOf front).length := by
    rw [length_bitsOf, length_bitsOf, length]
    omega
  rw [List.getElem?_append_right beyond, List.getElem?_append_right beyond,
    List.getElem?_append_right (behind sameLength), List.getElem?_append_right (behind rfl),
    length_bitsOf a, length_bitsOf b, sameLength] at differs
  exact differs rfl

theorem burst_of_differsWithin {run : Nat} {first second : List UInt8}
    (within : DiffersWithin run first second) :
    Burst run (List.zipWith xor (bitsOf first) (bitsOf second)) := by
  obtain ⟨start, within⟩ := within
  refine ⟨start, fun i differs => within i fun same => ?_⟩
  rw [List.getElem?_zipWith, same] at differs
  cases held : (bitsOf second)[i]? with
  | none => simp [held] at differs
  | some b => simp [held] at differs

theorem eq_of_xor_false {first second : List Bool} (sameLength : first.length = second.length)
    (none : ∀ b ∈ List.zipWith xor first second, b = false) : first = second := by
  induction first generalizing second with
  | nil => exact (List.length_eq_zero_iff.mp sameLength.symm).symm
  | cons a first inductionHypothesis =>
      cases second with
      | nil => cases sameLength
      | cons b second =>
          rw [List.zipWith_cons_cons, List.forall_mem_cons] at none
          rw [inductionHypothesis (Nat.succ.inj sameLength) none.2]
          cases a <;> cases b <;> first | rfl | cases none.1

/-- Byte strings of one length with the same residue differ in more than a burst. -/
theorem eq_of_same_residue {first second : List UInt8}
    (sameLength : first.length = second.length) (within : DiffersWithin 32 first second)
    (residues : feed crcPoly (BitVec.allOnes 32) (bitsOf first) =
      feed crcPoly (BitVec.allOnes 32) (bitsOf second)) : first = second := by
  have bitLength : (bitsOf first).length = (bitsOf second).length := by
    rw [length_bitsOf, length_bitsOf, sameLength]
  have difference : feed crcPoly (BitVec.allOnes 32 ^^^ BitVec.allOnes 32)
      (List.zipWith xor (bitsOf first) (bitsOf second)) =
        feed crcPoly (BitVec.allOnes 32) (bitsOf first) ^^^
          feed crcPoly (BitVec.allOnes 32) (bitsOf second) :=
    feed_xor _ _ bitLength
  rw [residues, BitVec.xor_self, BitVec.xor_self] at difference
  have top : crcPoly.msb = true := by decide
  exact bitsOf_injective sameLength (eq_of_xor_false bitLength
    (burst_detected top (burst_of_differsWithin within) difference))

/-- Datagrams that some writer assembles. -/
inductive Written (archive : Archive Command 56) (packets : Archive (TelemetryPacket UInt32) 56) :
    List UInt8 → Prop
  | control {cmd : Command} {frameFlags : UInt8} {bytes : List UInt8} :
      writeControlFrame archive cmd frameFlags = .ok bytes → Written archive packets bytes
  | telemetry {pkt : TelemetryPacket UInt32} {bytes : List UInt8} :
      writeTelemetryFrame packets pkt = .ok bytes → Written archive packets bytes
  | mesh (beacon : MeshBeacon) : Written archive packets (writeMeshFrame beacon)
  | ack (ack : AckFrame) : Written archive packets (writeAckFrame ack)
  | ice {payload bytes : List UInt8} :
      writeIceFrame payload = .ok bytes → Written archive packets bytes
  | secure {sealed : List UInt8} {frameFlags : UInt8} {bytes : List UInt8} :
      writeSecureFrame sealed frameFlags = .ok bytes → Written archive packets bytes

section Detection

variable {archive : Archive Command 56} {packets : Archive (TelemetryPacket UInt32) 56}

theorem assemble_of_writePayload {channel : Channel} {frameFlags : UInt8}
    {payload bytes : List UInt8} {message : String}
    (written : writePayload channel frameFlags payload message = .ok bytes) :
    assemble channel frameFlags payload = bytes := by
  unfold writePayload at written
  split at written
  · cases written
  · exact Except.ok.inj written

theorem Written.assembled {frame : List UInt8} (written : Written archive packets frame) :
    ∃ channel frameFlags payload, frame = assemble channel frameFlags payload := by
  cases written with
  | control written =>
      rw [writeControlFrame_eq] at written
      exact ⟨_, _, _, (Except.ok.inj written).symm⟩
  | telemetry written => exact ⟨_, _, _, (assemble_of_writePayload written).symm⟩
  | mesh beacon => exact ⟨_, _, _, rfl⟩
  | ack ack => exact ⟨_, _, _, rfl⟩
  | ice written => exact ⟨_, _, _, (assemble_of_writePayload written).symm⟩
  | secure written => exact ⟨_, _, _, (assemble_of_writePayload written).symm⟩

theorem residue_assemble (channel : Channel) (frameFlags : UInt8) (payload : List UInt8) :
    feed crcPoly (BitVec.allOnes 32) (bitsOf (assemble channel frameFlags payload)) = residue := by
  refine feed_of_trailer (length_leBytes trailerLen _) ?_
  rw [ofLe_leBytes, show trailerLen = 4 from rfl, ofNat_toNat_mod_four]

/-- Whatever is accepted ends in the checksum of what precedes its trailer. -/
theorem residue_of_demux {telemetry : List UInt8 → Option (TelemetryPacket UInt32)}
    {bytes : List UInt8} {source : SocketAddr} {inbound : Inbound}
    (accepted : demux archive telemetry bytes source = .ok inbound) :
    feed crcPoly (BitVec.allOnes 32) (bitsOf bytes) = residue := by
  unfold demux at accepted
  split at accepted
  · cases accepted
  · split at accepted
    · cases accepted
    · rename_i header _
      dsimp only at accepted
      split at accepted
      · cases accepted
      · split at accepted
        · cases accepted
        · rename_i total
          split at accepted
          · cases accepted
          · rename_i agrees
            have four : (bytes.drop (headerLen + header.payloadLen.toNat)).length = 4 := by
              rw [List.length_drop, ← not_not.mp total, Nat.add_sub_cancel_left]
              rfl
            have whole := feed_of_trailer four (not_not.mp agrees)
            rwa [List.take_append_drop] at whole

/-- A datagram of a writer, damaged within at most 32 consecutive bits, is never accepted. -/
theorem burst_rejected (archive : Archive Command 56)
    (packets : Archive (TelemetryPacket UInt32) 56) (source : SocketAddr)
    {frame damaged : List UInt8} (written : Written archive packets frame)
    (sameLength : damaged.length = frame.length) (different : damaged ≠ frame)
    (within : DiffersWithin 32 damaged frame) (inbound : Inbound) :
    demux archive packets.access damaged source ≠ .ok inbound := by
  intro accepted
  obtain ⟨channel, frameFlags, payload, rfl⟩ := written.assembled
  have residues := (residue_of_demux accepted).trans
    (residue_assemble channel frameFlags payload).symm
  exact different (eq_of_same_residue sameLength within residues)

def iceDatagram : List UInt8 := assemble .ice 0 [1, 2, 3, 4, 5, 6]

/-- The datagram with four bytes of its payload turned over. -/
def garbled : List UInt8 :=
  iceDatagram.take 17 ++ ([0xFD, 0xFC, 0xFB, 0xFA] ++ iceDatagram.drop 21)

theorem burst_rejected_of_garbled :
    demux .command Archive.telemetry.access garbled ⟨.v4 0x7F000001, 100⟩ ≠
      .ok (.ice [1, 0xFD, 0xFC, 0xFB, 0xFA, 6] ⟨.v4 0x7F000001, 100⟩) := by
  have layout : iceDatagram = iceDatagram.take 17 ++ ([2, 3, 4, 5] ++ iceDatagram.drop 21) :=
    (List.take_append_drop 17 _).symm
  have within : DiffersWithin 32 garbled
      (iceDatagram.take 17 ++ ([2, 3, 4, 5] ++ iceDatagram.drop 21)) :=
    differsWithin_replaced _ [0xFD, 0xFC, 0xFB, 0xFA] [2, 3, 4, 5] _ rfl (by decide)
  rw [← layout] at within
  have written : Written .command .telemetry iceDatagram :=
    .ice (writePayload_of_le .ice 0 (by decide) _)
  have sameLength : garbled.length = iceDatagram.length := by
    rw [layout]
    simp [garbled]
  refine burst_rejected .command .telemetry _ written sameLength ?_ within _
  rw [layout]
  intro same
  have middle := List.append_inj_left (List.append_cancel_left same) rfl
  exact absurd middle (by decide)

end Detection

end Teleop.Link
