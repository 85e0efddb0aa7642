import Teleop.Link.ReliableTx

/-!
# Frames kept for retransmission

A frame in a live slot with a transmission time stays there until an acknowledgement
reports its sequence number: other sends never overwrite it and the timer leaves it
in place.
-/

namespace Teleop.Link.ReliableTx

open Teleop.Lib

variable {tx : ReliableTx} {bytes : List UInt8}

/-- `bytes` waits in a slot that `tick` will retransmit. -/
def Retained (tx : ReliableTx) (bytes : List UInt8) : Prop :=
  ∃ i, 0 < (tx.slots i).len ∧ (tx.slots i).firstNs ≠ 0 ∧ (tx.slots i).payload.val = bytes

/-- Two sequence numbers of the window with the same slot are equal. -/
theorem seq_eq_of_index_eq {a b : UInt32} (same : tx.index a = tx.index b)
    (insideA : (a - tx.oldest).toNat < tx.window) (insideB : (b - tx.oldest).toNat < tx.window) :
    a = b := by
  have number : ∀ c : UInt32, serial (tx.oldest.toNat + (c - tx.oldest).toNat) = c := by
    intro c
    apply UInt32.toNat.inj
    have boundC := c.toNat_lt
    have boundOldest := tx.oldest.toNat_lt
    rw [toNat_serial, UInt32.toNat_sub]
    omega
  have nearA := (a - tx.oldest).toNat_lt
  have nearB := (b - tx.oldest).toNat_lt
  have equal : tx.oldest.toNat + (a - tx.oldest).toNat =
      tx.oldest.toNat + (b - tx.oldest).toNat := by
    rw [← number a, ← number b] at same
    exact eq_of_index_eq same (Nat.le_add_right _ _) (by omega) (by omega)
      (Nat.le_add_right _ _) (by omega) (by omega)
  rw [← number a, equal, number b]

/-- Another sequence number of the window has another slot than the oldest one. -/
theorem index_ne_oldest {seq : UInt32} (inside : (seq - tx.oldest).toNat < tx.window)
    (ahead : seq ≠ tx.oldest) : tx.index seq ≠ tx.index tx.oldest := by
  intro same
  have start : (tx.oldest - tx.oldest).toNat < tx.window := by
    rw [UInt32.sub_self]
    exact Nat.succ_pos tx.mask
  exact ahead (seq_eq_of_index_eq same inside start)

/-- Short of the base, the oldest sequence number is below it. -/
theorem ne_oldest_of_not_below {ack : AckFrame} {seq : UInt32} (above : ¬tx.Below ack seq)
    (apart : ack.baseSeq - tx.oldest ≠ 0) : seq ≠ tx.oldest := by
  rintro rfl
  apply above
  unfold Below
  rw [UInt32.sub_self]
  exact Nat.pos_of_ne_zero fun zero => apart (UInt32.toNat.inj zero)

/-- When `oldest` moves up, both distances shrink by one. -/
theorem below_of_below_dropOldest {ack : AckFrame} {seq : UInt32}
    (apart : ack.baseSeq - tx.oldest ≠ 0) (ahead : seq ≠ tx.oldest)
    (below : Below { tx.release tx.oldest with oldest := tx.oldest + 1 } ack seq) :
    tx.Below ack seq := by
  have base : ack.baseSeq ≠ tx.oldest := by
    intro equal
    rw [equal, UInt32.sub_self] at apart
    exact apart rfl
  have first := toNat_sub_add_one ahead
  have second := toNat_sub_add_one base
  unfold Below at below ⊢
  dsimp only at below
  omega

theorem Retained.send (retained : tx.Retained bytes) (aligned : tx.Aligned) (seq : UInt32)
    (payload : Payload) (nowNs : UInt64) : (tx.send seq payload nowNs).1.Retained bytes := by
  obtain ⟨i, live, timed, holds⟩ := retained
  rcases send_cases tx seq payload nowNs with refused | ⟨inside, fresh, filled⟩
  · rw [refused]
    exact ⟨i, live, timed, holds⟩
  · rw [filled]
    obtain ⟨home, within⟩ := aligned i live
    have elsewhere : i ≠ tx.index seq := by
      rintro rfl
      have equal := seq_eq_of_index_eq home within inside
      exact fresh ⟨live, equal, timed⟩
    refine ⟨i, ?_⟩
    dsimp only
    rw [setSlot_slots, if_neg elsewhere]
    exact ⟨live, timed, holds⟩

/-- The slot of `seq` queues a frame of that number, so `send` refuses it. -/
def Queues (tx : ReliableTx) (seq : UInt32) : Prop :=
  0 < (tx.slots (tx.index seq)).len ∧ (tx.slots (tx.index seq)).seq = seq ∧
    (tx.slots (tx.index seq)).firstNs ≠ 0

theorem retained_of_send {seq : UInt32} (inside : (seq - tx.oldest).toNat < tx.window)
    (unqueued : ¬tx.Queues seq) {payload : Payload} {nowNs : UInt64}
    (nonempty : 0 < payload.val.length) (timed : nowNs ≠ 0) :
    (tx.send seq payload nowNs).1.Retained payload.val := by
  have stored : tx.send seq payload nowNs =
      (tx.setSlot (tx.index seq) ⟨seq, payload, nowNs, nowNs, 0⟩, .ok ()) := by
    unfold send
    rw [if_neg (Nat.not_le.mpr inside)]
    exact if_neg unqueued
  rw [stored]
  refine ⟨tx.index seq, ?_⟩
  dsimp only
  rw [setSlot_slots, if_pos rfl]
  exact ⟨nonempty, timed, rfl⟩

/-- Sending another number, or the same number at time 0, queues nothing under `seq`. -/
theorem not_queues_send {seq other : UInt32} (unqueued : ¬tx.Queues seq) (payload : Payload)
    {nowNs : UInt64} (untimed : other = seq → nowNs = 0) :
    ¬(tx.send other payload nowNs).1.Queues seq := by
  rcases send_cases tx other payload nowNs with refused | ⟨_, _, filled⟩
  · rw [refused]
    exact unqueued
  · rw [filled]
    rintro ⟨live, same, timed⟩
    change 0 < ((tx.setSlot _ _).slots (tx.index seq)).len at live
    change ((tx.setSlot _ _).slots (tx.index seq)).seq = seq at same
    change ((tx.setSlot _ _).slots (tx.index seq)).firstNs ≠ 0 at timed
    rw [setSlot_slots] at live same timed
    split at same
    · rename_i here
      rw [if_pos here] at timed
      exact timed (untimed same)
    · rename_i elsewhere
      rw [if_neg elsewhere] at live timed
      exact unqueued ⟨live, same, timed⟩

theorem send_window (tx : ReliableTx) (seq : UInt32) (payload : Payload) (nowNs : UInt64) :
    (tx.send seq payload nowNs).1.oldest = tx.oldest ∧
      (tx.send seq payload nowNs).1.window = tx.window := by
  rcases send_cases tx seq payload nowNs with refused | ⟨_, _, filled⟩
  · rw [refused]
    exact ⟨rfl, rfl⟩
  · rw [filled]
    exact ⟨rfl, rfl⟩

theorem Retained.tick (retained : tx.Retained bytes) (nowNs rtoNs : UInt64) :
    (tx.tick nowNs rtoNs).1.Retained bytes := by
  obtain ⟨i, live, timed, holds⟩ := retained
  obtain ⟨_, payload, firstNs⟩ := tick_slots tx nowNs rtoNs i
  refine ⟨i, ?_, ?_, ?_⟩
  · rw [tick_len]
    exact live
  · rw [firstNs]
    exact timed
  · rw [payload]
    exact holds

/-- The acknowledgement reports `seq`, below its base or in its bitmap. -/
def Reported (tx : ReliableTx) (ack : AckFrame) (seq : UInt32) : Prop :=
  tx.Below ack seq ∨ ∃ i < sackBits - 1, bit ack.bitmap i = true ∧ seq = ack.baseSeq + serial (1 + i)

/-- `bytes` is retained under a sequence number that the acknowledgement does not report. -/
def Spared (tx : ReliableTx) (ack : AckFrame) (bytes : List UInt8) : Prop :=
  ∃ i, 0 < (tx.slots i).len ∧ (tx.slots i).firstNs ≠ 0 ∧ (tx.slots i).payload.val = bytes ∧
    ¬tx.Reported ack (tx.slots i).seq

theorem Spared.dropOldest {ack : AckFrame} (spared : tx.Spared ack bytes)
    (aligned : tx.Aligned) (apart : ack.baseSeq - tx.oldest ≠ 0) :
    Spared { tx.release tx.oldest with oldest := tx.oldest + 1 } ack bytes := by
  obtain ⟨i, live, timed, holds, unreported⟩ := spared
  obtain ⟨home, inside⟩ := aligned i live
  have ahead : (tx.slots i).seq ≠ tx.oldest :=
    ne_oldest_of_not_below (fun below => unreported (.inl below)) apart
  have elsewhere : i ≠ tx.index tx.oldest := by
    rw [← home]
    exact index_ne_oldest inside ahead
  have kept : (tx.release tx.oldest).slots i = tx.slots i := by
    rw [release_slots, if_neg elsewhere]
  refine ⟨i, ?_⟩
  dsimp only
  rw [kept]
  refine ⟨live, timed, holds, ?_⟩
  rintro (lower | sacked)
  · exact unreported (.inl (below_of_below_dropOldest apart ahead lower))
  · exact unreported (.inr sacked)

theorem Spared.freeSacked {ack : AckFrame} (spared : tx.Spared ack bytes) {k : Nat}
    (bounded : k < sackBits - 1) (sacked : tx.Sacked ack k) :
    (tx.release (ack.baseSeq + serial (1 + k))).Spared ack bytes := by
  obtain ⟨i, live, timed, holds, unreported⟩ := spared
  have elsewhere : i ≠ tx.index (ack.baseSeq + serial (1 + k)) := by
    rintro rfl
    exact unreported (.inr ⟨k, bounded, sacked.set, sacked.carries⟩)
  refine ⟨i, ?_⟩
  rw [release_slots, if_neg elsewhere]
  exact ⟨live, timed, holds, unreported⟩

/-- What the acknowledgement does not report stays. -/
theorem Spared.onAck {ack : AckFrame} (spared : tx.Spared ack bytes) (aligned : tx.Aligned)
    (nowNs : UInt64) : (tx.onAck ack nowNs).1.Retained bytes := by
  have kept : (tx.onAck ack nowNs).1.Aligned ∧ (tx.onAck ack nowNs).1.Spared ack bytes := by
    apply onAck_preserves (P := fun tx => tx.Aligned ∧ tx.Spared ack bytes) nowNs _ _
      ⟨aligned, spared⟩
    · rintro tx ⟨aligned, spared⟩ apart _
      exact ⟨aligned.dropOldest, spared.dropOldest aligned apart⟩
    · rintro tx k bounded ⟨aligned, spared⟩ sacked
      exact ⟨aligned.release, spared.freeSacked bounded sacked⟩
  obtain ⟨_, i, live, timed, holds, _⟩ := kept
  exact ⟨i, live, timed, holds⟩

end Teleop.Link.ReliableTx
