import Teleop.Link.ReliableRx
import Teleop.Link.Retention

/-!
# What an acknowledgement covers and what it frees

Three pieces of code read an acknowledgement: the receiver builds it, `covers` tells
which sequence numbers it reports, and the sender frees frames by it.  Each is put in
terms of the distance from the base, and the three readings are then compared.
-/

namespace Teleop.Link

open Teleop.Lib

/-- `covers` by the distance from the base: more than half a turn, nothing, or that of a
bit of the bitmap. -/
theorem AckFrame.covers_iff (ack : AckFrame) (seq : UInt32) :
    ack.covers seq = true ↔
      2 ^ 31 ≤ (seq - ack.baseSeq).toNat ∨ (seq - ack.baseSeq).toNat = 0 ∨
        ∃ i < sackBits - 1, bit ack.bitmap i = true ∧ (seq - ack.baseSeq).toNat = 1 + i := by
  have zero : seq - ack.baseSeq = 0 ↔ (seq - ack.baseSeq).toNat = 0 :=
    (UInt32.toNat_inj (b := 0)).symm
  have width : sackBits - 1 = 31 := rfl
  unfold covers
  dsimp only
  split
  · rename_i behind
    exact ⟨fun _ => .inl (by omega), fun _ => rfl⟩
  · rename_i near
    split
    · rename_i same
      exact ⟨fun _ => .inr (.inl (zero.mp same)), fun _ => rfl⟩
    · rename_i apart
      rw [zero] at apart
      split
      · rename_i small
        have offset : (seq - ack.baseSeq - 1).toNat = (seq - ack.baseSeq).toNat - 1 := by
          rw [UInt32.toNat_sub_of_le]
          · rfl
          · rw [UInt32.le_iff_toNat_le, UInt32.toNat_one]
            omega
        have marked := and_mask_ne_zero_iff ack.bitmap (d := seq - ack.baseSeq - 1) (by omega)
        rw [bne_iff_ne, marked, offset]
        constructor
        · intro set
          exact .inr (.inr ⟨_, by omega, set, by omega⟩)
        · rintro (far | none | ⟨i, _, set, distance⟩)
          · omega
          · exact absurd none apart
          · rw [distance, Nat.add_sub_cancel_left]
            exact set
      · rename_i far
        constructor
        · intro impossible
          cases impossible
        · rintro (behind | none | ⟨i, inside, _, distance⟩) <;> omega

/-- The acknowledgement a receiver builds covers every number before the next one, the next
one itself, and exactly those numbers after it that are held. -/
theorem ReliableRx.Tracks.covers_iff {rx : ReliableRx} {next : Nat}
    {held : Nat → Option Payload} (tracks : Tracks rx next held) {n : Int}
    (notStale : next ≤ n + 2 ^ 31) (notAhead : n < next + 2 ^ 31) (rttSampleNs : UInt64) :
    (rx.buildAck rttSampleNs).covers (UInt32.ofInt n) = true ↔
      n < 0 ∨ n = next ∨ ∃ m : Nat, n = m ∧ (held m).isSome := by
  have distance : (UInt32.ofInt n - (rx.buildAck rttSampleNs).baseSeq).toNat =
      ((n - next) % 2 ^ 32).toNat := by
    rw [← toNat_ofInt_sub_serial, ← tracks.next_eq]
    rfl
  have reported : ∀ i, i < sackBits - 1 →
      bit (rx.buildAck rttSampleNs).bitmap i = (held (next + (i + 1))).isSome := by
    intro i inside
    rw [← tracks.bit_eq ⟨i + 1, by omega⟩]
    exact bit_shiftRight_one rx.map i
  rw [AckFrame.covers_iff, distance]
  rcases lt_trichotomy n next with earlier | same | later
  · -- a number before the next one is negative or was delivered
    have behind : 2 ^ 31 ≤ ((n - next) % 2 ^ 32).toNat := by omega
    refine ⟨fun _ => ?_, fun _ => .inl behind⟩
    rcases lt_or_ge n 0 with negative | natural
    · exact .inl negative
    · obtain ⟨m, rfl⟩ := Int.eq_ofNat_of_zero_le natural
      exact .inr (.inr ⟨m, rfl, tracks.before m (by omega)⟩)
  · exact ⟨fun _ => .inr (.inl same), fun _ => .inr (.inl (by omega))⟩
  · obtain ⟨m, rfl⟩ : ∃ m : Nat, n = m := Int.eq_ofNat_of_zero_le (by omega)
    have offset : (((m : Int) - next) % 2 ^ 32).toNat = m - next := by omega
    rw [offset]
    constructor
    · rintro (behind | none | ⟨i, inside, set, apart⟩)
      · omega
      · omega
      · rw [reported i inside] at set
        have number : next + (i + 1) = m := by omega
        rw [number] at set
        exact .inr (.inr ⟨m, rfl, set⟩)
    · rintro (negative | same | ⟨m', same, present⟩)
      · omega
      · omega
      · obtain rfl : m = m' := Int.ofNat.inj same
        have near : m < next + sackBits := by
          by_contra far
          rw [tracks.beyond m (Nat.le_of_not_lt far)] at present
          exact absurd present (by simp)
        unfold sackBits at near
        have inside : m - next - 1 < sackBits - 1 := by
          unfold sackBits
          omega
        refine .inr (.inr ⟨m - next - 1, inside, ?_, by omega⟩)
        rw [reported _ inside]
        have number : next + (m - next - 1 + 1) = m := by omega
        rw [number]
        exact present

namespace ReliableTx

section Effect

variable {tx : ReliableTx} {ack : AckFrame} {seq : UInt32}

/-- The slot that a sequence number is kept in. -/
def slotAt (tx : ReliableTx) (seq : UInt32) : TxSlot := tx.slots (tx.index seq)

/-- A live frame numbered `seq` sits in the slot of that number. -/
def Carries (tx : ReliableTx) (seq : UInt32) : Prop :=
  0 < (tx.slotAt seq).len ∧ (tx.slotAt seq).seq = seq

theorem release_slotAt (tx : ReliableTx) (other seq : UInt32) :
    (tx.release other).slotAt seq =
      if tx.index seq = tx.index other then (tx.slotAt seq).free else tx.slotAt seq :=
  release_slots tx other (tx.index seq)

theorem Aligned.absent_iff (aligned : tx.Aligned) : tx.Absent seq ↔ ¬tx.Carries seq := by
  constructor
  · rintro absent ⟨live, same⟩
    exact absent (tx.index seq) live same
  · rintro missing i live rfl
    obtain ⟨home, _⟩ := aligned i live
    apply missing
    unfold Carries slotAt
    rw [home]
    exact ⟨live, rfl⟩

theorem Carries.inside (carries : tx.Carries seq) (aligned : tx.Aligned) :
    (seq - tx.oldest).toNat < tx.window := by
  obtain ⟨_, within⟩ := aligned (tx.index seq) carries.1
  have same : (tx.slots (tx.index seq)).seq = seq := carries.2
  rwa [same] at within

theorem Aligned.absent_release (aligned : tx.Aligned) : (tx.release seq).Absent seq := by
  intro i live same
  obtain ⟨elsewhere, kept⟩ := live_of_release live
  rw [kept] at live same
  obtain ⟨home, _⟩ := aligned i live
  rw [same] at home
  exact elsewhere home.symm

theorem window32_of_mask {other : ReliableTx} (same : other.mask = tx.mask) :
    other.window32 = tx.window32 := by
  unfold window32 window
  rw [same]

/-- The sender after the cumulative loop of `onAck`. -/
def advanced (tx : ReliableTx) (ack : AckFrame) (nowNs : UInt64) : ReliableTx :=
  (advance ack.baseSeq nowNs (ack.baseSeq - tx.oldest).toNat tx none).1

/-- Where the cumulative loop leaves `oldest`. -/
def oldestAfter (tx : ReliableTx) (ack : AckFrame) : UInt32 :=
  if ack.baseSeq - tx.oldest < tx.window32 then ack.baseSeq else tx.oldest

theorem advanced_oldest (tx : ReliableTx) (ack : AckFrame) (nowNs : UInt64) :
    (tx.advanced ack nowNs).oldest = tx.oldestAfter ack := by
  unfold advanced oldestAfter
  split
  · rename_i inside
    exact advance_reaches _ _ rfl (.inr inside)
  · rename_i outside
    rw [advance_of_outside _ _ outside]

theorem advanced_mask (tx : ReliableTx) (ack : AckFrame) (nowNs : UInt64) :
    (tx.advanced ack nowNs).mask = tx.mask := by
  apply advance_preserves (P := fun other => other.mask = tx.mask) _ _ _ rfl
  intro other same _ _
  exact same

theorem Aligned.advanced (aligned : tx.Aligned) (ack : AckFrame) (nowNs : UInt64) :
    (tx.advanced ack nowNs).Aligned := by
  apply advance_preserves (P := Aligned) _ _ _ aligned
  intro other aligned _ _
  exact aligned.dropOldest

/-- The cumulative loop leaves a frame at or after the base alone, and every frame when the
base lies outside the window. -/
theorem advanced_slotAt (aligned : tx.Aligned) (carries : tx.Carries seq)
    (unreached : ¬(ack.baseSeq - tx.oldest < tx.window32 ∧ tx.Below ack seq)) (nowNs : UInt64) :
    (tx.advanced ack nowNs).slotAt seq = tx.slotAt seq := by
  by_cases inside : ack.baseSeq - tx.oldest < tx.window32
  · have kept : (tx.advanced ack nowNs).Aligned ∧
        (tx.advanced ack nowNs).slotAt seq = tx.slotAt seq ∧
          ¬(tx.advanced ack nowNs).Below ack seq := by
      apply advance_preserves (P := fun other =>
        other.Aligned ∧ other.slotAt seq = tx.slotAt seq ∧ ¬other.Below ack seq) _ _ _
        ⟨aligned, rfl, fun below => unreached ⟨inside, below⟩⟩
      rintro other ⟨aligned, same, above⟩ apart _
      have still : other.Carries seq := by
        unfold Carries
        rw [same]
        exact carries
      have ahead : seq ≠ other.oldest := ne_oldest_of_not_below above apart
      have elsewhere : other.index seq ≠ other.index other.oldest :=
        index_ne_oldest (still.inside aligned) ahead
      refine ⟨aligned.dropOldest, ?_, ?_⟩
      · change (other.release other.oldest).slotAt seq = tx.slotAt seq
        rw [release_slotAt, if_neg elsewhere]
        exact same
      · intro below
        exact above (below_of_below_dropOldest apart ahead below)
    exact kept.2.1
  · unfold ReliableTx.advanced
    rw [advance_of_outside _ _ inside]

/-- The loops of `onAck` come past `seq`: the cumulative one, or the scan at its bit. -/
def Reaches (tx : ReliableTx) (ack : AckFrame) (seq : UInt32) : Prop :=
  (ack.baseSeq - tx.oldest < tx.window32 ∧ tx.Below ack seq) ∨
    ∃ i < sackBits - 1, bit ack.bitmap i = true ∧ seq = ack.baseSeq + serial (1 + i) ∧
      seq - tx.oldestAfter ack < tx.window32

/-- A frame the loops do not come past keeps its slot as it is. -/
theorem onAck_slotAt (aligned : tx.Aligned) (carries : tx.Carries seq)
    (unreached : ¬tx.Reaches ack seq) (nowNs : UInt64) :
    (tx.onAck ack nowNs).1.slotAt seq = tx.slotAt seq := by
  have kept : (tx.onAck ack nowNs).1.slotAt seq = tx.slotAt seq ∧
      (tx.onAck ack nowNs).1.oldest = tx.oldestAfter ack ∧
        (tx.onAck ack nowNs).1.mask = tx.mask := by
    apply freeSacked_preserves (P := fun other =>
      other.slotAt seq = tx.slotAt seq ∧ other.oldest = tx.oldestAfter ack ∧
        other.mask = tx.mask) _ _ scanned_lt
    · exact ⟨advanced_slotAt aligned carries (fun reached => unreached (.inl reached)) nowNs,
        advanced_oldest tx ack nowNs, advanced_mask tx ack nowNs⟩
    · rintro other i bounded ⟨same, oldest, mask⟩ sacked
      refine ⟨?_, oldest, mask⟩
      rw [release_slotAt, if_neg]
      · exact same
      · intro equal
        have number : seq = ack.baseSeq + serial (1 + i) := by
          have found : (other.slotAt seq).seq = ack.baseSeq + serial (1 + i) := by
            unfold slotAt
            rw [equal]
            exact sacked.carries
          rw [← found, same]
          exact carries.2.symm
        have near := sacked.inside
        rw [oldest, window32_of_mask mask, ← number] at near
        exact unreached (.inr ⟨i, bounded, sacked.set, number, near⟩)
  exact kept.1

/-- The scan frees the frame of a set bit inside the window. -/
theorem absent_of_scanned (aligned : tx.Aligned) {i : Nat} (bounded : i < sackBits - 1)
    (set : bit ack.bitmap i = true)
    (inside : ack.baseSeq + serial (1 + i) - tx.oldestAfter ack < tx.window32)
    (nowNs : UInt64) : (tx.onAck ack nowNs).1.Absent (ack.baseSeq + serial (1 + i)) := by
  obtain ⟨before, after, scanned⟩ := List.append_of_mem (List.mem_range.mpr bounded)
  have each : ∀ j ∈ before ++ i :: after, j < sackBits - 1 := by
    rw [← scanned]
    exact scanned_lt
  unfold onAck
  rw [scanned, List.foldl_append, List.foldl_cons]
  apply freeSacked_preserves (P := fun other =>
    other.Absent (ack.baseSeq + serial (1 + i))) _ after
    (fun j later => each j (List.mem_append_right before (List.mem_cons_of_mem i later)))
  · -- the pass at bit `i`, from a state that the earlier passes left aligned
    generalize arrived : before.foldl (freeSacked ack nowNs) _ = state
    have kept : state.1.Aligned ∧ state.1.oldest = tx.oldestAfter ack ∧
        state.1.mask = tx.mask := by
      rw [← arrived]
      apply freeSacked_preserves (P := fun other =>
        other.Aligned ∧ other.oldest = tx.oldestAfter ack ∧ other.mask = tx.mask) _ before
        (fun j earlier => each j (List.mem_append_left _ earlier))
      · exact ⟨aligned.advanced ack nowNs, advanced_oldest tx ack nowNs,
          advanced_mask tx ack nowNs⟩
      · rintro other j _ ⟨aligned, oldest, mask⟩ _
        exact ⟨aligned.release, oldest, mask⟩
    obtain ⟨aligned, oldest, mask⟩ := kept
    rcases freeSacked_cases nowNs state bounded with ⟨_, freed⟩ | ⟨unsacked, unchanged⟩
    · rw [freed]
      exact aligned.absent_release
    · rw [unchanged, aligned.absent_iff]
      rintro ⟨live, carries⟩
      apply unsacked
      refine ⟨set, ?_, carries, live⟩
      rw [oldest, window32_of_mask mask]
      exact inside
  · intro other j _ absent _
    exact absent.release

/-- What `onAck` frees: exactly the live frames its loops come past. -/
theorem onAck_absent_iff (aligned : tx.Aligned) (carries : tx.Carries seq) (nowNs : UInt64) :
    (tx.onAck ack nowNs).1.Absent seq ↔ tx.Reaches ack seq := by
  constructor
  · intro absent
    by_contra unreached
    have kept := onAck_slotAt aligned carries unreached nowNs
    apply ((aligned.onAck ack nowNs).absent_iff).mp absent
    unfold Carries
    rw [kept]
    exact carries
  · rintro (⟨inside, below⟩ | ⟨i, bounded, set, rfl, inside⟩)
    · exact absent_of_below aligned (.inr inside) nowNs below
    · exact absent_of_scanned aligned bounded set inside nowNs

theorem eq_add_serial_iff {base : UInt32} {i : Nat} (bounded : i < sackBits - 1) :
    seq = base + serial (1 + i) ↔ (seq - base).toNat = 1 + i := by
  unfold sackBits at bounded
  have boundSeq := seq.toNat_lt
  have boundBase := base.toNat_lt
  rw [← UInt32.toNat_inj, UInt32.toNat_add, UInt32.toNat_sub, toNat_serial]
  omega

/-- The two readings of the sender agree on a live frame other than the base: when the base
lies inside the window, and also when the frame comes after the base. -/
theorem reaches_iff_covers (aligned : tx.Aligned) (carries : tx.Carries seq)
    (apart : seq ≠ ack.baseSeq)
    (comparable : ack.baseSeq - tx.oldest < tx.window32 ∨
      tx.window ≤ 2 ^ 31 ∧ (seq - ack.baseSeq).toNat < 2 ^ 31) :
    tx.Reaches ack seq ↔ ack.covers seq = true := by
  have within := carries.inside aligned
  have distinct : (seq - ack.baseSeq).toNat ≠ 0 := by
    intro zero
    apply apart
    apply UInt32.toNat.inj
    have boundSeq := seq.toNat_lt
    have boundBase := ack.baseSeq.toNat_lt
    rw [UInt32.toNat_sub] at zero
    omega
  have small : tx.window ≤ 2 ^ 31 ∧ tx.window32.toNat = tx.window := by
    rcases tx.window32_cases with exact32 | ⟨large, zero⟩
    · exact exact32
    · rcases comparable with inside | ⟨bounded, _⟩
      · rw [zero] at inside
        exact absurd (UInt32.lt_iff_toNat_lt.mp inside) (Nat.not_lt_zero _)
      · omega
  rw [AckFrame.covers_iff]
  unfold Reaches oldestAfter Below
  by_cases inside : ack.baseSeq - tx.oldest < tx.window32
  · have near := UInt32.lt_iff_toNat_lt.mp inside
    simp only [inside, if_true, true_and]
    by_cases below : (seq - tx.oldest).toNat < (ack.baseSeq - tx.oldest).toNat
    · -- behind the base by less than a window
      have behind := toNat_sub_of_nearer below
      exact ⟨fun _ => .inl (by omega), fun _ => .inl below⟩
    · have ahead : (seq - ack.baseSeq).toNat =
          (seq - tx.oldest).toNat - (ack.baseSeq - tx.oldest).toNat :=
        toNat_sub_of_farther (Nat.le_of_not_lt below)
      have fits : seq - ack.baseSeq < tx.window32 := by
        rw [UInt32.lt_iff_toNat_lt]
        omega
      constructor
      · rintro (impossible | ⟨i, bounded, set, number, _⟩)
        · exact absurd impossible below
        · exact .inr (.inr ⟨i, bounded, set, (eq_add_serial_iff bounded).mp number⟩)
      · rintro (behind | none | ⟨i, bounded, set, distance⟩)
        · omega
        · exact absurd none distinct
        · exact .inr ⟨i, bounded, set, (eq_add_serial_iff bounded).mpr distance, fits⟩
  · have after : (seq - ack.baseSeq).toNat < 2 ^ 31 := (comparable.resolve_left inside).2
    have fits : seq - tx.oldest < tx.window32 := by
      rw [UInt32.lt_iff_toNat_lt]
      omega
    simp only [inside, if_false, false_and, false_or]
    constructor
    · rintro ⟨i, bounded, set, number, _⟩
      exact .inr (.inr ⟨i, bounded, set, (eq_add_serial_iff bounded).mp number⟩)
    · rintro (behind | none | ⟨i, bounded, set, distance⟩)
      · omega
      · exact absurd none distinct
      · exact ⟨i, bounded, set, (eq_add_serial_iff bounded).mpr distance, fits⟩

end Effect

end ReliableTx

namespace Reception

/-- A frame numbered `n` was answered in order or buffered. -/
def Accepted (state : Reception) (n : Int) : Prop :=
  ∃ offer ∈ state.offers, offer.number = n ∧ offer.answer.taken = true

theorem accepted_iff (state : Reception) (n : Int) (natural : 0 ≤ n) :
    state.Accepted n ↔ ∃ m : Nat, n = m ∧ (firstTaken state.offers m).isSome := by
  obtain ⟨k, rfl⟩ := Int.eq_ofNat_of_zero_le natural
  simp [Accepted, firstTaken, List.find?_isSome]

/-- In every run the acknowledgement a receiver builds covers, of the numbers within half a
turn of its next one, the accepted ones, the next one itself and those before 0.  A sender
frees by it exactly the covered ones of its live frames other than the base, as long as the
base lies inside its window or the frame comes after the base. -/
theorem ack_covers_and_frees (state : Reception) (reached : system.Reachable state)
    (rttSampleNs : UInt64) :
    (∀ n : Int, -2 ^ 31 ≤ n - state.trueNext → n - state.trueNext < 2 ^ 31 →
        ((state.rx.buildAck rttSampleNs).covers (UInt32.ofInt n) = true ↔
          n < 0 ∨ n = state.trueNext ∨ state.Accepted n)) ∧
      ∀ tx : ReliableTx, ReliableTx.system.Reachable tx → ∀ (seq : UInt32) (nowNs : UInt64),
        tx.Carries seq → seq ≠ state.rx.next →
          (state.rx.next - tx.oldest < tx.window32 ∨
            tx.window ≤ 2 ^ 31 ∧ (seq - state.rx.next).toNat < 2 ^ 31) →
          (¬(tx.onAck (state.rx.buildAck rttSampleNs) nowNs).1.Carries seq ↔
            (state.rx.buildAck rttSampleNs).covers seq = true) := by
  have faithful := faithful_of_reachable reached
  constructor
  · intro n notStale notAhead
    rw [faithful.tracks.covers_iff (by omega) (by omega)]
    rcases lt_or_ge n 0 with negative | natural
    · simp [negative]
    · rw [accepted_iff state n natural]
  · intro tx sent seq nowNs carries apart comparable
    have aligned := ReliableTx.aligned_of_reachable sent
    rw [← (aligned.onAck _ nowNs).absent_iff, ReliableTx.onAck_absent_iff aligned carries]
    exact ReliableTx.reaches_iff_covers aligned carries apart comparable

/-- Frame 0 was delivered, frame 1 is missing and frame 2 is buffered. -/
def oneMissing : Option Reception :=
  TransitionSystem.perform next start [.accept 0 (.single 10), .accept 2 (.single 12), .drain]

theorem oneMissing_covers_and_frees :
    ∃ state, oneMissing = some state ∧
      ((state.rx.buildAck 0).covers (UInt32.ofInt 3) = true ↔
        (3 : Int) < 0 ∨ (3 : Int) = state.trueNext ∨ state.Accepted 3) ∧
      (¬(ReliableTx.fullWindow.onAck (state.rx.buildAck 0) 50).1.Carries 2 ↔
        (state.rx.buildAck 0).covers 2 = true) := by
  obtain ⟨state, performed⟩ := Option.isSome_iff_exists.mp (show oneMissing.isSome by decide)
  have values : oneMissing.map (fun state => (state.trueNext, state.rx.next)) = some (1, 1) := by
    decide
  rw [performed] at values
  obtain ⟨trueNext, base⟩ := Prod.mk.inj (Option.some.inj values)
  have reached : system.Reachable state := TransitionSystem.reachable_of_perform rfl performed
  obtain ⟨covered, frees⟩ := ack_covers_and_frees state reached 0
  refine ⟨state, performed, covered 3 (by omega) (by omega), ?_⟩
  apply frees ReliableTx.fullWindow ReliableTx.fullWindow_reachable 2 50
  · exact ⟨by decide, by decide⟩
  · rw [base]
    decide
  · left
    rw [base]
    decide

/-- A fresh receiver has accepted nothing, yet its acknowledgement covers number 0; a sender
that holds frame 0 does not free it by that acknowledgement. -/
theorem fresh_ack_covers_base :
    system.Reachable start ∧ (start.rx.buildAck 0).covers (UInt32.ofInt 0) = true ∧
      ¬start.Accepted 0 ∧
      ReliableTx.system.Reachable ReliableTx.fullWindow ∧
      ReliableTx.fullWindow.Carries 0 ∧
      (ReliableTx.fullWindow.onAck (start.rx.buildAck 0) 50).1.Carries 0 := by
  refine ⟨.of_initial rfl, by decide, ?_, ReliableTx.fullWindow_reachable,
    ⟨by decide, by decide⟩, ⟨by decide, by decide⟩⟩
  rintro ⟨offer, offered, _⟩
  exact absurd offered List.not_mem_nil

end Reception

end Teleop.Link
