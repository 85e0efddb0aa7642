import Mathlib.Data.Int.ModEq
import Teleop.Lib.TransitionSystem
import Teleop.Link.Reliable

/-!
# Cumulative acknowledgements at the sender

Every live slot carries a sequence number of the window, at its own index.  An
acknowledgement that lies inside the window moves `oldest` to its base and frees
everything before it; one that acknowledges the whole window at once moves nothing.
-/

namespace Teleop.Link

open Teleop.Lib

namespace ReliableTx

/-- Live slots sit at the index of their sequence number, inside the window. -/
def Aligned (tx : ReliableTx) : Prop :=
  ∀ i, 0 < (tx.slots i).len →
    tx.index (tx.slots i).seq = i ∧ ((tx.slots i).seq - tx.oldest).toNat < tx.window

/-- No live slot carries `seq`. -/
def Absent (tx : ReliableTx) (seq : UInt32) : Prop :=
  ∀ i, 0 < (tx.slots i).len → (tx.slots i).seq ≠ seq

/-- As a 32-bit number the window is itself, or zero when it spans every number. -/
theorem window32_cases (tx : ReliableTx) :
    (tx.window ≤ 2 ^ 31 ∧ tx.window32.toNat = tx.window) ∨
      (2 ^ 32 ≤ tx.window ∧ tx.window32 = 0) := by
  obtain ⟨k, size⟩ := tx.powerOfTwo
  unfold window32 window
  rw [size]
  by_cases small : k ≤ 31
  · left
    have bound : 2 ^ k ≤ 2 ^ 31 := Nat.pow_le_pow_right (by decide) small
    refine ⟨bound, ?_⟩
    rw [toNat_serial]
    omega
  · right
    obtain ⟨j, rfl⟩ : ∃ j, k = 32 + j := ⟨k - 32, by omega⟩
    refine ⟨Nat.pow_le_pow_right (by decide) (by omega), ?_⟩
    apply UInt32.toNat.inj
    rw [toNat_serial, Nat.pow_add, Nat.mul_mod_right]
    rfl

/-- Two numbers of one window with the same slot are equal. -/
theorem eq_of_index_eq {tx : ReliableTx} {base m n : Nat}
    (same : tx.index (serial m) = tx.index (serial n))
    (aboveM : base ≤ m) (insideM : m < base + tx.window) (nearM : m < base + 2 ^ 32)
    (aboveN : base ≤ n) (insideN : n < base + tx.window) (nearN : n < base + 2 ^ 32) :
    m = n := by
  obtain ⟨k, size⟩ := tx.powerOfTwo
  have residues : m % 2 ^ 32 % 2 ^ k = n % 2 ^ 32 % 2 ^ k := by
    have indices := congrArg Fin.val same
    have mask : tx.mask = 2 ^ k - 1 := by omega
    unfold index at indices
    dsimp only at indices
    rwa [toNat_serial, toNat_serial, mask, Nat.and_two_pow_sub_one_eq_mod,
      Nat.and_two_pow_sub_one_eq_mod] at indices
  unfold window at insideM insideN
  rw [size] at insideM insideN
  by_cases small : k ≤ 32
  · have divides : 2 ^ k ∣ 2 ^ 32 := Nat.pow_dvd_pow 2 small
    rw [Nat.mod_mod_of_dvd m divides, Nat.mod_mod_of_dvd n divides] at residues
    apply Nat.ModEq.eq_of_abs_lt residues
    rw [abs_lt]
    constructor <;> omega
  · have bound : 2 ^ 32 ≤ 2 ^ k := Nat.pow_le_pow_right (by decide) (by omega)
    rw [Nat.mod_eq_of_lt (Nat.lt_of_lt_of_le (Nat.mod_lt m (by decide)) bound),
      Nat.mod_eq_of_lt (Nat.lt_of_lt_of_le (Nat.mod_lt n (by decide)) bound)] at residues
    omega

section Release

variable {tx : ReliableTx} {seq : UInt32}

theorem setSlot_slots (tx : ReliableTx) (i j : Fin (tx.mask + 1)) (slot : TxSlot) :
    (tx.setSlot i slot).slots j = if j = i then slot else tx.slots j :=
  Function.update_apply tx.slots i slot j

theorem release_slots (tx : ReliableTx) (seq : UInt32) (i : Fin (tx.mask + 1)) :
    (tx.release seq).slots i =
      if i = tx.index seq then (tx.slots i).free else tx.slots i := by
  unfold release
  rw [setSlot_slots]
  split
  · rename_i same
    rw [same]
  · rfl

/-- What is live after a release was live before, at another index. -/
theorem live_of_release {i : Fin (tx.mask + 1)} (live : 0 < ((tx.release seq).slots i).len) :
    i ≠ tx.index seq ∧ (tx.release seq).slots i = tx.slots i := by
  rw [release_slots] at live ⊢
  by_cases same : i = tx.index seq
  · rw [if_pos same] at live
    exact absurd live (Nat.lt_irrefl 0)
  · exact ⟨same, if_neg same⟩

theorem Aligned.release (aligned : Aligned tx) : Aligned (tx.release seq) := by
  intro i live
  obtain ⟨_, kept⟩ := live_of_release live
  rw [kept] at live ⊢
  exact aligned i live

/-- One pass of the cumulative loop. -/
theorem Aligned.dropOldest (aligned : Aligned tx) :
    Aligned { tx.release tx.oldest with oldest := tx.oldest + 1 } := by
  intro i live
  dsimp only at live ⊢
  obtain ⟨other, kept⟩ := live_of_release live
  rw [kept] at live ⊢
  obtain ⟨home, inside⟩ := aligned i live
  refine ⟨home, ?_⟩
  -- a live slot elsewhere is not the oldest one, so its distance shrinks by one
  have ahead : (tx.slots i).seq ≠ tx.oldest := by
    intro equal
    rw [equal] at home
    exact other home.symm
  change ((tx.slots i).seq - (tx.oldest + 1)).toNat < tx.window
  have shrunk := toNat_sub_add_one ahead
  omega

theorem Absent.release {other : UInt32} (absent : Absent tx seq) :
    Absent (tx.release other) seq := by
  intro i live
  obtain ⟨_, kept⟩ := live_of_release live
  rw [kept] at live ⊢
  exact absent i live

end Release

/-- Bit `i` of the bitmap acknowledges a live frame of the window. -/
structure Sacked (tx : ReliableTx) (ack : AckFrame) (i : Nat) : Prop where
  set : bit ack.bitmap i = true
  inside : ack.baseSeq + serial (1 + i) - tx.oldest < tx.window32
  carries : (tx.slots (tx.index (ack.baseSeq + serial (1 + i)))).seq =
    ack.baseSeq + serial (1 + i)
  live : 0 < (tx.slots (tx.index (ack.baseSeq + serial (1 + i)))).len

section OnAck

variable {P : ReliableTx → Prop} {ack : AckFrame} {tx : ReliableTx}

/-- What every pass of the cumulative loop keeps, the loop keeps. -/
theorem advance_preserves {baseSeq : UInt32} {nowNs : UInt64}
    (pass : ∀ tx : ReliableTx, P tx → baseSeq - tx.oldest ≠ 0 →
      baseSeq - tx.oldest < tx.window32 →
      P { tx.release tx.oldest with oldest := tx.oldest + 1 })
    (fuel : Nat) (rtt : Option UInt64) (holds : P tx) :
    P (advance baseSeq nowNs fuel tx rtt).1 := by
  induction fuel generalizing tx rtt with
  | zero => exact holds
  | succ fuel inductionHypothesis =>
      unfold advance
      dsimp only
      split
      · exact holds
      · rename_i going
        rw [not_or] at going
        apply inductionHypothesis
        exact pass tx holds going.1 (UInt32.not_le.mp going.2)

/-- One pass of the scan frees the frame of its bit, or changes nothing. -/
theorem freeSacked_cases (nowNs : UInt64) (state : ReliableTx × Option UInt64) {i : Nat}
    (inside : i < sackBits - 1) :
    (state.1.Sacked ack i ∧
        (freeSacked ack nowNs state i).1 = state.1.release (ack.baseSeq + serial (1 + i))) ∨
      (¬state.1.Sacked ack i ∧ (freeSacked ack nowNs state i).1 = state.1) := by
  have small : (UInt32.ofNat i).toNat = i := by
    rw [toNat_serial]
    unfold sackBits at inside
    omega
  have marked := and_mask_ne_zero_iff ack.bitmap (d := UInt32.ofNat i)
    (by rw [small]; unfold sackBits at inside; omega)
  rw [small] at marked
  unfold freeSacked
  dsimp only
  split
  · rename_i masked
    split
    · rename_i near
      split
      · rename_i found
        exact .inl ⟨⟨marked.mp masked, near, found.1, found.2⟩, rfl⟩
      · rename_i other
        exact .inr ⟨fun sacked => other ⟨sacked.carries, sacked.live⟩, rfl⟩
    · rename_i far
      exact .inr ⟨fun sacked => far sacked.inside, rfl⟩
  · rename_i unmasked
    exact .inr ⟨fun sacked => unmasked (marked.mpr sacked.set), rfl⟩

/-- What freeing one selectively acknowledged frame keeps, a scan of the bits keeps. -/
theorem freeSacked_preserves {nowNs : UInt64}
    (free : ∀ tx : ReliableTx, ∀ i < sackBits - 1, P tx → tx.Sacked ack i →
      P (tx.release (ack.baseSeq + serial (1 + i))))
    (bits : List Nat) (bounded : ∀ i ∈ bits, i < sackBits - 1)
    {state : ReliableTx × Option UInt64} (holds : P state.1) :
    P (bits.foldl (freeSacked ack nowNs) state).1 := by
  refine List.foldlRecOn (motive := fun state : ReliableTx × Option UInt64 => P state.1) _ _
    holds ?_
  intro state holds i scanned
  rcases freeSacked_cases nowNs state (bounded i scanned) with ⟨sacked, freed⟩ | ⟨_, unchanged⟩
  · rw [freed]
    exact free state.1 i (bounded i scanned) holds sacked
  · rw [unchanged]
    exact holds

theorem scanned_lt (i : Nat) (scanned : i ∈ List.range (sackBits - 1)) : i < sackBits - 1 :=
  List.mem_range.mp scanned

theorem onAck_preserves (nowNs : UInt64)
    (pass : ∀ tx : ReliableTx, P tx → ack.baseSeq - tx.oldest ≠ 0 →
      ack.baseSeq - tx.oldest < tx.window32 →
      P { tx.release tx.oldest with oldest := tx.oldest + 1 })
    (free : ∀ tx : ReliableTx, ∀ i < sackBits - 1, P tx → tx.Sacked ack i →
      P (tx.release (ack.baseSeq + serial (1 + i))))
    (holds : P tx) : P (tx.onAck ack nowNs).1 :=
  freeSacked_preserves free _ scanned_lt (advance_preserves pass _ _ holds)

theorem onAck_mask (tx : ReliableTx) (ack : AckFrame) (nowNs : UInt64) :
    (tx.onAck ack nowNs).1.mask = tx.mask := by
  apply onAck_preserves (P := fun other => other.mask = tx.mask) nowNs _ _ rfl
  · intro other same _ _
    exact same
  · intro other i _ same _
    exact same

theorem Aligned.onAck (aligned : Aligned tx) (ack : AckFrame)
    (nowNs : UInt64) : Aligned (tx.onAck ack nowNs).1 := by
  apply onAck_preserves nowNs _ _ aligned
  · intro tx aligned _ _
    exact aligned.dropOldest
  · intro tx i _ aligned _
    exact aligned.release

/-- Inside the window the cumulative loop reaches the base. -/
theorem advance_reaches {baseSeq : UInt32} {nowNs : UInt64} (fuel : Nat)
    (rtt : Option UInt64) (distance : (baseSeq - tx.oldest).toNat = fuel)
    (inside : baseSeq = tx.oldest ∨ baseSeq - tx.oldest < tx.window32) :
    (advance baseSeq nowNs fuel tx rtt).1.oldest = baseSeq := by
  induction fuel generalizing tx rtt with
  | zero =>
      rcases inside with equal | near
      · exact equal.symm
      · by_contra apart
        have closer := toNat_sub_add_one (Ne.symm apart)
        unfold advance at closer
        dsimp only at closer
        omega
  | succ fuel inductionHypothesis =>
      have apart : baseSeq ≠ tx.oldest := by
        intro equal
        rw [equal, UInt32.sub_self] at distance
        exact absurd distance (Nat.succ_ne_zero fuel).symm
      have near : baseSeq - tx.oldest < tx.window32 := inside.resolve_left apart
      have closer := toNat_sub_add_one apart
      have going : ¬(baseSeq - tx.oldest = 0 ∨ baseSeq - tx.oldest ≥ tx.window32) := by
        rw [not_or]
        refine ⟨?_, UInt32.not_le.mpr near⟩
        intro zero
        rw [zero] at distance
        exact absurd distance (Nat.succ_ne_zero fuel).symm
      unfold advance
      dsimp only
      rw [if_neg going]
      apply inductionHypothesis
      · change (baseSeq - (tx.oldest + 1)).toNat = fuel
        omega
      · right
        rw [UInt32.lt_iff_toNat_lt] at near ⊢
        change (baseSeq - (tx.oldest + 1)).toNat < tx.window32.toNat
        omega

/-- A base outside the window stops the loop at once. -/
theorem advance_of_outside {baseSeq : UInt32} {nowNs : UInt64} (fuel : Nat)
    (rtt : Option UInt64) (outside : ¬baseSeq - tx.oldest < tx.window32) :
    advance baseSeq nowNs fuel tx rtt = (tx, rtt) := by
  cases fuel with
  | zero => rfl
  | succ fuel =>
      unfold advance
      dsimp only
      rw [if_pos (.inr (UInt32.not_lt.mp outside))]

theorem onAck_oldest_of_inside {nowNs : UInt64}
    (inside : ack.baseSeq = tx.oldest ∨ ack.baseSeq - tx.oldest < tx.window32) :
    (tx.onAck ack nowNs).1.oldest = ack.baseSeq := by
  unfold onAck
  apply freeSacked_preserves (P := fun tx => tx.oldest = ack.baseSeq) _ _ scanned_lt
  · exact advance_reaches _ _ rfl inside
  · intro tx i _ reached _
    exact reached

theorem onAck_oldest_of_outside {nowNs : UInt64}
    (outside : ¬ack.baseSeq - tx.oldest < tx.window32) :
    (tx.onAck ack nowNs).1.oldest = tx.oldest := by
  unfold onAck
  rw [advance_of_outside _ _ outside]
  apply freeSacked_preserves (P := fun other => other.oldest = tx.oldest) _ _ scanned_lt rfl
  intro other i _ kept _
  exact kept

end OnAck

section Send

variable {tx : ReliableTx} {seq : UInt32}

/-- `send` refuses a number outside the window or already queued, and otherwise fills the
slot of the number. -/
theorem send_cases (tx : ReliableTx) (seq : UInt32) (payload : Payload) (nowNs : UInt64) :
    tx.send seq payload nowNs = (tx, .error ⟨seq⟩) ∨
      ((seq - tx.oldest).toNat < tx.window ∧
        ¬(0 < (tx.slots (tx.index seq)).len ∧ (tx.slots (tx.index seq)).seq = seq ∧
          (tx.slots (tx.index seq)).firstNs ≠ 0) ∧
        tx.send seq payload nowNs =
          (tx.setSlot (tx.index seq) ⟨seq, payload, nowNs, nowNs, 0⟩, .ok ())) := by
  unfold send
  dsimp only
  split
  · exact .inl rfl
  · rename_i inside
    split
    · exact .inl rfl
    · rename_i fresh
      exact .inr ⟨Nat.lt_of_not_le inside, fresh, rfl⟩

theorem Aligned.send (aligned : Aligned tx) (payload : Payload) (nowNs : UInt64) :
    Aligned (tx.send seq payload nowNs).1 := by
  rcases send_cases tx seq payload nowNs with refused | ⟨inside, _, filled⟩
  · rw [refused]
    exact aligned
  · rw [filled]
    intro (i : Fin (tx.mask + 1)) live
    dsimp only at live ⊢
    by_cases same : i = tx.index seq
    · rw [setSlot_slots, if_pos same]
      exact ⟨same.symm, inside⟩
    · rw [setSlot_slots, if_neg same] at live ⊢
      exact aligned i live

theorem Absent.send {other : UInt32} (absent : Absent tx seq) (different : other ≠ seq)
    (payload : Payload) (nowNs : UInt64) : Absent (tx.send other payload nowNs).1 seq := by
  rcases send_cases tx other payload nowNs with refused | ⟨_, _, filled⟩
  · rw [refused]
    exact absent
  · rw [filled]
    intro (i : Fin (tx.mask + 1)) live
    dsimp only at live ⊢
    by_cases same : i = tx.index other
    · rw [setSlot_slots, if_pos same]
      exact different
    · rw [setSlot_slots, if_neg same] at live ⊢
      exact absent i live

end Send

section Tick

variable {tx : ReliableTx}

/-- A retransmission changes no slot's number and payload. -/
theorem tick_slots (tx : ReliableTx) (nowNs rtoNs : UInt64) (i : Fin (tx.mask + 1)) :
    ((tx.tick nowNs rtoNs).1.slots i).seq = (tx.slots i).seq ∧
      ((tx.tick nowNs rtoNs).1.slots i).payload = (tx.slots i).payload ∧
      ((tx.tick nowNs rtoNs).1.slots i).firstNs = (tx.slots i).firstNs := by
  unfold tick
  dsimp only
  split
  · exact ⟨rfl, rfl, rfl⟩
  · exact ⟨rfl, rfl, rfl⟩

/-- Every frame sent by `tick` is the content of a live slot. -/
theorem exists_slot_of_tick {nowNs rtoNs : UInt64} {frame : UInt32 × Payload}
    (sent : frame ∈ (tx.tick nowNs rtoNs).2) :
    ∃ i, 0 < (tx.slots i).len ∧ frame = ((tx.slots i).seq, (tx.slots i).payload) := by
  unfold tick at sent
  obtain ⟨i, due, rfl⟩ := List.mem_map.mp sent
  refine ⟨i, ?_, rfl⟩
  have live := (List.mem_filter.mp due).2
  unfold overdue at live
  exact Nat.pos_of_ne_zero (of_decide_eq_true live).1

theorem tick_len (tx : ReliableTx) (nowNs rtoNs : UInt64) (i : Fin (tx.mask + 1)) :
    ((tx.tick nowNs rtoNs).1.slots i).len = (tx.slots i).len := by
  unfold TxSlot.len
  rw [(tick_slots tx nowNs rtoNs i).2.1]

theorem Aligned.tick (aligned : Aligned tx) (nowNs rtoNs : UInt64) :
    Aligned (tx.tick nowNs rtoNs).1 := by
  intro (i : Fin (tx.mask + 1)) live
  rw [tick_len] at live
  rw [(tick_slots tx nowNs rtoNs i).1]
  exact aligned i live

theorem Absent.tick {seq : UInt32} (absent : Absent tx seq) (nowNs rtoNs : UInt64) :
    Absent (tx.tick nowNs rtoNs).1 seq := by
  intro (i : Fin (tx.mask + 1)) live
  rw [tick_len] at live
  rw [(tick_slots tx nowNs rtoNs i).1]
  exact absent i live

end Tick

/-- The calls made on a sender. -/
inductive Call where
  | send (seq : UInt32) (payload : Payload) (nowNs : UInt64)
  | onAck (ack : AckFrame) (nowNs : UInt64)
  | tick (nowNs rtoNs : UInt64)

/-- The state a call leaves behind and the sequence numbers it retransmits. -/
def perform (tx : ReliableTx) : Call → ReliableTx × List UInt32
  | .send seq payload nowNs => ((tx.send seq payload nowNs).1, [])
  | .onAck ack nowNs => ((tx.onAck ack nowNs).1, [])
  | .tick nowNs rtoNs =>
      ((tx.tick nowNs rtoNs).1, (tx.tick nowNs rtoNs).2.map (·.1))

/-- Everything retransmitted while `calls` are made in order. -/
def emitted : ReliableTx → List Call → List UInt32
  | _, [] => []
  | tx, call :: rest => (tx.perform call).2 ++ emitted (tx.perform call).1 rest

def system : TransitionSystem ReliableTx Call :=
  .ofNext (fun tx => ∃ cfg, tx = new cfg) fun tx call => some (tx.perform call).1

theorem aligned_of_reachable {tx : ReliableTx} (reached : system.Reachable tx) :
    Aligned tx := by
  apply reached.invariant
  · rintro _ ⟨cfg, rfl⟩ i live
    exact absurd live (Nat.lt_irrefl 0)
  · intro tx call target aligned stepped
    cases stepped
    cases call with
    | send seq payload nowNs => exact aligned.send payload nowNs
    | onAck ack nowNs => exact aligned.onAck ack nowNs
    | tick nowNs rtoNs => exact aligned.tick nowNs rtoNs

theorem Absent.perform {tx : ReliableTx} {seq : UInt32} (absent : Absent tx seq) (call : Call)
    (unsent : ∀ payload nowNs, call ≠ .send seq payload nowNs) :
    Absent (tx.perform call).1 seq ∧ seq ∉ (tx.perform call).2 := by
  cases call with
  | send other payload nowNs =>
      have different : other ≠ seq := by
        rintro rfl
        exact unsent payload nowNs rfl
      exact ⟨absent.send different payload nowNs, List.not_mem_nil⟩
  | onAck ack nowNs =>
      refine ⟨?_, List.not_mem_nil⟩
      apply onAck_preserves (P := fun tx => Absent tx seq) nowNs _ _ absent
      · intro tx absent _ _
        exact absent.release
      · intro tx i _ absent _
        exact absent.release
  | tick nowNs rtoNs =>
      refine ⟨absent.tick nowNs rtoNs, ?_⟩
      intro sent
      obtain ⟨frame, emitted, carries⟩ := List.mem_map.mp sent
      obtain ⟨i, live, content⟩ := exists_slot_of_tick emitted
      rw [content] at carries
      exact absent i live carries

/-- A number that no slot carries is not retransmitted before it is sent again. -/
theorem Absent.not_emitted {tx : ReliableTx} {seq : UInt32} (absent : Absent tx seq)
    (calls : List Call) (unsent : ∀ payload nowNs, Call.send seq payload nowNs ∉ calls) :
    seq ∉ emitted tx calls := by
  induction calls generalizing tx with
  | nil => exact List.not_mem_nil
  | cons call rest inductionHypothesis =>
      obtain ⟨kept, silent⟩ := absent.perform call fun payload nowNs same =>
        unsent payload nowNs (same ▸ List.mem_cons_self)
      have later := inductionHypothesis kept fun payload nowNs sent =>
        unsent payload nowNs (List.mem_cons_of_mem call sent)
      unfold emitted
      rw [List.mem_append, not_or]
      exact ⟨silent, later⟩

/-- Before the base of `ack`: from `oldest` up to it. -/
def Below (tx : ReliableTx) (ack : AckFrame) (seq : UInt32) : Prop :=
  (seq - tx.oldest).toNat < (ack.baseSeq - tx.oldest).toNat

/-- The effect a cumulative acknowledgement is to have: `oldest` is its base, and nothing
below the base is live, counted as in flight, or ever retransmitted unless sent anew. -/
structure Acknowledged (tx : ReliableTx) (ack : AckFrame) (nowNs : UInt64) : Prop where
  oldest_eq : (tx.onAck ack nowNs).1.oldest = ack.baseSeq
  freed : ∀ seq, tx.Below ack seq → Absent (tx.onAck ack nowNs).1 seq
  uncounted : ∀ seq, tx.Below ack seq → ∀ i, (tx.onAck ack nowNs).1.counts i = true →
    ((tx.onAck ack nowNs).1.slots i).seq ≠ seq
  silent : ∀ seq, tx.Below ack seq → ∀ calls : List Call,
    (∀ payload later, Call.send seq payload later ∉ calls) →
      seq ∉ emitted (tx.onAck ack nowNs).1 calls

theorem absent_of_below {tx : ReliableTx} {ack : AckFrame} {seq : UInt32}
    (aligned : Aligned tx)
    (inside : ack.baseSeq = tx.oldest ∨ ack.baseSeq - tx.oldest < tx.window32)
    (nowNs : UInt64) (below : tx.Below ack seq) : Absent (tx.onAck ack nowNs).1 seq := by
  rintro i live rfl
  obtain ⟨_, within⟩ := aligned.onAck ack nowNs i live
  rw [onAck_oldest_of_inside inside] at within
  unfold window at within
  rw [onAck_mask] at within
  unfold Below at below
  have apart : ack.baseSeq ≠ tx.oldest := by
    intro equal
    rw [equal, UInt32.sub_self] at below
    exact absurd below (Nat.not_lt_zero _)
  have near := UInt32.lt_iff_toNat_lt.mp (inside.resolve_left apart)
  -- behind the base by less than a window is ahead of it by more than a window
  rcases tx.window32_cases with ⟨small, exact32⟩ | ⟨_, zero⟩
  · rw [toNat_sub_of_nearer below] at within
    rw [exact32] at near
    unfold window at small near
    omega
  · rw [zero] at near
    exact absurd near (Nat.not_lt_zero _)

/-- An acknowledgement has its effect exactly when its base is `oldest` itself or lies
strictly inside the window.  That of a full window, which the loop takes for a stale one,
has not. -/
theorem acknowledged_iff_inside (tx : ReliableTx) (reached : system.Reachable tx)
    (ack : AckFrame) (nowNs : UInt64) :
    Acknowledged tx ack nowNs ↔
      ack.baseSeq = tx.oldest ∨ ack.baseSeq - tx.oldest < tx.window32 := by
  have aligned := aligned_of_reachable reached
  constructor
  · intro acknowledged
    by_contra outside
    rw [not_or] at outside
    apply outside.1
    rw [← acknowledged.oldest_eq]
    exact onAck_oldest_of_outside outside.2
  · intro inside
    have freed := fun seq (below : tx.Below ack seq) =>
      absent_of_below aligned inside nowNs below
    refine ⟨onAck_oldest_of_inside inside, freed, ?_, ?_⟩
    · intro seq below i counted
      exact freed seq below i (of_decide_eq_true counted).1
    · intro seq below calls unsent
      exact (freed seq below).not_emitted calls unsent

/-- The calls that fill a window of four. -/
def fourSends : List Call :=
  (List.range 4).map fun n => .send (serial n) ⟨[UInt8.ofNat n], Nat.le_of_ble_eq_true rfl⟩ 1

/-- A sender with a window of four frames, all sent and none acknowledged. -/
def fullWindow : ReliableTx :=
  fourSends.foldl (fun tx call => (tx.perform call).1) (new { window := 4 })

theorem reachable_foldl_perform {tx : ReliableTx} (reached : system.Reachable tx)
    (calls : List Call) : system.Reachable (calls.foldl (fun tx call => (tx.perform call).1) tx) := by
  induction calls generalizing tx with
  | nil => exact reached
  | cons call rest inductionHypothesis => exact inductionHypothesis (reached.step rfl)

theorem fullWindow_reachable : system.Reachable fullWindow :=
  reachable_foldl_perform (.of_initial ⟨_, rfl⟩) fourSends

/-- Acknowledging the first three of the four frames frees them. -/
theorem fullWindow_acknowledged_three :
    Acknowledged fullWindow ⟨3, 0, 0⟩ 50 :=
  (acknowledged_iff_inside fullWindow fullWindow_reachable ⟨3, 0, 0⟩ 50).mpr (by decide)

/-- Acknowledging all four at once frees none: the sender stays where it was. -/
theorem fullWindow_not_acknowledged :
    system.Reachable fullWindow ∧
      (AckFrame.baseSeq ⟨4, 0, 0⟩ - fullWindow.oldest).toNat ≤ fullWindow.window ∧
      fullWindow.inFlight = 4 ∧ (fullWindow.onAck ⟨4, 0, 0⟩ 50).1.inFlight = 4 ∧
      ¬Acknowledged fullWindow ⟨4, 0, 0⟩ 50 := by
  refine ⟨fullWindow_reachable, by decide, by decide, by decide, ?_⟩
  intro acknowledged
  exact absurd acknowledged.oldest_eq (by decide)

end ReliableTx

end Teleop.Link
