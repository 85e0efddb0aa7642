import Teleop.Lib.Word
import Teleop.Ring.Spsc
import Mathlib.Data.List.FinRange
import Mathlib.Logic.Function.Basic

/-!
# The reliable control channel

Selective repeat with fixed retention.  The sender keeps each frame until it is
acknowledged and retransmits on a timer; the receiver reorders within 32 frames
and acknowledges cumulatively with a bitmap of early arrivals.  Sequence
numbers are 32-bit and wrap.
-/

namespace Teleop.Link

open Teleop.Lib Teleop.Ring

/-- Largest retained or rebuffered payload of a frame. -/
def maxReliablePayload : Nat := 256

/-- Payloads that pass the length assertions of `send` and `accept`. -/
abbrev Payload := { bytes : List UInt8 // bytes.length ≤ maxReliablePayload }

def Payload.empty : Payload := ⟨[], Nat.zero_le _⟩

/-- A payload of one byte. -/
def Payload.single (b : UInt8) : Payload := ⟨[b], show 1 ≤ maxReliablePayload by decide⟩

/-- Width of the reorder window, one bit for each frame. -/
def sackBits : Nat := 32

/-- Wire form of one acknowledgement: all sequences before `baseSeq`, and bit `i` of the
bitmap for sequence `baseSeq + 1 + i`. -/
structure AckFrame where
  baseSeq : UInt32
  bitmap : UInt32
  rttSampleNs : UInt64
  deriving DecidableEq, Repr

namespace AckFrame

/-- `covers` as the sender-side helper computes it. -/
def covers (ack : AckFrame) (seq : UInt32) : Bool :=
  let diff := seq - ack.baseSeq
  if diff.toNat > (2 ^ 32 - 1) / 2 then true
  else if diff = 0 then true
  else if diff.toNat ≤ 31 then ack.bitmap &&& (1 <<< (diff - 1)) != 0
  else false

end AckFrame

structure ReliableConfig where
  window : Nat := 128
  rtoNs : UInt64 := 10000000
  maxResends : UInt32 := 200

/-- The window has no room for this sequence, or already queues it. -/
structure TxFull where
  seq : UInt32
  deriving DecidableEq, Repr

/-- A retention slot; `len` of the source is the length of the payload, 0 when free. -/
structure TxSlot where
  seq : UInt32
  payload : Payload
  firstNs : UInt64
  lastNs : UInt64
  resends : UInt32

def TxSlot.len (slot : TxSlot) : Nat := slot.payload.val.length

def TxSlot.free (slot : TxSlot) : TxSlot := { slot with payload := .empty, firstNs := 0 }

/-- Selective-repeat sender: `mask + 1` slots, a power of two, and the lowest sequence that
may be unacknowledged. -/
structure ReliableTx where
  mask : Nat
  slots : Fin (mask + 1) → TxSlot
  oldest : UInt32
  powerOfTwo : ∃ k, mask + 1 = 2 ^ k

theorem exists_nextPowerOfTwo (n : Nat) : ∃ k, max (nextPowerOfTwo n) 1 = 2 ^ k := by
  unfold nextPowerOfTwo
  split
  · exact ⟨0, rfl⟩
  · split
    · exact ⟨_, Nat.max_eq_left Nat.one_le_two_pow⟩
    · exact ⟨0, rfl⟩

namespace ReliableTx

/-- A sender whose window is rounded up to a power of two, at least 1. -/
def new (cfg : ReliableConfig) : ReliableTx where
  mask := max (nextPowerOfTwo cfg.window) 1 - 1
  slots i := ⟨UInt32.ofNat i, .empty, 0, 0, 0⟩
  oldest := 0
  powerOfTwo := by
    obtain ⟨k, value⟩ := exists_nextPowerOfTwo cfg.window
    exact ⟨k, by rw [← value]; omega⟩

/-- Window size in frames, `slots.len()`. -/
def window (tx : ReliableTx) : Nat := tx.mask + 1

/-- `slots.len() as u32`. -/
def window32 (tx : ReliableTx) : UInt32 := UInt32.ofNat tx.window

/-- `(seq as usize) & self.mask`. -/
def index (tx : ReliableTx) (seq : UInt32) : Fin (tx.mask + 1) :=
  ⟨seq.toNat &&& tx.mask, Nat.lt_succ_of_le Nat.and_le_right⟩

def setSlot (tx : ReliableTx) (i : Fin (tx.mask + 1)) (slot : TxSlot) : ReliableTx :=
  { tx with slots := Function.update tx.slots i slot }

/-- `len = 0; first_ns = 0` on the slot of `seq`. -/
def release (tx : ReliableTx) (seq : UInt32) : ReliableTx :=
  tx.setSlot (tx.index seq) (tx.slots (tx.index seq)).free

/-- The slots that `in_flight` counts. -/
def counts (tx : ReliableTx) (i : Fin (tx.mask + 1)) : Bool :=
  decide (0 < (tx.slots i).len ∧ (tx.slots i).seq - tx.oldest < tx.window32)

/-- Frames currently retained and not acknowledged. -/
def inFlight (tx : ReliableTx) : Nat := (List.finRange (tx.mask + 1)).countP tx.counts

/-- Retains `payload` under `seq`. -/
def send (tx : ReliableTx) (seq : UInt32) (payload : Payload) (nowNs : UInt64) :
    ReliableTx × Except TxFull Unit :=
  if (seq - tx.oldest).toNat ≥ tx.window then (tx, .error ⟨seq⟩)
  else
    let slot := tx.slots (tx.index seq)
    if 0 < slot.len ∧ slot.seq = seq ∧ slot.firstNs ≠ 0 then (tx, .error ⟨seq⟩)
    else (tx.setSlot (tx.index seq) ⟨seq, payload, nowNs, nowNs, 0⟩, .ok ())

/-- The RTT sample of a freed slot, unless an older freed frame gave one already. -/
def sampleRtt (rtt : Option UInt64) (slot : TxSlot) (nowNs : UInt64) : Option UInt64 :=
  if rtt.isNone ∧ 0 < slot.len ∧ slot.firstNs ≠ 0 then some (saturatingSub nowNs slot.firstNs)
  else rtt

/-- The cumulative loop of `on_ack`: advance `oldest` towards `base_seq`.  Every pass
brings them one closer, so the initial distance is enough fuel. -/
def advance (baseSeq : UInt32) (nowNs : UInt64) :
    (fuel : Nat) → ReliableTx → Option UInt64 → ReliableTx × Option UInt64
  | 0, tx, rtt => (tx, rtt)
  | fuel + 1, tx, rtt =>
      let diff := baseSeq - tx.oldest
      if diff = 0 ∨ diff ≥ tx.window32 then (tx, rtt)
      else
        advance baseSeq nowNs fuel { tx.release tx.oldest with oldest := tx.oldest + 1 }
          (sampleRtt rtt (tx.slots (tx.index tx.oldest)) nowNs)

/-- Free the frame of SACK bit `i` when it lies inside the window. -/
def freeSacked (ack : AckFrame) (nowNs : UInt64) (state : ReliableTx × Option UInt64) (i : Nat) :
    ReliableTx × Option UInt64 :=
  let (tx, rtt) := state
  if ack.bitmap &&& (1 <<< UInt32.ofNat i) ≠ 0 then
    let seq := ack.baseSeq + UInt32.ofNat (1 + i)
    if seq - tx.oldest < tx.window32 then
      let slot := tx.slots (tx.index seq)
      if slot.seq = seq ∧ 0 < slot.len then (tx.release seq, sampleRtt rtt slot nowNs)
      else (tx, rtt)
    else (tx, rtt)
  else (tx, rtt)

/-- Applies an acknowledgement; returns an RTT sample of the oldest frame it freed. -/
def onAck (tx : ReliableTx) (ack : AckFrame) (nowNs : UInt64) : ReliableTx × Option UInt64 :=
  (List.range (sackBits - 1)).foldl (freeSacked ack nowNs)
    (advance ack.baseSeq nowNs (ack.baseSeq - tx.oldest).toNat tx none)

/-- A live frame whose retransmission timer has run out. -/
def overdue (nowNs rtoNs : UInt64) (slot : TxSlot) : Bool :=
  decide (slot.len ≠ 0 ∧ slot.firstNs ≠ 0 ∧ saturatingSub nowNs slot.lastNs ≥ rtoNs)

/-- Retransmits every overdue frame in slot order; returns the frames sent. -/
def tick (tx : ReliableTx) (nowNs rtoNs : UInt64) : ReliableTx × List (UInt32 × Payload) :=
  ({ tx with
      slots := fun i =>
        if overdue nowNs rtoNs (tx.slots i) then
          { tx.slots i with lastNs := nowNs, resends := (tx.slots i).resends + 1 }
        else tx.slots i },
    ((List.finRange (tx.mask + 1)).filter fun i => overdue nowNs rtoNs (tx.slots i)).map
      fun i => ((tx.slots i).seq, (tx.slots i).payload))

/-- Highest resend count among live frames. -/
def maxResends (tx : ReliableTx) : UInt32 :=
  (List.finRange (tx.mask + 1)).foldl
    (fun best i =>
      if 0 < (tx.slots i).len then max best (tx.slots i).resends else best) 0

end ReliableTx

/-- What `accept` decided about a frame. -/
inductive Accept where
  | inOrder
  | buffered
  | duplicate
  | overflow
  deriving DecidableEq, Repr

/-- The frame was copied into the reorder buffer. -/
def Accept.taken : Accept → Bool
  | .inOrder | .buffered => true
  | .duplicate | .overflow => false

/-- Selective-repeat receiver: the next sequence, the bitmap and the reorder slots. -/
structure ReliableRx where
  next : UInt32
  map : UInt32
  slots : Fin sackBits → Payload

namespace ReliableRx

def new : ReliableRx where
  next := 0
  map := 0
  slots _ := .empty

/-- Offers one frame. -/
def accept (rx : ReliableRx) (seq : UInt32) (payload : Payload) : ReliableRx × Accept :=
  let diff := seq - rx.next
  if diff.toNat > (2 ^ 32 - 1) / 2 then (rx, .duplicate) -- older than the cumulative point
  else if inside : diff.toNat < sackBits then
    if rx.map &&& (1 <<< diff) ≠ 0 then (rx, .duplicate)
    else
      ({ rx with
          slots := Function.update rx.slots ⟨diff.toNat, inside⟩ payload
          map := rx.map ||| (1 <<< diff) },
        if diff = 0 then .inOrder else .buffered)
  else (rx, .overflow)

/-- One pass of `drain`: deliver slot 0 and shift the window down one slot. -/
def shift (rx : ReliableRx) : ReliableRx where
  next := rx.next + 1
  map := rx.map >>> 1
  slots i := if inside : i.val + 1 < sackBits then rx.slots ⟨i.val + 1, inside⟩ else .empty

/-- The drain loop; a window of 32 bits is empty after 32 passes. -/
def drainLoop : (fuel : Nat) → ReliableRx → ReliableRx × List (UInt32 × Payload)
  | 0, rx => (rx, [])
  | fuel + 1, rx =>
      if rx.map &&& 1 ≠ 0 then
        let (final, rest) := drainLoop fuel rx.shift
        (final, (rx.next, rx.slots ⟨0, by decide⟩) :: rest)
      else (rx, [])

/-- Delivers every contiguous frame, starting with the one at `next`. -/
def drain (rx : ReliableRx) : ReliableRx × List (UInt32 × Payload) := drainLoop sackBits rx

/-- The acknowledgement of the current receive state. -/
def buildAck (rx : ReliableRx) (rttSampleNs : UInt64) : AckFrame where
  baseSeq := rx.next
  bitmap := rx.map >>> 1
  rttSampleNs := rttSampleNs

end ReliableRx

end Teleop.Link
