import Teleop.Lib.FreeList
import Teleop.Lib.TransitionSystem
import Teleop.Link.Mux

/-!
# The io_uring transmit queue

Datagrams are encoded into slots that the kernel reads in place.  A slot is free, staged for
the next submission, or in flight until its completion is reaped; free slots are threaded
through their `nextFree` links.
-/

namespace Teleop.Link

open Teleop.Lib

inductive StageError where
  | busy
  deriving DecidableEq, Repr

/-- What a `sockaddr_storage` holds: it starts as zeros. -/
inductive SockAddr where
  | unspecified
  | inet (port : UInt16) (bits : UInt32)
  | inet6 (port : UInt16) (high low : UInt64)
  deriving DecidableEq, Repr

/-- Address of a peer and its length in bytes; flow label and scope are not written. -/
def fillSockaddr (peer : SocketAddr) : SockAddr × UInt32 :=
  match peer.ip with
  | .v4 bits => (.inet peer.port bits, 16)
  | .v6 high low _ _ => (.inet6 peer.port high low, 28)

inductive SlotState where
  | free
  | staged
  | inFlight
  deriving DecidableEq, Repr

/-- What the kernel reads of a slot. -/
structure SlotContents where
  buf : Vector UInt8 maxDatagram
  len : Nat
  addr : SockAddr
  addrLen : UInt32
  deriving DecidableEq

structure UringSlot extends SlotContents where
  state : SlotState
  nextFree : UInt16

/-- An entry of the submission queue.  It refers to the memory of its slot; `datagram` is what
was there when it was pushed. -/
structure Submission where
  userData : UInt64
  datagram : SlotContents

structure Completion where
  userData : UInt64
  result : Int32

/-- `NONE`, the link that ends the free list. -/
def noSlot : UInt16 := 0xFFFF

structure UringTx where
  slots : List UringSlot
  freeHead : UInt16
  staged : Nat
  inflight : Nat

namespace UringTx

/-- A queue whose ring was set up: slot `i` links to `i + 1`, the tail to none. -/
def new (slots : Nat) : UringTx where
  slots := (List.range (max slots 1)).map fun i => {
    state := .free
    buf := Vector.replicate maxDatagram 0
    len := 0
    addr := .unspecified
    addrLen := 0
    nextFree := if i + 1 < max slots 1 then .ofNat (i + 1) else noSlot }
  freeHead := 0
  staged := 0
  inflight := 0

/-- Slots neither staged nor in flight; `none` if a subtraction underflows. -/
def available (tx : UringTx) : Option Nat :=
  if tx.staged ≤ tx.slots.length ∧ tx.inflight ≤ tx.slots.length - tx.staged then
    some (tx.slots.length - tx.staged - tx.inflight)
  else none

/-- Claim a free slot and let `fill` encode the datagram into it; `none` if the index of the
slot is out of bounds. -/
def stage (tx : UringTx) (peer : SocketAddr)
    (fill : Vector UInt8 maxDatagram → Vector UInt8 maxDatagram × Nat) :
    Option (Except StageError UringTx) :=
  if tx.freeHead = noSlot then some (.error .busy)
  else
    match tx.slots[tx.freeHead.toNat]? with
    | none => none
    | some slot =>
        some (.ok { tx with
          freeHead := slot.nextFree
          slots := tx.slots.set tx.freeHead.toNat { slot with
            buf := (fill slot.buf).1
            len := (fill slot.buf).2
            addr := (fillSockaddr peer).1
            addrLen := (fillSockaddr peer).2
            state := .staged }
          staged := tx.staged + 1 })

/-- The submission loop: the slots, what was pushed so far, and whether the queue was full. -/
structure Submitting where
  slots : List UringSlot
  entries : List Submission
  full : Bool

/-- One pass of the loop, over a submission queue with room for `room` entries. -/
def push (room : Nat) (loop : Submitting) (idx : Nat) : Submitting :=
  if loop.full then loop
  else
    match loop.slots[idx]? with
    | none => loop
    | some slot =>
        if slot.state ≠ .staged then loop
        else if loop.entries.length = room then { loop with full := true }
        else { loop with
          slots := loop.slots.set idx { slot with state := .inFlight }
          entries := loop.entries ++ [⟨.ofNat idx, slot.toSlotContents⟩] }

def pushStaged (tx : UringTx) (room : Nat) : Submitting :=
  (List.range tx.slots.length).foldl (push room) ⟨tx.slots, [], false⟩

/-- Push an entry for each staged slot until the queue is full, and tell the kernel, which
answers `submit`; `none` if `staged` underflows. -/
def submitStaged (tx : UringTx) (room : Nat) (submit : Except Int32 Unit) :
    Option (UringTx × List Submission × Except Int32 Nat) :=
  let loop := tx.pushStaged room
  let pushed := loop.entries.length
  if pushed ≤ tx.staged then
    some ({ tx with
        slots := loop.slots
        staged := tx.staged - pushed
        inflight := tx.inflight + pushed },
      loop.entries,
      if pushed > 0 then submit.map fun _ => pushed else .ok 0)
  else none

/-- One completion: its slot goes to the front of the free list. -/
def complete (tx : UringTx) (cqe : Completion) : UringTx :=
  match tx.slots[cqe.userData.toNat]? with
  | none => { tx with inflight := tx.inflight - 1 }
  | some slot => { tx with
      slots := tx.slots.set cqe.userData.toNat { slot with
        state := .free
        nextFree := tx.freeHead }
      freeHead := .ofNat cqe.userData.toNat
      inflight := tx.inflight - 1 }

/-- Reap completions: the queue, the errors reported and how many there were. -/
def reap (tx : UringTx) (completions : List Completion) : UringTx × List Int32 × Nat :=
  (completions.foldl complete tx, (completions.map (·.result)).filter (· < 0),
    completions.length)

end UringTx

/-- A queue and the submissions that the kernel has not completed. -/
structure UringSystem where
  tx : UringTx
  outstanding : List Submission

inductive UringAction where
  | stage (peer : SocketAddr) (fill : Vector UInt8 maxDatagram → Vector UInt8 maxDatagram × Nat)
  | submitStaged (room : Nat) (submit : Except Int32 Unit)
  | reap (completions : List Completion)

/-- One call.  The kernel completes what was submitted, each submission once and in any
order. -/
inductive UringStep : UringSystem → UringAction → UringSystem → Prop
  | staged {state : UringSystem} {peer fill tx} :
      state.tx.stage peer fill = some (.ok tx) →
      UringStep state (.stage peer fill) ⟨tx, state.outstanding⟩
  | busy {state : UringSystem} {peer fill error} :
      state.tx.stage peer fill = some (.error error) →
      UringStep state (.stage peer fill) state
  | submitted {state : UringSystem} {room submit tx entries result} :
      state.tx.submitStaged room submit = some (tx, entries, result) →
      UringStep state (.submitStaged room submit) ⟨tx, state.outstanding ++ entries⟩
  | reaped {state : UringSystem} {completions : List Completion}
      {completed remaining : List Submission} :
      state.outstanding.Perm (completed ++ remaining) →
      completions.map (·.userData) = completed.map (·.userData) →
      UringStep state (.reap completions) ⟨(state.tx.reap completions).1, remaining⟩

/-- A queue of so many slots, as it is created. -/
def uring (slots : Nat) : TransitionSystem UringSystem UringAction where
  initial state := state = ⟨.new slots, []⟩
  step := UringStep

end Teleop.Link
