import Teleop.Analytics.FdrWriter
import Teleop.Ring.SpscFifo

/-!
# The recorder and its storage thread

The producer records into the ring and at last stops the recorder; the storage thread drains
the ring, looks at the stop flag when it found nothing, and closes the file.  Their accesses
to the cursors, the slots and the flag interleave arbitrarily.
-/

namespace Teleop.Analytics

open Teleop.Lib Teleop.Ring FdrEntry

/-- How far the storage thread has come: in a drain that has written `n` frames, with a
popped frame to write, about to look at the flag, at the end marker, or done. -/
inductive Storage (E : Type) where
  | draining (n : Nat)
  | writing (n : Nat) (e : FdrEntry)
  | checking
  | closing
  | finished (result : Except E UInt64)

/-- A drain found nothing, and the flag is looked at next or has been seen. -/
def Storage.Through : Storage E → Prop
  | .checking | .closing | .finished (.ok _) => True
  | _ => False

/-- The storage thread will close the file without another pop. -/
def Storage.Committed : Storage E → Prop
  | .checking | .closing | .finished _ => True
  | _ => False

/-- The ring, the stop flag and the file with the storage thread; `returned` is what
`stop_and_join` has returned. -/
structure Recorder (B E : Type) where
  ring : Threads.State FdrEntry
  stop : Bool
  storage : Storage E
  file : DirectFile B
  returned : Option (Except E UInt64)

namespace Recorder

inductive Action where
  | tryRecord (kind : RecordKind) (payload : List UInt8) (timestampNs : UInt64)
  /-- The next access of the push in progress. -/
  | producer
  /-- The next step of the storage thread. -/
  | storage
  /-- The store with which `stop_and_join` begins. -/
  | stop
  /-- `stop_and_join` returns. -/
  | join

variable {B E : Type} (backend : Backend B E) (layout : Threads.Layout)

/-- `Recorder::open`: an empty ring and a new file. -/
def openRecorder (memory : AlignedBuf) : Recorder B E where
  ring := Threads.startAt 0
  stop := false
  storage := .draining 0
  file := .openFile backend memory
  returned := none

/-- Where a pop leads: a frame is written, and a drain that found nothing at all leads to
the flag. -/
def afterPop (n : Nat) : Option (Threads.Return FdrEntry) → Storage E
  | some (.popped (some e)) => .writing n e
  | some (.popped none) => if n = 0 then .checking else .draining 0
  | _ => .draining n

/-- `FdrWriter::run`. -/
def storageStep (rec : Recorder B E) : Option (Recorder B E) :=
  match rec.storage with
  | .draining n =>
      match rec.ring.consumer with
      | .idle => (Threads.next layout rec.ring .pop).map fun ring => { rec with ring := ring }
      | _ => (Threads.next layout rec.ring .consumer).map fun ring =>
          { rec with ring := ring, storage := afterPop n ring.output }
  | .writing n e =>
      match rec.file.write backend e.bytesOf with
      | .ok file => some { rec with file := file, storage := .draining (n + 1) }
      | .error e => some { rec with storage := .finished (.error e) }
  | .checking => some { rec with storage := if rec.stop then .closing else .draining 0 }
  | .closing =>
      match FdrWriter.close backend rec.file with
      | .ok file => some { rec with file := file, storage := .finished (.ok file.written) }
      | .error e => some { rec with storage := .finished (.error e) }
  | .finished _ => none

/-- The producer makes one call at a time, and `stop_and_join` takes the recorder away. -/
def next (rec : Recorder B E) : Action → Option (Recorder B E)
  | .tryRecord kind payload timestampNs =>
      match rec.stop, rec.ring.producer, FdrEntry.new kind payload timestampNs with
      | false, .idle, .ok e =>
          (Threads.next layout rec.ring (.push e)).map fun ring => { rec with ring := ring }
      | false, .idle, .error _ => some rec
      | _, _, _ => none
  | .producer =>
      (Threads.next layout rec.ring .producer).map fun ring => { rec with ring := ring }
  | .storage => storageStep backend layout rec
  | .stop =>
      match rec.stop, rec.ring.producer with
      | false, .idle => some { rec with stop := true }
      | _, _ => none
  | .join =>
      match rec.stop, rec.storage, rec.returned with
      | true, .finished result, none => some { rec with returned := some result }
      | _, _, _ => none

/-- All interleavings of the producer and the storage thread. -/
def threads (memory : AlignedBuf) : TransitionSystem (Recorder B E) Action :=
  .ofNext (· = openRecorder backend memory) (next backend layout)

/-- What a step finds and does. -/
inductive Steps (rec : Recorder B E) : Action → Recorder B E → Prop
  | tooLarge {kind payload timestampNs} : rec.stop = false →
      Steps rec (.tryRecord kind payload timestampNs) rec
  | push {kind payload timestampNs e ring} : rec.stop = false →
      Threads.next layout rec.ring (.push e) = some ring →
      Steps rec (.tryRecord kind payload timestampNs) { rec with ring := ring }
  | producer {ring} : Threads.next layout rec.ring .producer = some ring →
      Steps rec .producer { rec with ring := ring }
  | startPop {n ring} : rec.storage = .draining n →
      Threads.next layout rec.ring .pop = some ring → Steps rec .storage { rec with ring := ring }
  | pop {n ring} : rec.storage = .draining n →
      Threads.next layout rec.ring .consumer = some ring →
      Steps rec .storage { rec with ring := ring, storage := afterPop n ring.output }
  | write {n e file} : rec.storage = .writing n e →
      rec.file.write backend e.bytesOf = .ok file →
      Steps rec .storage { rec with file := file, storage := .draining (n + 1) }
  | check : rec.storage = .checking →
      Steps rec .storage { rec with storage := if rec.stop then .closing else .draining 0 }
  | close {file} : rec.storage = .closing → FdrWriter.close backend rec.file = .ok file →
      Steps rec .storage { rec with file := file, storage := .finished (.ok file.written) }
  | fails {e} : (∃ n frame, rec.storage = .writing n frame) ∨ rec.storage = .closing →
      Steps rec .storage { rec with storage := .finished (.error e) }
  | stop : rec.stop = false → rec.ring.producer = .idle → Steps rec .stop { rec with stop := true }
  | join {result} : rec.stop = true → rec.storage = .finished result → rec.returned = none →
      Steps rec .join { rec with returned := some result }

variable {backend layout} {rec target : Recorder B E}

theorem steps_of_storageStep (stepped : storageStep backend layout rec = some target) :
    Steps backend layout rec .storage target := by
  unfold storageStep at stepped
  split at stepped
  · rename_i stage
    split at stepped
    · obtain ⟨ring, popped, rfl⟩ := Option.map_eq_some_iff.mp stepped
      exact .startPop stage popped
    · obtain ⟨ring, popped, rfl⟩ := Option.map_eq_some_iff.mp stepped
      exact .pop stage popped
  · rename_i stage
    split at stepped <;> cases stepped
    · rename_i wrote
      exact .write stage wrote
    · exact .fails (.inl ⟨_, _, stage⟩)
  · rename_i stage
    cases stepped
    exact .check stage
  · rename_i stage
    split at stepped <;> cases stepped
    · rename_i closed
      exact .close stage closed
    · exact .fails (.inr stage)
  · cases stepped

theorem steps_of_next {action : Action} (stepped : next backend layout rec action = some target) :
    Steps backend layout rec action target := by
  cases action with
  | tryRecord kind payload timestampNs =>
      simp only [next] at stepped
      split at stepped
      · rename_i running _ _
        obtain ⟨ring, pushed, rfl⟩ := Option.map_eq_some_iff.mp stepped
        exact .push running pushed
      · rename_i running _ _
        cases stepped
        exact .tooLarge running
      · cases stepped
  | producer =>
      obtain ⟨ring, produced, rfl⟩ := Option.map_eq_some_iff.mp stepped
      exact .producer produced
  | storage => exact steps_of_storageStep stepped
  | stop =>
      simp only [next] at stepped
      split at stepped <;> cases stepped
      rename_i running idle
      exact .stop running idle
  | join =>
      simp only [next] at stepped
      split at stepped <;> cases stepped
      rename_i stopped done fresh
      exact .join stopped done fresh

end Recorder

end Teleop.Analytics
