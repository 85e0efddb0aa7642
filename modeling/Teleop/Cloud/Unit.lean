import Mathlib.Data.List.AList
import Teleop.Core.Mode
import Teleop.Link.Crc
import Teleop.Link.Mesh
import Teleop.Link.Mux
import Teleop.Ring.Spsc

/-!
# The session of one unit

What the fleet keeps for a connected unit: its address and mode, the counter of its
commands, the recorder of the session and the fan-out to subscribers.  Recorders and
the transport are trait objects, here types with the operations of the trait.  A hash
map iterates in an order of its own; here the entry written last comes first.
-/

namespace Teleop.Cloud

open Teleop.Core Teleop.Link Teleop.Ring

/-- A hash map, at most one value a key. -/
abbrev HashMap (K V : Type) [DecidableEq K] := AList fun _ : K => V

def HashMap.values {K V : Type} [DecidableEq K] (map : HashMap K V) : List V :=
  map.entries.map fun entry => entry.2

section Display

def hexDigits (n : Nat) : String := .ofList (Nat.toDigits 16 n)

/-- The eight groups of a v6 address. -/
def segments (high low : UInt64) : List UInt16 :=
  [high, low].flatMap fun half : UInt64 =>
    [(half >>> 48).toUInt16, (half >>> 32).toUInt16, (half >>> 16).toUInt16, half.toUInt16]

/-- The first longest run of zero groups, as its start and length. -/
def longestZeros (groups : List UInt16) : Nat × Nat :=
  let step (runs : (Nat × Nat) × (Nat × Nat)) (group : UInt16 × Nat) :=
    let (longest, current) := runs
    if group.1 = 0 then
      let current := if current.2 = 0 then (group.2, 1) else (current.1, current.2 + 1)
      (if longest.2 < current.2 then current else longest, current)
    else (longest, (0, 0))
  (groups.zipIdx.foldl step ((0, 0), (0, 0))).1

def displayV4 (bits : UInt32) : String :=
  ".".intercalate ([bits >>> 24, bits >>> 16, bits >>> 8, bits].map fun part =>
    toString (part &&& 0xFF))

def displayGroups (groups : List UInt16) : String :=
  ":".intercalate (groups.map fun group => hexDigits group.toNat)

def displayV6 (high low : UInt64) : String :=
  if high = 0 ∧ low >>> 32 = 0xFFFF then "::ffff:" ++ displayV4 low.toUInt32
  else
    let groups := segments high low
    let (start, length) := longestZeros groups
    if 1 < length then
      displayGroups (groups.take start) ++ "::" ++ displayGroups (groups.drop (start + length))
    else displayGroups groups

/-- `SocketAddr::to_string`. -/
def displayAddr (addr : SocketAddr) : String :=
  match addr.ip with
  | .v4 bits => displayV4 bits ++ ":" ++ toString addr.port
  | .v6 high low _ scopeId =>
      let scope := if scopeId = 0 then "" else "%" ++ toString scopeId
      "[" ++ displayV6 high low ++ scope ++ "]:" ++ toString addr.port

end Display

/-- Errors of the fleet; failures of the operating system are carried as their texts. -/
inductive CloudError where
  | notFound (id : UInt64)
  | alreadyExists (id : UInt64)
  | modeDisallowed (source target : Mode)
  | transport (text : String)
  | recorder (text : String)
  deriving DecidableEq, Repr

def CloudError.display : CloudError → String
  | .notFound id => "unit " ++ toString id ++ " not found"
  | .alreadyExists id => "unit " ++ toString id ++ " already exists"
  | .modeDisallowed source target =>
      "mode transition " ++ source.name ++ " -> " ++ target.name ++ " not permitted"
  | .transport text => "transport error: " ++ text
  | .recorder text => "recorder error: " ++ text

def transportErr (addr : SocketAddr) (failure : String) : CloudError :=
  .transport (displayAddr addr ++ ": " ++ failure)

/-- Sink for the commands sent down to units. -/
class UnitTransport (T : Type) where
  sendCommand : T → SocketAddr → Command → T × Except String Unit

/-- Takes every command and drops it. -/
structure NullTransport where

instance : UnitTransport NullTransport where
  sendCommand transport _ _ := (transport, .ok ())

/-- A sink that persists the frames of a session, and how the fleet obtains one. -/
class Recorder (R : Type) where
  record : R → UInt8 → UInt64 → List UInt8 → R × Except String Unit
  frames : R → UInt64
  /-- `NullRecorder::new`. -/
  null : R
  /-- `FileRecorder::create` for a directory and a unit. -/
  create : String → UInt64 → Option R

/-- Discards everything but the number of frames. -/
structure NullRecorder where
  count : UInt64

/-- The recorder of a fleet without files. -/
instance : Recorder NullRecorder where
  record recorder _ _ _ := (⟨recorder.count + 1⟩, .ok ())
  frames := NullRecorder.count
  null := ⟨0⟩
  create _ _ := none

/-- One media or telemetry frame; the payload is cut to what a datagram carries. -/
structure MediaFrame where
  channel : UInt8
  seq : UInt64
  payload : List UInt8
  fits : payload.length ≤ maxPayload

def MediaFrame.new (channel : UInt8) (seq : UInt64) (payload : List UInt8) : MediaFrame where
  channel := channel
  seq := seq
  payload := payload.take maxPayload
  fits := by
    rw [List.length_take]
    exact Nat.min_le_left _ _

/-- A subscriber's ring and whether the subscriber still holds it. -/
structure Subscriber where
  ring : SpscRing MediaFrame
  held : Bool

/-- Fan-out from one publisher to any number of subscribers. -/
structure SfuFanout where
  next : UInt64
  subs : HashMap UInt64 Subscriber

namespace SfuFanout

def new : SfuFanout := ⟨1, ∅⟩

def subscriberCount (sfu : SfuFanout) : Nat :=
  sfu.subs.values.countP (·.held)

/-- Pushes the frame to every live subscriber, forgets the others, and counts who took it. -/
def publish (sfu : SfuFanout) (frame : MediaFrame) : SfuFanout × Nat :=
  let offer (pass : HashMap UInt64 Subscriber × Nat) (entry : Sigma fun _ : UInt64 => Subscriber) :=
    let (subs, delivered) := pass
    if entry.2.held then
      match entry.2.ring.push frame with
      | .ok ring => (subs.insert entry.1 ⟨ring, true⟩, delivered + 1)
      | .error _ => (subs, delivered) -- congested, the frame is dropped
    else (subs.erase entry.1, delivered)
  let (subs, delivered) := sfu.subs.entries.foldl offer (sfu.subs, 0)
  ({ sfu with subs }, delivered)

end SfuFanout

/-- Live session state of one unit. -/
structure UnitState (R : Type) where
  id : UInt64
  addr : SocketAddr
  mode : Mode
  assignedOperator : Option String
  lastSeq : UInt64
  cmdSeq : UInt64
  createdNs : UInt64
  lastSeenNs : UInt64
  sfu : SfuFanout
  recorder : R

/-- A unit on first contact. -/
def UnitState.new {R : Type} (id : UInt64) (addr : SocketAddr) (recorder : R) (now : UInt64) :
    UnitState R where
  id := id
  addr := addr
  mode := .assist
  assignedOperator := none
  lastSeq := 0
  cmdSeq := 0
  createdNs := now
  lastSeenNs := now
  sfu := .new
  recorder := recorder

/-- Snapshot of a unit for the dashboard. -/
structure UnitInfo where
  id : UInt64
  addr : String
  mode : String
  assignedOperator : Option String
  lastSeq : UInt64
  framesRecorded : UInt64
  subscribers : Nat
  lastSeenNs : UInt64

def UnitState.info {R : Type} [Recorder R] (unit : UnitState R) : UnitInfo where
  id := unit.id
  addr := displayAddr unit.addr
  mode := unit.mode.name
  assignedOperator := unit.assignedOperator
  lastSeq := unit.lastSeq
  framesRecorded := Recorder.frames unit.recorder
  subscribers := unit.sfu.subscriberCount
  lastSeenNs := unit.lastSeenNs

end Teleop.Cloud
