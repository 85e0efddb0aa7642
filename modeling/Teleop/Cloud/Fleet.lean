import Teleop.Cloud.Unit

/-!
# The fleet

Many unit sessions behind one orchestrator.  A mode change sends one command for each
segment of its path and ends at the first one the transport refuses.  What the clock
shows is an argument of a call: its readings, in the order they are made.
-/

namespace Teleop.Cloud

open Teleop.Core Teleop.Link

structure Fleet (T R : Type) where
  units : HashMap UInt64 (UnitState R)
  transport : T
  table : TransitionTable
  recordDir : Option String

def makeCommand (mode : Mode) (seq now : UInt64) : Command :=
  { ControlCommand.zeroed mode with
    seq := seq
    timestampNs := now }

/-- Mode names as the dashboard writes them, in any case. -/
def parseMode (name : String) : Option Mode :=
  let lower := String.ofList (name.toList.map Char.toLower)
  if lower = "auto" then some .auto
  else if lower = "assist" then some .assist
  else if lower = "teleop" ∨ lower = "fullteleop" ∨ lower = "full_teleop" then some .fullTeleop
  else if lower = "estop" ∨ lower = "emergency" ∨ lower = "emergencystop" then
    some .emergencyStop
  else none

/-- What one accepted segment does to a unit. -/
def UnitState.advance {R : Type} (unit : UnitState R) (next : Mode) : UnitState R :=
  { unit with
    mode := next
    cmdSeq := unit.cmdSeq + 1 }

namespace Fleet

variable {T R : Type}

def new (transport : T) : Fleet T R where
  units := ∅
  transport := transport
  table := .specDefault
  recordDir := none

def get (fleet : Fleet T R) (id : UInt64) : Option (UnitState R) := fleet.units.lookup id

/-- Writes the entry of one unit. -/
def put (fleet : Fleet T R) (id : UInt64) (unit : UnitState R) : Fleet T R :=
  { fleet with units := fleet.units.insert id unit }

@[simp] theorem get_put (fleet : Fleet T R) (id : UInt64) (unit : UnitState R) :
    (fleet.put id unit).get id = some unit :=
  AList.lookup_insert _

theorem get_put_of_ne (fleet : Fleet T R) {id other : UInt64} (unit : UnitState R)
    (different : other ≠ id) : (fleet.put id unit).get other = fleet.get other :=
  AList.lookup_insert_ne different

@[simp] theorem transport_put (fleet : Fleet T R) (id : UInt64) (unit : UnitState R) :
    (fleet.put id unit).transport = fleet.transport := rfl

@[simp] theorem table_put (fleet : Fleet T R) (id : UInt64) (unit : UnitState R) :
    (fleet.put id unit).table = fleet.table := rfl

/-- Registers a unit with a recorder of the caller. -/
def registerUnit (fleet : Fleet T R) (id : UInt64) (addr : SocketAddr) (recorder : R)
    (clock : Nat → UInt64) : Fleet T R × Except CloudError Unit :=
  match fleet.get id with
  | some _ => (fleet, .error (.alreadyExists id))
  | none => (fleet.put id (.new id addr recorder (clock 0)), .ok ())

/-- Assigns an operator to a unit. -/
def assign (fleet : Fleet T R) (id : UInt64) (operator : String) :
    Fleet T R × Except CloudError Unit :=
  match fleet.get id with
  | none => (fleet, .error (.notFound id))
  | some unit => (fleet.put id { unit with assignedOperator := some operator }, .ok ())

/-- A legal staged path between two modes, or `none` if the table forbids it even through
`assist`. -/
def pathVia (fleet : Fleet T R) (source target : Mode) : Option (List Mode) :=
  if source = target then some []
  else if fleet.table.allows source target then some [target]
  else if source ≠ .assist ∧ target ≠ .assist ∧ fleet.table.allows source .assist ∧
      fleet.table.allows .assist target then
    some [.assist, target]
  else none

section Recording

variable [Recorder R]

def listUnits (fleet : Fleet T R) : List UnitInfo := fleet.units.values.map UnitState.info

def subscriberCount (fleet : Fleet T R) (id : UInt64) : Except CloudError Nat :=
  match fleet.get id with
  | none => .error (.notFound id)
  | some unit => .ok unit.sfu.subscriberCount

/-- The recorder of a unit that registers itself; a file that cannot be opened is done
without. -/
def openRecorder (fleet : Fleet T R) (id : UInt64) : R :=
  match fleet.recordDir with
  | none => Recorder.null
  | some dir => (Recorder.create dir id).getD Recorder.null

/-- Provisions a unit on first contact, and notes its address on the later ones.  The unit is
returned as well. -/
def provision (fleet : Fleet T R) (id : UInt64) (addr : SocketAddr) (now : UInt64) :
    Fleet T R × UnitState R :=
  let unit :=
    match fleet.get id with
    | some unit =>
        { unit with
          addr := addr
          lastSeenNs := now }
    | none => .new id addr (fleet.openRecorder id) now
  (fleet.put id unit, unit)

/-- Records one frame of a unit and fans it out to the subscribers. -/
def ingest (fleet : Fleet T R) (id : UInt64) (addr : SocketAddr) (channel : UInt8)
    (seq : UInt64) (payload : List UInt8) (clock : Nat → UInt64) :
    Fleet T R × Except CloudError Unit :=
  let (fleet, unit) := fleet.provision id addr (clock 0)
  let unit :=
    { unit with
      lastSeq := seq
      lastSeenNs := clock 1 }
  match Recorder.record unit.recorder channel seq payload with
  | (recorder, .error text) => (fleet.put id { unit with recorder }, .error (.recorder text))
  | (recorder, .ok ()) =>
      let sfu := (unit.sfu.publish (.new channel seq payload)).1
      (fleet.put id { unit with recorder, sfu }, .ok ())

end Recording

section Commanding

variable [UnitTransport T]

/-- The loop of `set_mode`, one command a segment. -/
def follow (clock : Nat → UInt64) (addr : SocketAddr) :
    List Mode → Nat → T → UnitState R → T × UnitState R × Except CloudError Unit
  | [], _, transport, unit => (transport, unit, .ok ())
  | next :: rest, passed, transport, unit =>
      match UnitTransport.sendCommand transport addr
        (makeCommand next unit.cmdSeq (clock passed)) with
      | (transport, .error failure) => (transport, unit, .error (transportErr addr failure))
      | (transport, .ok ()) => follow clock addr rest (passed + 1) transport (unit.advance next)

/-- Commands a unit into a mode along a path the transition table allows. -/
def setMode (fleet : Fleet T R) (id : UInt64) (target : Mode) (clock : Nat → UInt64) :
    Fleet T R × Except CloudError Unit :=
  match fleet.get id with
  | none => (fleet, .error (.notFound id))
  | some unit =>
      match fleet.pathVia unit.mode target with
      | none => (fleet, .error (.modeDisallowed unit.mode target))
      | some path =>
          let (transport, unit, result) := follow clock unit.addr path 0 fleet.transport unit
          ({ fleet with transport }.put id unit, result)

def engageAutonomy (fleet : Fleet T R) (id : UInt64) (clock : Nat → UInt64) :
    Fleet T R × Except CloudError Unit :=
  fleet.setMode id .auto clock

def takeManualControl (fleet : Fleet T R) (id : UInt64) (clock : Nat → UInt64) :
    Fleet T R × Except CloudError Unit :=
  fleet.setMode id .fullTeleop clock

end Commanding

end Fleet

end Teleop.Cloud
