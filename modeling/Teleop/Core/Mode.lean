import Mathlib.Logic.Basic

/-!
# Operating modes and the legal-transition table

The default table forbids direct jumps between `auto` and `fullTeleop`: both
directions stage through `assist`.  The emergency stop is enterable from
anywhere and left only into `assist`.
-/

namespace Teleop.Core

/-- Control authority mode. -/
inductive Mode where
  | auto
  | assist
  | fullTeleop
  | emergencyStop
  deriving DecidableEq, Repr

namespace Mode

/-- All modes, index-stable with the discriminants. -/
def all : List Mode := [.auto, .assist, .fullTeleop, .emergencyStop]

/-- The `repr(u8)` discriminant. -/
def asU8 : Mode → UInt8
  | .auto => 0
  | .assist => 1
  | .fullTeleop => 2
  | .emergencyStop => 3

def fromU8 (v : UInt8) : Option Mode :=
  if v = 0 then some .auto
  else if v = 1 then some .assist
  else if v = 2 then some .fullTeleop
  else if v = 3 then some .emergencyStop
  else none

@[simp] theorem fromU8_asU8 (mode : Mode) : fromU8 mode.asU8 = some mode := by
  cases mode <;> decide

/-- Human-readable name for logs. -/
def name : Mode → String
  | .auto => "AUTO"
  | .assist => "ASSIST"
  | .fullTeleop => "TELEOP"
  | .emergencyStop => "ESTOP"

end Mode

/-- A completed mode change with the wall-clock time of its commit. -/
structure Transition where
  source : Mode
  target : Mode
  atUnixNs : UInt64
  deriving DecidableEq, Repr

/-- Rejected-transition error. -/
inductive ModeError where
  | disallowed (source target : Mode)
  deriving DecidableEq, Repr

def ModeError.display : ModeError → String
  | .disallowed source target =>
      "mode transition " ++ source.name ++ " -> " ++ target.name ++ " is not permitted"

/-- Dense adjacency matrix of legal transitions, indexed by the discriminants. -/
structure TransitionTable where
  allowed : Mode → Mode → Bool

namespace TransitionTable

/-- Reads one edge. -/
def allows (table : TransitionTable) (source target : Mode) : Bool :=
  table.allowed source target

/-- Writes one edge. -/
def setAllowed (table : TransitionTable) (source target : Mode) (allowed : Bool) :
    TransitionTable where
  allowed a b := if a = source ∧ b = target then allowed else table.allowed a b

/-- The spec-default policy: staged handovers through `assist`, the emergency stop
enterable from every mode and left only into `assist`. -/
def specDefault : TransitionTable :=
  let blank : TransitionTable := ⟨fun _ _ => false⟩
  let staged := blank
    |>.setAllowed .auto .assist true
    |>.setAllowed .assist .auto true
    |>.setAllowed .assist .fullTeleop true
    |>.setAllowed .fullTeleop .assist true
  let stoppable := Mode.all.foldl (fun table mode => table.setAllowed mode .emergencyStop true) staged
  stoppable.setAllowed .emergencyStop .assist true

/-- The default table as a whole, one condition for each edge it contains. -/
theorem specDefault_allows (source target : Mode) :
    specDefault.allows source target = true ↔
      target = .emergencyStop ∨
      (source = .auto ∧ target = .assist) ∨
      (source = .assist ∧ (target = .auto ∨ target = .fullTeleop)) ∨
      (source = .fullTeleop ∧ target = .assist) ∨
      (source = .emergencyStop ∧ target = .assist) := by
  cases source <;> cases target <;> decide

/-- The only edges out of the emergency stop lead to itself and to `assist`. -/
theorem target_of_emergencyStop {target : Mode}
    (allowed : specDefault.allows .emergencyStop target = true) :
    target = .emergencyStop ∨ target = .assist := by
  have := (specDefault_allows .emergencyStop target).mp allowed
  simpa using this

end TransitionTable

end Teleop.Core
