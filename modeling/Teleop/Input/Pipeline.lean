import Teleop.Input.ControllerMap
import Teleop.Ring.Spsc

/-!
# The input stage

Polls a device once a tick, maps a fresh report onto a command and pushes it into the ring of
the safety loop.  The mapping starts from an all-zero command and only writes its axes, so the
sequence number of every command is the one it starts with.
-/

namespace Teleop.Input

open Teleop.Core Teleop.Lib Teleop.Lib.FloatOps Teleop.Ring

variable {S : Type} [FloatOps S]

/-- Force-feedback command: the gains of both motors and a duration. -/
inductive HapticEffect (S : Type) where
  | rumble (strong weak : S) (durationMs : UInt16)
  deriving DecidableEq

/-- The soft double-tap. -/
def HapticEffect.warn : HapticEffect S := .rumble (ofRat 0.25) (ofRat 0.1) 80

/-- Flag bit 1: authored by an AI source. -/
def flagAiOrigin : UInt8 := 2

def clearAiOrigin (cmd : ControlCommand S) : ControlCommand S :=
  { cmd with flags := cmd.flags &&& ~~~flagAiOrigin }

/-- One wired input channel.  The device and the ring are shared, so each tick is given what the
device reports and the ring as it finds it; of the haptics the effects are kept that were
broadcast. -/
structure InputStage (S : Type) where
  map : ControllerMap S
  haptics : List (HapticEffect S)
  scratchReport : ControllerReport S

namespace InputStage

def new (map : ControllerMap S) : InputStage S where
  map := map
  haptics := []
  scratchReport := .default

/-- The command that a fresh report makes. -/
def mapped (stage : InputStage S) (report : ControllerReport S) (nowNs : UInt64) :
    ControlCommand S :=
  stage.map.apply report { clearAiOrigin (.zeroed .fullTeleop) with timestampNs := nowNs }

/-- Polls; `fresh` is what the device returns and `report` what it leaves in the scratch report.
Returns the command if one was queued. -/
def tick (stage : InputStage S) (ring : SpscRing (ControlCommand S)) (nowNs : UInt64)
    (fresh : Bool) (report : ControllerReport S) :
    InputStage S × SpscRing (ControlCommand S) × Option (ControlCommand S) :=
  let stage := { stage with scratchReport := report }
  if fresh then
    let cmd := stage.mapped report nowNs
    let stage :=
      if cmd.flags &&& 2 ≠ 0 then { stage with haptics := stage.haptics ++ [.warn] } else stage
    match ring.push cmd with
    | .ok pushed => (stage, pushed, some cmd)
    | .error _ => (stage, ring, none)
  else (stage, ring, none)

/-- What a tick is given. -/
structure Tick (S : Type) where
  ring : SpscRing (ControlCommand S)
  nowNs : UInt64
  fresh : Bool
  report : ControllerReport S

/-- The device has a fresh report and the ring has room for its command. -/
def Tick.queues (tick : Tick S) : Bool :=
  tick.fresh && decide (tick.ring.items.length < tick.ring.capacity)

/-- The commands that some ticks emit. -/
def emitted (stage : InputStage S) : List (Tick S) → List (ControlCommand S)
  | [] => []
  | given :: rest =>
      let (stage, _, cmd) := stage.tick given.ring given.nowNs given.fresh given.report
      cmd.toList ++ stage.emitted rest

/-- The mapping leaves the header of the command it starts from. -/
theorem seq_mapped (stage : InputStage S) (report : ControllerReport S) (nowNs : UInt64) :
    (stage.mapped report nowNs).seq = 0 := rfl

/-- A tick emits a command, which it has then pushed, exactly when there is a report and room. -/
theorem tick_cases (stage : InputStage S) (given : Tick S) :
    ∃ next, next.map = stage.map ∧
      ((given.queues = true ∧ ∃ pushed,
          given.ring.push (stage.mapped given.report given.nowNs) = .ok pushed ∧
          stage.tick given.ring given.nowNs given.fresh given.report =
            (next, pushed, some (stage.mapped given.report given.nowNs))) ∨
        (given.queues = false ∧
          stage.tick given.ring given.nowNs given.fresh given.report =
            (next, given.ring, none))) := by
  -- the flags of the command are clear, so no effect is ever broadcast
  have quiet (stage : InputStage S) (report : ControllerReport S) (nowNs : UInt64) :
      (stage.mapped report nowNs).flags &&& 2 = 0 :=
    show (0 &&& ~~~flagAiOrigin) &&& 2 = 0 by decide
  refine ⟨{ stage with scratchReport := given.report }, rfl, ?_⟩
  unfold Tick.queues tick
  cases given.fresh with
  | false => exact .inr ⟨rfl, rfl⟩
  | true =>
      by_cases room : given.ring.items.length < given.ring.capacity
      · refine .inl ⟨by simp [room], _, dif_pos room, ?_⟩
        simp only [if_true, quiet, ne_eq, not_true_eq_false, if_false]
        rw [SpscRing.push, dif_pos room]
        rfl
      · refine .inr ⟨by simp [room], ?_⟩
        simp only [if_true, quiet, ne_eq, not_true_eq_false, if_false]
        rw [SpscRing.push, dif_neg room]

/-- One command for each tick with a report and room, all with the sequence number 0. -/
theorem emitted_spec (stage : InputStage S) (ticks : List (Tick S)) :
    (stage.emitted ticks).length = ticks.countP Tick.queues ∧
      ∀ cmd ∈ stage.emitted ticks, cmd.seq = 0 := by
  induction ticks generalizing stage with
  | nil => exact ⟨rfl, by simp [emitted]⟩
  | cons given rest inductionHypothesis =>
      obtain ⟨next, _, ⟨queues, pushed, _, ticked⟩ | ⟨idle, ticked⟩⟩ := stage.tick_cases given
      · obtain ⟨length, zero⟩ := inductionHypothesis next
        rw [emitted, ticked, List.countP_cons_of_pos queues]
        refine ⟨by simp [length], ?_⟩
        intro cmd among
        rcases List.mem_cons.mp among with rfl | later
        · exact stage.seq_mapped _ _
        · exact zero cmd later
      · obtain ⟨length, zero⟩ := inductionHypothesis next
        rw [emitted, ticked, List.countP_cons_of_neg (by simp [idle])]
        exact ⟨length, zero⟩

/-- The commands of a stage are numbered upwards exactly when it emits at most one. -/
theorem increasing_iff (stage : InputStage S) (ticks : List (Tick S)) :
    (stage.emitted ticks).Pairwise (fun earlier later => earlier.seq < later.seq) ↔
      ticks.countP Tick.queues ≤ 1 := by
  obtain ⟨length, zero⟩ := stage.emitted_spec ticks
  rw [← length]
  constructor
  · intro increasing
    match content : stage.emitted ticks with
    | [] => exact Nat.zero_le 1
    | [_] => exact Nat.le_refl 1
    | first :: second :: others =>
        rw [content] at increasing zero
        have rises := (List.pairwise_cons.mp increasing).1 second (by simp)
        rw [zero first (by simp), zero second (by simp)] at rises
        exact absurd rises (UInt64.lt_irrefl 0)
  · intro few
    match content : stage.emitted ticks with
    | [] => exact .nil
    | [cmd] => exact List.pairwise_singleton _ cmd
    | _ :: _ :: others =>
        rw [content] at few
        simp at few

/-- Two reports in a row, with an empty ring. -/
def twice : List (Tick ℚ) :=
  [⟨.withCapacity 4, 5000000, true, { ControllerReport.default with seq := 1 }⟩,
    ⟨.withCapacity 4, 10000000, true, { ControllerReport.default with seq := 2 }⟩]

/-- Two commands have the same number. -/
theorem not_increasing :
    ¬∀ (stage : InputStage ℚ) (ticks : List (Tick ℚ)),
      (stage.emitted ticks).Pairwise (fun earlier later => earlier.seq < later.seq) := by
  intro increases
  exact absurd (increases (new .default) twice) (by decide +kernel)

end InputStage

end Teleop.Input
