import Teleop.Lib.TransitionSystem
import Teleop.Safety.Loop

/-!
# The emergency stop and the pushed command

The loop overrides its output by its own latch and never reads the mode of the
machine.  The two agree as long as the machine is stopped only through the loop:
by `emergency_stop` or by a hard breach of the fence.
-/

namespace Teleop.Safety

open Teleop.Core Teleop.Core.ControlCommand Teleop.Ring Teleop.Lib

variable {S D : Type} [FloatOps S] [FloatOps D] [FloatPair S D]

/-- The safe state of `write_emergency_stop`: axes 0, mode of the stop, flag bit 0. -/
structure SafeState (cmd : ControlCommand S) : Prop where
  axes_eq : ∀ k, cmd.axes k = 0
  mode_eq : cmd.mode = Mode.emergencyStop.asU8
  flagged : cmd.flags &&& 1 = 1

theorem safeState_writeEmergencyStop (seq nowNs : UInt64) :
    SafeState (writeEmergencyStop seq nowNs : ControlCommand S) where
  axes_eq _ := rfl
  mode_eq := rfl
  flagged := show (0 ||| 0b00000001 : UInt8) &&& 1 = 1 by decide

namespace SafetyLoop

section Stages

variable (loop : SafetyLoop S D) (cmd : ControlCommand S) (nowNs atUnixNs : UInt64)

/-- A blend step touches neither the machine, nor the latch, nor what the fence reads. -/
theorem advanceBlend_frame :
    loop.advanceBlend.machine = loop.machine ∧
      loop.advanceBlend.estopLatched = loop.estopLatched ∧
      loop.advanceBlend.cfg = loop.cfg ∧ loop.advanceBlend.pose = loop.pose ∧
      loop.advanceBlend.input = loop.input := by
  unfold advanceBlend
  split <;> exact ⟨rfl, rfl, rfl, rfl, rfl⟩

omit [FloatOps D] [FloatPair S D] in
theorem flags_mixAuthority : (loop.mixAuthority cmd).flags = cmd.flags := by
  unfold mixAuthority
  split <;> rfl

theorem prepare_frame :
    (loop.prepare cmd nowNs).1.machine = loop.machine ∧
      (loop.prepare cmd nowNs).1.estopLatched = loop.estopLatched ∧
      (loop.prepare cmd nowNs).1.cfg = loop.cfg ∧
      (loop.prepare cmd nowNs).1.pose = loop.pose ∧
      (loop.prepare cmd nowNs).2.flags = cmd.flags := by
  obtain ⟨machine_eq, latched_eq, cfg_eq, pose_eq, _⟩ := advanceBlend_frame
    { loop with latency := (loop.latency.observe nowNs cmd.timestampNs).1 }
  refine ⟨machine_eq, latched_eq, cfg_eq, pose_eq, ?_⟩
  unfold prepare
  dsimp only
  rw [(VetoGate.sameHeader_apply ..).flags, flags_mixAuthority,
    (LatencyCompensator.sameHeader_compensate ..).flags]

/-- The fence stage leaves the machine alone or stops it together with the latch. -/
theorem projectFence_cases :
    ((loop.projectFence cmd atUnixNs).1 = loop ∧
        (loop.cfg.fence.evaluate loop.pose = .hardBreach → loop.estopLatched = true)) ∨
      ((loop.projectFence cmd atUnixNs).1 = loop.emergencyStop atUnixNs ∧
        loop.cfg.fence.evaluate loop.pose = .hardBreach) := by
  unfold projectFence
  dsimp only
  by_cases outside : loop.cfg.fence.evaluate loop.pose ≠ .inside
  · rw [if_pos outside]
    by_cases breach : loop.cfg.fence.evaluate loop.pose = .hardBreach ∧
        loop.estopLatched = false
    · rw [if_pos breach]
      exact .inr ⟨rfl, breach.1⟩
    · rw [if_neg breach]
      refine .inl ⟨rfl, ?_⟩
      intro hard
      cases latched : loop.estopLatched with
      | false => exact absurd ⟨hard, latched⟩ breach
      | true => rfl
  · rw [if_neg outside]
    refine .inl ⟨rfl, ?_⟩
    intro hard
    rw [hard] at outside
    exact absurd (by decide) outside

theorem flags_projectFence : (loop.projectFence cmd atUnixNs).2.flags = cmd.flags := by
  unfold projectFence
  dsimp only
  split
  · exact (GeoFence.sameHeader_clampCommand ..).flags
  · rfl

omit [FloatPair S D] in
theorem limit_frame :
    (loop.limit cmd).1.machine = loop.machine ∧
      (loop.limit cmd).1.estopLatched = loop.estopLatched ∧
      (loop.limit cmd).2.flags = cmd.flags := by
  refine ⟨rfl, rfl, ?_⟩
  have pinned : ∀ (condition : Bool) (cmd : ControlCommand S) (value : S),
      (if condition then cmd.setAxis throttle value else cmd).flags = cmd.flags := by
    intro condition cmd value
    cases condition <;> rfl
  unfold limit brake
  dsimp only
  rw [pinned, pinned, (KinematicLimits.sameHeader_apply ..).flags]

/-- What handling a command does to the latch and the machine. -/
theorem intercept_latch :
    ((loop.intercept cmd nowNs atUnixNs).1.estopLatched = true ↔
        loop.estopLatched = true ∨ loop.cfg.fence.evaluate loop.pose = .hardBreach) ∧
      ((loop.intercept cmd nowNs atUnixNs).1.machine = loop.machine ∨
        (loop.intercept cmd nowNs atUnixNs).1.estopLatched = true) := by
  obtain ⟨machine_eq, latched_eq, cfg_eq, pose_eq, _⟩ := prepare_frame loop cmd nowNs
  have fenced := projectFence_cases (loop.prepare cmd nowNs).1 (loop.prepare cmd nowNs).2 atUnixNs
  rw [cfg_eq, pose_eq, latched_eq] at fenced
  unfold intercept
  dsimp only
  obtain ⟨limitMachine, limitLatched, _⟩ := limit_frame
    ((loop.prepare cmd nowNs).1.projectFence (loop.prepare cmd nowNs).2 atUnixNs).1
    ((loop.prepare cmd nowNs).1.projectFence (loop.prepare cmd nowNs).2 atUnixNs).2
  rw [limitMachine, limitLatched]
  rcases fenced with ⟨unchanged, latchedOnBreach⟩ | ⟨stopped, breach⟩
  · rw [unchanged, latched_eq, machine_eq]
    refine ⟨⟨.inl, ?_⟩, .inl rfl⟩
    rintro (latched | breach)
    · exact latched
    · exact latchedOnBreach breach
  · rw [stopped]
    exact ⟨⟨fun _ => .inr breach, fun _ => rfl⟩, .inr rfl⟩

/-- Handling a command yields the safe state when latched, and otherwise a command with the
flags of its input. -/
theorem intercept_command :
    ((loop.intercept cmd nowNs atUnixNs).1.estopLatched = true →
        SafeState (loop.intercept cmd nowNs atUnixNs).2) ∧
      ((loop.intercept cmd nowNs atUnixNs).1.estopLatched = false →
        (loop.intercept cmd nowNs atUnixNs).2.flags = cmd.flags) := by
  unfold intercept
  dsimp only
  constructor
  · intro latched
    rw [if_pos latched]
    exact safeState_writeEmergencyStop ..
  · intro unlatched
    rw [if_neg (by rw [unlatched]; decide), (limit_frame ..).2.2, flags_projectFence,
      (prepare_frame loop cmd nowNs).2.2.2.2]

end Stages

/-- The calls of one run: those of the loop, those others make on the machine, and the far
ends of the two rings. -/
inductive Action (S D : Type) where
  | requestMode (mode : Mode) (atUnixNs : UInt64)
  | emergencyStop (atUnixNs : UInt64)
  | setPose (pose : Pose6D S D)
  | setAutonomyBaseline (cmd : ControlCommand S)
  | engageAiVeto (maxTranslationalNorm : S)
  | disengageAiVeto
  | processOne (nowNs atUnixNs : UInt64)
  | machineForceEmergencyStop (atUnixNs : UInt64)
  | machineTryTransition (mode : Mode) (atUnixNs : UInt64)
  | pushInput (cmd : ControlCommand S)
  | popOutput

def perform (loop : SafetyLoop S D) : Action S D → SafetyLoop S D
  | .requestMode mode atUnixNs => (loop.requestMode mode atUnixNs).1
  | .emergencyStop atUnixNs => loop.emergencyStop atUnixNs
  | .setPose pose => loop.setPose pose
  | .setAutonomyBaseline cmd => loop.setAutonomyBaseline cmd
  | .engageAiVeto maxTranslationalNorm => loop.engageAiVeto maxTranslationalNorm
  | .disengageAiVeto => loop.disengageAiVeto
  | .processOne nowNs atUnixNs => (loop.processOne nowNs atUnixNs).1
  | .machineForceEmergencyStop atUnixNs =>
      { loop with machine := (loop.machine.forceEmergencyStop atUnixNs).1 }
  | .machineTryTransition mode atUnixNs =>
      { loop with machine := (loop.machine.tryTransition mode atUnixNs).1 }
  | .pushInput cmd => { loop with input := loop.input.pushOrDrop cmd }
  | .popOutput =>
      match loop.output.pop with
      | none => loop
      | some (_, output) => { loop with output }

variable (S D) in
def system : TransitionSystem (SafetyLoop S D) (Action S D) :=
  .ofNext (fun loop => ∃ input output machine cfg, loop = new input output machine cfg)
    fun loop action => some (loop.perform action)

/-- On the next tick, whenever it comes: if the machine is stopped when the command is taken
up or when it is pushed, the pushed command is the safe state. -/
def HonoursStop (loop : SafetyLoop S D) : Prop :=
  ∀ nowNs atUnixNs after cmd drained,
    loop.handle nowNs atUnixNs = some (after, cmd, drained) →
    loop.machine.current = .emergencyStop ∨ after.machine.current = .emergencyStop →
    SafeState cmd

/-- The step does not stop the machine behind the back of an unlatched loop. -/
def StopsThroughLoop (loop : SafetyLoop S D) : Action S D → Prop
  | .requestMode .emergencyStop _ | .machineForceEmergencyStop _
  | .machineTryTransition .emergencyStop _ => loop.estopLatched = true
  | _ => True

/-- A stopped machine is a latched loop. -/
def StopLatched (loop : SafetyLoop S D) : Prop :=
  loop.machine.current = .emergencyStop → loop.estopLatched = true

theorem exists_newest_of_handle {loop after : SafetyLoop S D} {nowNs atUnixNs : UInt64}
    {cmd : ControlCommand S} {drained : Nat}
    (handled : loop.handle nowNs atUnixNs = some (after, cmd, drained)) :
    ∃ newest, ∃ idle : SafetyLoop S D, loop.input.items.getLast? = some newest ∧
      idle.machine = loop.machine ∧ idle.estopLatched = loop.estopLatched ∧
      idle.cfg = loop.cfg ∧ idle.pose = loop.pose ∧
      idle.intercept newest nowNs atUnixNs = (after, cmd) := by
  obtain ⟨machine_eq, latched_eq, cfg_eq, pose_eq, input_eq⟩ := loop.advanceBlend_frame
  unfold handle at handled
  dsimp only at handled
  split at handled
  · exact absurd handled (by simp)
  · rename_i newest found
    cases handled
    unfold SpscRing.drain at found
    dsimp only at found
    rw [input_eq] at found
    exact ⟨newest, { loop.advanceBlend with input := loop.advanceBlend.input.drain.2 }, found,
      machine_eq, latched_eq, cfg_eq, pose_eq, rfl⟩

theorem StopLatched.handle {loop after : SafetyLoop S D} {nowNs atUnixNs : UInt64}
    {cmd : ControlCommand S} {drained : Nat} (agrees : StopLatched loop)
    (handled : loop.handle nowNs atUnixNs = some (after, cmd, drained)) :
    StopLatched after := by
  obtain ⟨newest, idle, _, machine_eq, latched_eq, _, _, result⟩ :=
    exists_newest_of_handle handled
  obtain ⟨latch, unchanged | latched⟩ := intercept_latch idle newest nowNs atUnixNs
  · rw [result] at latch unchanged
    intro stopped
    dsimp only at stopped unchanged latch
    rw [unchanged, machine_eq] at stopped
    exact latch.mpr (.inl (latched_eq.trans (agrees stopped)))
  · rw [result] at latched
    exact fun _ => latched

theorem StopLatched.honours {loop : SafetyLoop S D} (agrees : StopLatched loop) :
    HonoursStop loop := by
  intro nowNs atUnixNs after cmd drained handled stopped
  have kept := agrees.handle handled
  obtain ⟨newest, idle, _, machine_eq, latched_eq, _, _, result⟩ :=
    exists_newest_of_handle handled
  obtain ⟨latch, _⟩ := intercept_latch idle newest nowNs atUnixNs
  obtain ⟨safe, _⟩ := intercept_command idle newest nowNs atUnixNs
  rw [result] at latch safe
  apply safe
  rcases stopped with before | after
  · exact latch.mpr (.inl (latched_eq.trans (agrees before)))
  · exact kept after

theorem StopLatched.processOne {loop : SafetyLoop S D} (agrees : StopLatched loop)
    (nowNs atUnixNs : UInt64) : StopLatched (loop.processOne nowNs atUnixNs).1 := by
  unfold SafetyLoop.processOne
  split
  · obtain ⟨machine_eq, latched_eq, _⟩ := loop.advanceBlend_frame
    intro stopped
    dsimp only at stopped ⊢
    rw [machine_eq] at stopped
    rw [latched_eq]
    exact agrees stopped
  · rename_i after cmd drained handled
    have kept := agrees.handle handled
    split <;> exact kept

omit [FloatOps S] [FloatOps D] [FloatPair S D] in
theorem StopLatched.tryTransition {loop : SafetyLoop S D} (agrees : StopLatched loop)
    {mode : Mode} (atUnixNs : UInt64)
    (throughLoop : mode = .emergencyStop → loop.estopLatched = true) :
    (loop.machine.tryTransition mode atUnixNs).1.current = .emergencyStop →
      loop.estopLatched = true := by
  rcases loop.machine.tryTransition_cases mode atUnixNs with ⟨_, refused⟩ | ⟨_, granted⟩
  · rw [refused]
    exact agrees
  · rw [granted, StateMachine.commit_current]
    exact throughLoop

omit [FloatOps D] [FloatPair S D] in
theorem requestMode_frame (loop : SafetyLoop S D) (mode : Mode) (atUnixNs : UInt64) :
    (loop.requestMode mode atUnixNs).1.machine =
        (loop.machine.tryTransition mode atUnixNs).1 ∧
      (loop.requestMode mode atUnixNs).1.estopLatched = loop.estopLatched := by
  unfold requestMode
  split <;> rename_i result <;> rw [result] <;> exact ⟨rfl, rfl⟩

theorem StopLatched.perform {loop : SafetyLoop S D} (agrees : StopLatched loop)
    {action : Action S D} (throughLoop : StopsThroughLoop loop action) :
    StopLatched (loop.perform action) := by
  cases action with
  | requestMode mode atUnixNs =>
      obtain ⟨machine_eq, latched_eq⟩ := requestMode_frame loop mode atUnixNs
      unfold StopLatched SafetyLoop.perform
      rw [machine_eq, latched_eq]
      apply agrees.tryTransition
      rintro rfl
      exact throughLoop
  | emergencyStop atUnixNs => exact fun _ => rfl
  | processOne nowNs atUnixNs => exact agrees.processOne nowNs atUnixNs
  | machineForceEmergencyStop atUnixNs => exact fun _ => throughLoop
  | machineTryTransition mode atUnixNs =>
      apply agrees.tryTransition
      rintro rfl
      exact throughLoop
  | popOutput =>
      unfold SafetyLoop.perform
      dsimp only
      split <;> exact agrees
  | setPose pose => exact agrees
  | setAutonomyBaseline cmd => exact agrees
  | engageAiVeto maxTranslationalNorm => exact agrees
  | disengageAiVeto => exact agrees
  | pushInput cmd => exact agrees

/-- A handled command whose own flag bit 0 is clear is pushed as the safe state exactly when
the loop is latched or the pose breaches the fence: the machine has no say. -/
theorem safeState_iff_latched {loop after : SafetyLoop S D} {nowNs atUnixNs : UInt64}
    {cmd newest : ControlCommand S} {drained : Nat}
    (taken : loop.input.items.getLast? = some newest) (clear : newest.flags &&& 1 = 0)
    (handled : loop.handle nowNs atUnixNs = some (after, cmd, drained)) :
    SafeState cmd ↔
      loop.estopLatched = true ∨ loop.cfg.fence.evaluate loop.pose = .hardBreach := by
  obtain ⟨same, idle, found, _, latched_eq, cfg_eq, pose_eq, result⟩ :=
    exists_newest_of_handle handled
  rw [taken] at found
  cases found
  obtain ⟨latch, _⟩ := intercept_latch idle newest nowNs atUnixNs
  obtain ⟨safe, kept⟩ := intercept_command idle newest nowNs atUnixNs
  rw [result] at latch safe kept
  rw [cfg_eq, pose_eq, latched_eq] at latch
  rw [← latch]
  refine ⟨?_, safe⟩
  intro safeState
  by_contra unlatched
  have flagged := safeState.flagged
  rw [kept (Bool.not_eq_true _ ▸ unlatched), clear] at flagged
  exact absurd flagged (by decide)

/-- In every run that starts with a running machine and stops it only through the loop, each
tick honours the stop.  The latch and the fence decide alone: from any state, a command
with flag bit 0 clear is pushed as the safe state exactly when one of them says so. -/
theorem honoursStop_of_stopsThroughLoop
    (input output : SpscRing (ControlCommand S)) (machine : StateMachine)
    (cfg : SafetyConfig S D) (running : machine.current ≠ .emergencyStop)
    (actions : List (Action S D)) (loop : SafetyLoop S D)
    (execution : ((system S D).restrict StopsThroughLoop).Execution
      (new input output machine cfg) actions loop) :
    HonoursStop loop ∧
      ∀ (other after : SafetyLoop S D) nowNs atUnixNs cmd newest drained,
        other.input.items.getLast? = some newest → newest.flags &&& 1 = 0 →
        other.handle nowNs atUnixNs = some (after, cmd, drained) →
        (SafeState cmd ↔
          other.estopLatched = true ∨ other.cfg.fence.evaluate other.pose = .hardBreach) := by
  constructor
  · apply StopLatched.honours
    refine execution.preserves (P := StopLatched) ?_ fun stopped => absurd stopped running
    rintro state action target agrees ⟨throughLoop, stepped⟩
    cases stepped
    exact agrees.perform throughLoop
  · intro other after nowNs atUnixNs cmd newest drained taken clear handled
    exact safeState_iff_latched taken clear handled

/-- A loop on a fresh machine, in exact arithmetic. -/
def fresh : SafetyLoop ℚ ℚ := new (.withCapacity 4) (.withCapacity 4) .new .default

/-- The loop after an emergency stop of its own and one operator command. -/
def stoppedByLoop : SafetyLoop ℚ ℚ :=
  (fresh.perform (.emergencyStop 1)).perform (.pushInput (.zeroed .fullTeleop))

theorem stoppedByLoop_honoursStop : HonoursStop stoppedByLoop :=
  (honoursStop_of_stopsThroughLoop (.withCapacity 4) (.withCapacity 4) .new .default (by decide)
    [.emergencyStop 1, .pushInput (.zeroed .fullTeleop)] stoppedByLoop
    (.cons ⟨trivial, rfl⟩ (.cons ⟨trivial, rfl⟩ (.nil _)))).1

/-- The loop after a requested stop and one operator command. -/
def stoppedByRequest : SafetyLoop ℚ ℚ :=
  (fresh.perform (.requestMode .emergencyStop 1)).perform (.pushInput (.zeroed .fullTeleop))

/-- The requested stop is granted, the machine is stopped, and the next tick still pushes
something else than the safe state. -/
theorem stoppedByRequest_not_honoursStop :
    (system ℚ ℚ).Reachable stoppedByRequest ∧
      stoppedByRequest.machine.current = .emergencyStop ∧ ¬HonoursStop stoppedByRequest := by
  have reached : (system ℚ ℚ).Reachable fresh := .of_initial ⟨_, _, _, _, rfl⟩
  refine ⟨(reached.step rfl).step rfl, by decide, ?_⟩
  intro honours
  obtain ⟨⟨after, cmd, drained⟩, handled⟩ :=
    Option.isSome_iff_exists.mp (show (stoppedByRequest.handle 2 2).isSome by decide +kernel)
  have safe := honours 2 2 after cmd drained handled (.inl (by decide))
  rcases (safeState_iff_latched rfl (by decide) handled).mp safe with latched | breach
  · exact absurd latched (by decide)
  · exact absurd breach (by decide +kernel)

end SafetyLoop

end Teleop.Safety
