import Mathlib.Data.List.Chain
import Mathlib.Tactic.FinCases
import Teleop.Lib.ExactArithmetic
import Teleop.Safety.StopOverride

/-!
# The kinematic envelope over runs

Whatever the operator, the autonomy and the pose are, the limiter keeps each output inside
the envelope and close to the output before it.  What follows the limiter only lowers the
throttle or replaces the command by the safe state, which is inside the envelope as well.
-/

namespace Teleop.Safety

open Teleop.Core Teleop.Core.ControlCommand Teleop.Ring Teleop.Lib Teleop.Lib.FloatOps

namespace KinematicLimits

section Axes

variable {S : Type} [FloatOps S]

/-- The absolute bound of an axis other than the throttle. -/
def bound (limits : KinematicLimits S) (axis : Fin 6) : S :=
  if axis = roll ∨ axis = pitch then limits.maxTiltNorm
  else if axis = yaw then limits.maxYawNorm
  else limits.maxLateralNorm

def low (limits : KinematicLimits S) (axis : Fin 6) : S :=
  if axis = Safety.throttle then 0 else -limits.bound axis

def high (limits : KinematicLimits S) (axis : Fin 6) : S :=
  if axis = Safety.throttle then ofRat 1 else limits.bound axis

def step (limits : KinematicLimits S) (axis : Fin 6) : S :=
  if axis = Safety.throttle then limits.maxThrottleStep else limits.maxAxisStep

/-- Each axis is clamped to its interval and then moves one limited step towards the result. -/
theorem axes_apply (limits : KinematicLimits S) (prev cmd : ControlCommand S) (axis : Fin 6) :
    (limits.apply prev cmd).1.axes axis = prev.axes axis +
      clamp (clamp (cmd.axes axis) (limits.low axis) (limits.high axis) - prev.axes axis)
        (-limits.step axis) (limits.step axis) := by
  fin_cases axis <;> rfl

end Axes

structure NonNeg (limits : KinematicLimits ℚ) : Prop where
  tilt : 0 ≤ limits.maxTiltNorm
  yaw : 0 ≤ limits.maxYawNorm
  lateral : 0 ≤ limits.maxLateralNorm
  axisStep : 0 ≤ limits.maxAxisStep
  throttleStep : 0 ≤ limits.maxThrottleStep

end KinematicLimits

/-- The command is inside the kinematic envelope. -/
structure InEnvelope (limits : KinematicLimits ℚ) (cmd : ControlCommand ℚ) : Prop where
  roll : |cmd.axes roll| ≤ limits.maxTiltNorm
  pitch : |cmd.axes pitch| ≤ limits.maxTiltNorm
  yaw : |cmd.axes yaw| ≤ limits.maxYawNorm
  latX : |cmd.axes latX| ≤ limits.maxLateralNorm
  latY : |cmd.axes latY| ≤ limits.maxLateralNorm
  throttle : 0 ≤ cmd.axes throttle ∧ cmd.axes throttle ≤ 1

/-- The command follows another one within the slew limits. -/
structure Follows (limits : KinematicLimits ℚ) (last cmd : ControlCommand ℚ) : Prop where
  axes : ∀ axis, axis ≠ throttle → |cmd.axes axis - last.axes axis| ≤ limits.maxAxisStep
  throttle : cmd.axes throttle ≤ last.axes throttle + limits.maxThrottleStep

section Limits

variable {limits : KinematicLimits ℚ} {last cmd other : ControlCommand ℚ}

theorem inEnvelope_iff : InEnvelope limits cmd ↔
    ∀ axis, limits.low axis ≤ cmd.axes axis ∧ cmd.axes axis ≤ limits.high axis := by
  constructor
  · intro inside axis
    fin_cases axis
    · exact abs_le.mp inside.roll
    · exact abs_le.mp inside.pitch
    · exact abs_le.mp inside.yaw
    · exact inside.throttle
    · exact abs_le.mp inside.latX
    · exact abs_le.mp inside.latY
  · intro between
    exact ⟨abs_le.mpr (between roll), abs_le.mpr (between pitch), abs_le.mpr (between yaw),
      abs_le.mpr (between latX), abs_le.mpr (between latY), between throttle⟩

theorem KinematicLimits.NonNeg.step (nonneg : limits.NonNeg) (axis : Fin 6) :
    0 ≤ limits.step axis := by
  unfold KinematicLimits.step
  split
  · exact nonneg.throttleStep
  · exact nonneg.axisStep

theorem KinematicLimits.NonNeg.low_le_high (nonneg : limits.NonNeg) (axis : Fin 6) :
    limits.low axis ≤ limits.high axis := by
  have bound : 0 ≤ limits.bound axis := by
    unfold KinematicLimits.bound
    split
    · exact nonneg.tilt
    · split
      · exact nonneg.yaw
      · exact nonneg.lateral
  unfold KinematicLimits.low KinematicLimits.high
  split
  · exact zero_le_one
  · exact (neg_nonpos.mpr bound).trans bound

/-- The limiter keeps the envelope when the command before was inside it. -/
theorem inEnvelope_apply (nonneg : limits.NonNeg) (inside : InEnvelope limits last) :
    InEnvelope limits (limits.apply last cmd).1 := by
  apply inEnvelope_iff.mpr
  intro axis
  obtain ⟨lastLow, lastHigh⟩ := inEnvelope_iff.mp inside axis
  obtain ⟨targetLow, targetHigh⟩ := clamp_mem (cmd.axes axis) (nonneg.low_le_high axis)
  rw [KinematicLimits.axes_apply]
  exact limited_step_mem (nonneg.step axis) lastLow lastHigh targetLow targetHigh

/-- The limiter moves no axis by more than its step. -/
theorem abs_apply_sub (nonneg : limits.NonNeg) (last cmd : ControlCommand ℚ) (axis : Fin 6) :
    |(limits.apply last cmd).1.axes axis - last.axes axis| ≤ limits.step axis := by
  have ordered : -limits.step axis ≤ limits.step axis := by
    have := nonneg.step axis
    linarith
  have moved := clamp_mem
    (clamp (cmd.axes axis) (limits.low axis) (limits.high axis) - last.axes axis) ordered
  rw [KinematicLimits.axes_apply, add_sub_cancel_left]
  exact abs_le.mpr moved

theorem follows_apply (nonneg : limits.NonNeg) : Follows limits last (limits.apply last cmd).1 := by
  constructor
  · intro axis other
    have moved := abs_apply_sub nonneg last cmd axis
    rwa [KinematicLimits.step, if_neg other] at moved
  · have moved := (abs_le.mp (abs_apply_sub nonneg last cmd throttle)).2
    rw [KinematicLimits.step, if_pos rfl] at moved
    linarith

/-- `other` is `cmd` with the throttle kept or lowered. -/
structure Lowers (cmd other : ControlCommand ℚ) : Prop where
  axes : ∀ axis, axis ≠ throttle → other.axes axis = cmd.axes axis
  throttle : other.axes throttle = cmd.axes throttle ∨
    (0 ≤ other.axes throttle ∧ other.axes throttle ≤ cmd.axes throttle)

theorem Lowers.refl (cmd : ControlCommand ℚ) : Lowers cmd cmd := ⟨fun _ _ => rfl, .inl rfl⟩

theorem Lowers.trans {third : ControlCommand ℚ} (left : Lowers cmd other)
    (right : Lowers other third) : Lowers cmd third := by
  constructor
  · intro axis different
    rw [right.axes axis different, left.axes axis different]
  · rcases right.throttle with same | ⟨nonneg, lower⟩
    · rw [same]
      exact left.throttle
    · right
      refine ⟨nonneg, lower.trans ?_⟩
      rcases left.throttle with same | ⟨-, lower⟩
      · exact same.le
      · exact lower

theorem lowers_setAxis {value : ℚ} (nonneg : 0 ≤ value) {when : Bool}
    (lower : when = true → value ≤ cmd.axes throttle) :
    Lowers cmd (if when then cmd.setAxis throttle value else cmd) := by
  cases when with
  | false => exact .refl cmd
  | true =>
      constructor
      · intro axis different
        simp [setAxis, different]
      · right
        simpa [setAxis] using ⟨nonneg, lower rfl⟩

theorem InEnvelope.lower (inside : InEnvelope limits cmd) (lowers : Lowers cmd other) :
    InEnvelope limits other := by
  have same : ∀ {axis}, axis ≠ Safety.throttle → |other.axes axis| = |cmd.axes axis| := by
    intro axis different
    rw [lowers.axes axis different]
  refine ⟨(same (by decide)).trans_le inside.roll, (same (by decide)).trans_le inside.pitch,
    (same (by decide)).trans_le inside.yaw, (same (by decide)).trans_le inside.latX,
    (same (by decide)).trans_le inside.latY, ?_⟩
  rcases lowers.throttle with same | ⟨nonneg, lower⟩
  · rw [same]
    exact inside.throttle
  · exact ⟨nonneg, lower.trans inside.throttle.2⟩

theorem Follows.lower (follows : Follows limits last cmd) (lowers : Lowers cmd other) :
    Follows limits last other := by
  constructor
  · intro axis different
    rw [lowers.axes axis different]
    exact follows.axes axis different
  · rcases lowers.throttle with same | ⟨-, lower⟩
    · rw [same]
      exact follows.throttle
    · exact lower.trans follows.throttle

theorem inEnvelope_of_zero (nonneg : limits.NonNeg) (zero : ∀ axis, cmd.axes axis = 0) :
    InEnvelope limits cmd := by
  refine ⟨?_, ?_, ?_, ?_, ?_, ?_⟩ <;> rw [zero]
  · simpa using nonneg.tilt
  · simpa using nonneg.tilt
  · simpa using nonneg.yaw
  · simpa using nonneg.lateral
  · simpa using nonneg.lateral
  · exact ⟨le_refl 0, zero_le_one⟩

end Limits

namespace SafetyLoop

section Frames

variable {S D : Type} [FloatOps S] [FloatOps D] [FloatPair S D]

/-- The stages before the limiter keep the configuration and the last accepted command. -/
theorem prepare_keeps (loop : SafetyLoop S D) (cmd : ControlCommand S) (nowNs : UInt64) :
    (loop.prepare cmd nowNs).1.cfg = loop.cfg ∧
      (loop.prepare cmd nowNs).1.lastOut = loop.lastOut ∧
      (loop.prepare cmd nowNs).1.estopLatched = loop.estopLatched := by
  unfold prepare advanceBlend
  dsimp only
  split <;> exact ⟨rfl, rfl, rfl⟩

theorem projectFence_keeps (loop : SafetyLoop S D) (cmd : ControlCommand S)
    (atUnixNs : UInt64) :
    (loop.projectFence cmd atUnixNs).1.cfg = loop.cfg ∧
      (loop.projectFence cmd atUnixNs).1.lastOut = loop.lastOut ∧
      (loop.estopLatched = true → (loop.projectFence cmd atUnixNs).1.estopLatched = true) := by
  rcases loop.projectFence_cases cmd atUnixNs with ⟨same, -⟩ | ⟨stopped, -⟩
  · rw [same]
    exact ⟨rfl, rfl, id⟩
  · rw [stopped]
    exact ⟨rfl, rfl, fun _ => rfl⟩

/-- No call but a tick touches the limits or the last accepted command, and none takes the
latch back. -/
theorem perform_keeps (loop : SafetyLoop S D) (action : Action S D)
    (noTick : ∀ nowNs atUnixNs, action ≠ .processOne nowNs atUnixNs) :
    (loop.perform action).cfg = loop.cfg ∧ (loop.perform action).lastOut = loop.lastOut ∧
      (loop.estopLatched = true → (loop.perform action).estopLatched = true) := by
  cases action with
  | requestMode mode atUnixNs =>
      simp only [perform, requestMode]
      split <;> exact ⟨rfl, rfl, id⟩
  | emergencyStop atUnixNs => exact ⟨rfl, rfl, fun _ => rfl⟩
  | processOne nowNs atUnixNs => exact absurd rfl (noTick nowNs atUnixNs)
  | popOutput =>
      simp only [perform]
      split <;> exact ⟨rfl, rfl, id⟩
  | setPose | setAutonomyBaseline | engageAiVeto | disengageAiVeto | machineForceEmergencyStop
  | machineTryTransition | pushInput => exact ⟨rfl, rfl, id⟩

theorem advanceBlend_keeps (loop : SafetyLoop S D) :
    loop.advanceBlend.cfg = loop.cfg ∧ loop.advanceBlend.lastOut = loop.lastOut ∧
      loop.advanceBlend.veto = loop.veto := by
  unfold advanceBlend
  split <;> exact ⟨rfl, rfl, rfl⟩

theorem handle_cases {loop after : SafetyLoop S D} {cmd : ControlCommand S} {drained : Nat}
    {nowNs atUnixNs : UInt64}
    (handled : loop.handle nowNs atUnixNs = some (after, cmd, drained)) :
    ∃ newest : ControlCommand S, ∃ idle : SafetyLoop S D, idle.cfg = loop.cfg ∧
      idle.lastOut = loop.lastOut ∧ idle.veto = loop.veto ∧
      idle.intercept newest nowNs atUnixNs = (after, cmd) := by
  obtain ⟨cfg, lastOut, veto⟩ := loop.advanceBlend_keeps
  obtain ⟨newest, -, result⟩ := handle_eq_some handled
  exact ⟨newest, { loop.advanceBlend with input := loop.advanceBlend.input.drain.2 },
    cfg, lastOut, veto, result⟩

theorem intercept_keeps (loop : SafetyLoop S D) (cmd : ControlCommand S)
    (nowNs atUnixNs : UInt64) :
    (loop.intercept cmd nowNs atUnixNs).1.cfg = loop.cfg ∧
      (loop.intercept cmd nowNs atUnixNs).1.lastOut = (loop.intercept cmd nowNs atUnixNs).2 := by
  obtain ⟨cfg, _, _⟩ := prepare_keeps loop cmd nowNs
  obtain ⟨cfg', _, _⟩ := projectFence_keeps (loop.prepare cmd nowNs).1
    (loop.prepare cmd nowNs).2 atUnixNs
  exact ⟨cfg'.trans cfg, rfl⟩

/-- A tick leaves its command as the last accepted one. -/
theorem handle_keeps {loop after : SafetyLoop S D} {cmd : ControlCommand S} {drained : Nat}
    {nowNs atUnixNs : UInt64}
    (handled : loop.handle nowNs atUnixNs = some (after, cmd, drained)) :
    after.cfg = loop.cfg ∧ after.lastOut = cmd := by
  obtain ⟨newest, idle, cfg, _, _, result⟩ := handle_cases handled
  obtain ⟨cfg', lastOut⟩ := idle.intercept_keeps newest nowNs atUnixNs
  rw [result] at cfg' lastOut
  exact ⟨cfg'.trans cfg, lastOut⟩

theorem cfg_perform (loop : SafetyLoop S D) (action : Action S D) :
    (loop.perform action).cfg = loop.cfg := by
  by_cases tick : ∃ nowNs atUnixNs, action = .processOne nowNs atUnixNs
  · obtain ⟨nowNs, atUnixNs, rfl⟩ := tick
    simp only [perform, processOne]
    cases handled : loop.handle nowNs atUnixNs with
    | none => exact loop.advanceBlend_keeps.1
    | some result =>
        obtain ⟨after, cmd, drained⟩ := result
        dsimp only
        split <;> exact (handle_keeps handled).1
  · apply (loop.perform_keeps action _).1
    intro nowNs atUnixNs same
    exact tick ⟨nowNs, atUnixNs, same⟩

end Frames

section Ticks

variable {D : Type} [FloatOps D] [FloatPair ℚ D] {loop : SafetyLoop ℚ D}

omit [FloatPair ℚ D] in
/-- The predictive brake touches nothing but the throttle, which it only lowers. -/
theorem lowers_brake (loop : SafetyLoop ℚ D) (cmd : ControlCommand ℚ) :
    Lowers cmd (loop.brake cmd).2 := by
  unfold brake
  dsimp only
  refine (lowers_setAxis ?_ ?_).trans (lowers_setAxis ?_ ?_)
  · norm_num
  · intro braking
    simp only [Bool.and_eq_true, lt_rat, ofRat_rat, decide_eq_true_eq] at braking
    exact braking.2.le
  · norm_num
  · intro overshooting
    have neutral := of_decide_eq_true ((Bool.and_eq_true _ _).mp overshooting).2
    have pinned : (ofRat 0.3 : ℚ) < throttleNeutral := by
      simp only [throttleNeutral, ofRat_rat]
      norm_num
    exact (pinned.trans neutral).le

/-- What one processed command is: the safe state of a latched loop, or the output of limiter
and brake after the last accepted command. -/
inductive Outputs (limits : KinematicLimits ℚ) (last : ControlCommand ℚ) (nowNs : UInt64) :
    Bool → ControlCommand ℚ → Prop
  | latched (seq : UInt64) : Outputs limits last nowNs true (writeEmergencyStop seq nowNs)
  | limited {raw cmd : ControlCommand ℚ} : Lowers (limits.apply last raw).1 cmd →
      Outputs limits last nowNs false cmd

/-- Limiter, brake and override on what the fence stage returns. -/
def finish (fenced : SafetyLoop ℚ D × ControlCommand ℚ) (nowNs : UInt64) :
    SafetyLoop ℚ D × ControlCommand ℚ :=
  let (loop, cmd) := fenced.1.limit fenced.2
  let cmd := if loop.estopLatched then writeEmergencyStop cmd.seq nowNs else cmd
  ({ loop with lastOut := cmd }, cmd)

omit [FloatPair ℚ D] in
theorem outputs_finish (fenced : SafetyLoop ℚ D × ControlCommand ℚ) (nowNs : UInt64) :
    Outputs fenced.1.cfg.limits fenced.1.lastOut nowNs fenced.1.estopLatched
        (finish fenced nowNs).2 ∧
      (finish fenced nowNs).1.estopLatched = fenced.1.estopLatched ∧
      (finish fenced nowNs).1.cfg = fenced.1.cfg ∧
      (finish fenced nowNs).1.lastOut = (finish fenced nowNs).2 := by
  refine ⟨?_, rfl, rfl, rfl⟩
  cases stopped : fenced.1.estopLatched with
  | true =>
      have override : (finish fenced nowNs).2 =
          writeEmergencyStop (fenced.1.limit fenced.2).2.seq nowNs := if_pos stopped
      rw [override]
      exact .latched _
  | false =>
      have kept : (finish fenced nowNs).2 = (fenced.1.limit fenced.2).2 :=
        if_neg (ne_true_of_eq_false stopped)
      rw [kept]
      exact .limited (lowers_brake _ _)

theorem outputs_intercept (loop : SafetyLoop ℚ D) (cmd : ControlCommand ℚ)
    (nowNs atUnixNs : UInt64) :
    Outputs loop.cfg.limits loop.lastOut nowNs
        (loop.intercept cmd nowNs atUnixNs).1.estopLatched
        (loop.intercept cmd nowNs atUnixNs).2 ∧
      (loop.intercept cmd nowNs atUnixNs).1.cfg = loop.cfg ∧
      (loop.intercept cmd nowNs atUnixNs).1.lastOut = (loop.intercept cmd nowNs atUnixNs).2 ∧
      (loop.estopLatched = true →
        (loop.intercept cmd nowNs atUnixNs).1.estopLatched = true) := by
  obtain ⟨cfg, lastOut, latch⟩ := prepare_keeps loop cmd nowNs
  obtain ⟨cfg', lastOut', latch'⟩ := projectFence_keeps (loop.prepare cmd nowNs).1
    (loop.prepare cmd nowNs).2 atUnixNs
  have whole : loop.intercept cmd nowNs atUnixNs = finish ((loop.prepare cmd nowNs).1.projectFence
      (loop.prepare cmd nowNs).2 atUnixNs) nowNs := rfl
  obtain ⟨outputs, finishLatch, finishCfg, finishOut⟩ := outputs_finish
    ((loop.prepare cmd nowNs).1.projectFence (loop.prepare cmd nowNs).2 atUnixNs) nowNs
  rw [cfg', cfg, lastOut', lastOut, ← finishLatch] at outputs
  rw [whole]
  refine ⟨outputs, ?_, finishOut, ?_⟩
  · rw [finishCfg, cfg', cfg]
  · intro latched
    rw [finishLatch]
    exact latch' (latch.trans latched)

/-- A tick that processes a command: how its output relates to the loop before the tick. -/
theorem outputs_handle {after : SafetyLoop ℚ D} {nowNs atUnixNs : UInt64}
    {cmd : ControlCommand ℚ} {drained : Nat}
    (handled : loop.handle nowNs atUnixNs = some (after, cmd, drained)) :
    Outputs loop.cfg.limits loop.lastOut nowNs after.estopLatched cmd ∧
      after.cfg = loop.cfg ∧ after.lastOut = cmd ∧
      (loop.estopLatched = true → after.estopLatched = true) := by
  have advanced : loop.advanceBlend.cfg = loop.cfg ∧
      loop.advanceBlend.lastOut = loop.lastOut ∧
      loop.advanceBlend.estopLatched = loop.estopLatched := by
    unfold advanceBlend
    split <;> exact ⟨rfl, rfl, rfl⟩
  obtain ⟨cfg, lastOut, latch⟩ := advanced
  obtain ⟨newest, -, result⟩ := handle_eq_some handled
  have outputs := outputs_intercept
    { loop.advanceBlend with input := loop.advanceBlend.input.drain.2 } newest nowNs atUnixNs
  rw [result] at outputs
  rw [← cfg, ← lastOut, ← latch]
  exact outputs

end Ticks

/-- A processed command, pushed or dropped, with the latch as it was then. -/
structure Processed where
  command : ControlCommand ℚ
  latched : Bool

/-- A loop with the commands it has processed and those it has pushed, the newest first. -/
structure Traced (D : Type) where
  loop : SafetyLoop ℚ D
  processed : List Processed
  pushed : List (ControlCommand ℚ)

section Runs

variable {D : Type} [FloatOps D] [FloatPair ℚ D]

/-- Performs one call and records what a tick has processed and pushed. -/
def Traced.perform (traced : Traced D) (action : Action ℚ D) : Traced D :=
  let loop := traced.loop.perform action
  match action with
  | .processOne nowNs atUnixNs =>
      match traced.loop.handle nowNs atUnixNs with
      | none => { traced with loop }
      | some (after, cmd, _) =>
          { loop
            processed := ⟨cmd, after.estopLatched⟩ :: traced.processed
            pushed :=
              match after.output.push cmd with
              | .ok _ => cmd :: traced.pushed
              | .error _ => traced.pushed }
  | _ => { traced with loop }

variable (D) in
/-- All runs of loops with one configuration. -/
def tracedSystem (cfg : SafetyConfig ℚ D) : TransitionSystem (Traced D) (Action ℚ D) :=
  .ofNext (fun traced => ∃ input output machine,
      traced = ⟨new input output machine cfg, [], []⟩)
    fun traced action => some (traced.perform action)

/-- A call that processes nothing, or a tick that processes one command. -/
inductive Traced.Performs (traced : Traced D) : Action ℚ D → Traced D → Prop
  | idle {action : Action ℚ D} {loop : SafetyLoop ℚ D} : loop.cfg = traced.loop.cfg →
      loop.lastOut = traced.loop.lastOut →
      (traced.loop.estopLatched = true → loop.estopLatched = true) →
      Performs traced action { traced with loop }
  | tick {nowNs atUnixNs : UInt64} {loop : SafetyLoop ℚ D} {cmd : ControlCommand ℚ}
      {pushed : List (ControlCommand ℚ)} :
      Outputs traced.loop.cfg.limits traced.loop.lastOut nowNs loop.estopLatched cmd →
      loop.cfg = traced.loop.cfg → loop.lastOut = cmd →
      (traced.loop.estopLatched = true → loop.estopLatched = true) →
      (∀ value ∈ pushed, value = cmd ∨ value ∈ traced.pushed) →
      Performs traced (.processOne nowNs atUnixNs)
        ⟨loop, ⟨cmd, loop.estopLatched⟩ :: traced.processed, pushed⟩

theorem Traced.performs_processOne (traced : Traced D) (nowNs atUnixNs : UInt64) :
    traced.Performs (.processOne nowNs atUnixNs)
      (traced.perform (.processOne nowNs atUnixNs)) := by
  cases handled : traced.loop.handle nowNs atUnixNs with
  | none =>
      have advanced : (traced.loop.perform (.processOne nowNs atUnixNs)) =
          traced.loop.advanceBlend := by
        simp only [SafetyLoop.perform, processOne, handled]
      simp only [Traced.perform, handled]
      rw [advanced]
      unfold advanceBlend
      split <;> exact .idle rfl rfl id
  | some result =>
      obtain ⟨after, cmd, drained⟩ := result
      obtain ⟨outputs, cfg, lastOut, latch⟩ := outputs_handle handled
      cases pushed : after.output.push cmd with
      | ok output =>
          simp only [Traced.perform, SafetyLoop.perform, processOne, handled, pushed]
          refine .tick outputs cfg lastOut latch ?_
          intro value member
          exact List.mem_cons.mp member
      | error refused =>
          simp only [Traced.perform, SafetyLoop.perform, processOne, handled, pushed]
          refine .tick outputs cfg lastOut latch ?_
          intro value member
          exact .inr member

theorem Traced.performs (traced : Traced D) (action : Action ℚ D) :
    traced.Performs action (traced.perform action) := by
  by_cases tick : ∃ nowNs atUnixNs, action = .processOne nowNs atUnixNs
  · obtain ⟨nowNs, atUnixNs, rfl⟩ := tick
    exact traced.performs_processOne nowNs atUnixNs
  · have noTick : ∀ nowNs atUnixNs, action ≠ .processOne nowNs atUnixNs := by
      intro nowNs atUnixNs same
      exact tick ⟨nowNs, atUnixNs, same⟩
    obtain ⟨cfg, lastOut, latch⟩ := traced.loop.perform_keeps action noTick
    unfold Traced.perform
    dsimp only
    split
    · exact absurd rfl (noTick _ _)
    · exact .idle cfg lastOut latch

/-- What the limiter guarantees about a whole run. -/
structure Enveloped (limits : KinematicLimits ℚ) (traced : Traced D) : Prop where
  /-- Whatever was pushed or dropped is inside the envelope. -/
  inside : ∀ out ∈ traced.processed, InEnvelope limits out.command
  pushed : ∀ cmd ∈ traced.pushed, InEnvelope limits cmd
  /-- An output that the latch did not override follows the one before it. -/
  steps : traced.processed.IsChain fun later earlier =>
    later.latched = false → Follows limits earlier.command later.command
  /-- An output of a latched loop is the safe state. -/
  safe : ∀ out ∈ traced.processed, out.latched = true →
    ∃ seq nowNs, out.command = writeEmergencyStop seq nowNs

/-- The envelope with what ties it to the loop: the last accepted command is inside it and is
the newest output. -/
structure Kept (cfg : SafetyConfig ℚ D) (traced : Traced D) : Prop
    extends Enveloped cfg.limits traced where
  cfg_eq : traced.loop.cfg = cfg
  lastInside : InEnvelope cfg.limits traced.loop.lastOut
  newest : ∀ out ∈ traced.processed.head?, traced.loop.lastOut = out.command

theorem Outputs.follows {limits : KinematicLimits ℚ} (nonneg : limits.NonNeg)
    {last cmd : ControlCommand ℚ} {nowNs : UInt64} {latched : Bool}
    (outputs : Outputs limits last nowNs latched cmd) (running : latched = false) :
    Follows limits last cmd := by
  cases outputs with
  | latched seq => cases running
  | limited lowers => exact (follows_apply nonneg).lower lowers

theorem Outputs.safe {limits : KinematicLimits ℚ} {last cmd : ControlCommand ℚ}
    {nowNs : UInt64} {latched : Bool} (outputs : Outputs limits last nowNs latched cmd)
    (stopped : latched = true) : ∃ seq nowNs, cmd = writeEmergencyStop seq nowNs := by
  cases outputs with
  | latched seq => exact ⟨seq, nowNs, rfl⟩
  | limited lowers => cases stopped

theorem Outputs.inEnvelope {limits : KinematicLimits ℚ} (nonneg : limits.NonNeg)
    {last cmd : ControlCommand ℚ} {nowNs : UInt64} {latched : Bool}
    (inside : InEnvelope limits last) (outputs : Outputs limits last nowNs latched cmd) :
    InEnvelope limits cmd := by
  cases outputs with
  | latched seq => exact inEnvelope_of_zero nonneg (safeState_writeEmergencyStop _ _).axes_eq
  | limited lowers => exact (inEnvelope_apply nonneg inside).lower lowers

omit [FloatOps D] [FloatPair ℚ D] in
theorem Kept.performs {cfg : SafetyConfig ℚ D} (nonneg : cfg.limits.NonNeg)
    {traced target : Traced D} {action : Action ℚ D} (kept : Kept cfg traced)
    (performs : traced.Performs action target) : Kept cfg target := by
  cases performs with
  | idle sameCfg sameOut latch =>
      refine ⟨⟨kept.inside, kept.pushed, kept.steps, kept.safe⟩, sameCfg.trans kept.cfg_eq, ?_, ?_⟩
      · rw [sameOut]
        exact kept.lastInside
      · rw [sameOut]
        exact kept.newest
  | @tick nowNs atUnixNs loop cmd pushed outputs sameCfg isOut latch among =>
      rw [kept.cfg_eq] at outputs sameCfg
      have inside := outputs.inEnvelope nonneg kept.lastInside
      refine ⟨⟨?_, ?_, ?_, ?_⟩, sameCfg, ?_, ?_⟩
      · exact List.forall_mem_cons.mpr ⟨inside, kept.inside⟩
      · intro value member
        rcases among value member with rfl | member
        · exact inside
        · exact kept.pushed value member
      · refine List.isChain_cons.mpr ⟨?_, kept.steps⟩
        intro earlier first running
        rw [← kept.newest earlier first]
        exact outputs.follows nonneg running
      · exact List.forall_mem_cons.mpr ⟨outputs.safe, kept.safe⟩
      · rw [isOut]
        exact inside
      · intro out first
        cases first
        exact isOut

theorem kept_of_reachable {cfg : SafetyConfig ℚ D} (nonneg : cfg.limits.NonNeg)
    {traced : Traced D} (reached : (tracedSystem D cfg).Reachable traced) : Kept cfg traced := by
  apply reached.invariant
  · rintro traced ⟨input, output, machine, rfl⟩
    refine ⟨⟨by simp, by simp, List.isChain_nil, by simp⟩, rfl, ?_, by simp⟩
    exact inEnvelope_of_zero nonneg fun axis => rfl
  · intro traced action target kept stepped
    cases stepped
    exact kept.performs nonneg (traced.performs action)

/-- From a latched loop on, a run only ever processes the safe state. -/
theorem safe_of_latched {cfg : SafetyConfig ℚ D} {traced target : Traced D}
    {actions : List (Action ℚ D)}
    (execution : (tracedSystem D cfg).Execution traced actions target)
    (latched : traced.loop.estopLatched = true) :
    ∃ newer, target.processed = newer ++ traced.processed ∧
      ∀ out ∈ newer, ∃ seq nowNs, out.command = writeEmergencyStop seq nowNs := by
  induction execution with
  | nil state => exact ⟨[], rfl, by simp⟩
  | @cons source middle target action actions stepped rest inductionHypothesis =>
      cases stepped
      have performs := source.performs action
      generalize source.perform action = middle at performs inductionHypothesis
      cases performs with
      | idle sameCfg sameOut latch => exact inductionHypothesis (latch latched)
      | @tick nowNs atUnixNs loop cmd pushed outputs sameCfg isOut latch among =>
          obtain ⟨newer, grown, safe⟩ := inductionHypothesis (latch latched)
          refine ⟨newer ++ [⟨cmd, loop.estopLatched⟩], by simp [grown], ?_⟩
          intro out member
          rcases List.mem_append.mp member with member | member
          · exact safe out member
          · cases List.mem_singleton.mp member
            exact outputs.safe (latch latched)

/-- In every run of a loop with nonnegative limits the outputs stay in the envelope, follow
each other within the slew limits while the stop is not latched, and are the safe state from
the moment it is. -/
theorem enveloped_of_reachable {cfg : SafetyConfig ℚ D} (nonneg : cfg.limits.NonNeg)
    {traced : Traced D} (reached : (tracedSystem D cfg).Reachable traced) :
    Enveloped cfg.limits traced ∧ ∀ actions target,
      (tracedSystem D cfg).Execution traced actions target →
        traced.loop.estopLatched = true → ∃ newer, target.processed = newer ++ traced.processed ∧
          ∀ out ∈ newer, ∃ seq nowNs, out.command = writeEmergencyStop seq nowNs :=
  ⟨(kept_of_reachable nonneg reached).toEnveloped,
    fun _ _ execution latched => safe_of_latched execution latched⟩

end Runs

/-- An operator command with all axes at one value. -/
def thrown (axis : ℚ) : Action ℚ ℚ :=
  .pushInput { (.zeroed .fullTeleop : ControlCommand ℚ) with axes := fun _ => axis }

/-- Two operator commands far outside the envelope, on either side of it, and a tick on each. -/
def fullThrow : Traced ℚ :=
  ((((⟨fresh, [], []⟩ : Traced ℚ).perform (thrown 5)).perform (.processOne 1 1)).perform
    (thrown (-5))).perform (.processOne 11 11)

theorem nonNeg_default : (KinematicLimits.default : KinematicLimits ℚ).NonNeg := by
  constructor <;> simp only [KinematicLimits.default, ofRat_rat] <;> norm_num

theorem enveloped_fullThrow : fullThrow.processed.length = 2 ∧
    Enveloped .default fullThrow := by
  have start : (tracedSystem ℚ .default).Reachable ⟨fresh, [], []⟩ :=
    .of_initial ⟨_, _, _, rfl⟩
  exact ⟨by decide +kernel,
    (enveloped_of_reachable nonNeg_default
      ((((start.step rfl).step rfl).step rfl).step rfl)).1⟩

end SafetyLoop

end Teleop.Safety
