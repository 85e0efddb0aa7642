import Mathlib.Tactic.NormNum
import Mathlib.Tactic.Ring
import Teleop.Safety.Envelope

/-!
# The predictive ceiling brake

In exact arithmetic, whatever `hypot` returns.  The predicted stopping distance is a parabola
in the vertical speed.  It is meant for a climb, and it grows again in a descent: a vehicle that
falls fast enough away from the ceiling is braked as if it were about to pass it.  Once the
brake is latched, it holds the throttle down until it may be released.
-/

namespace Teleop.Safety

open Teleop.Core Teleop.Core.ControlCommand Teleop.Ring Teleop.Lib Teleop.Lib.FloatOps

/-- The stopping distance at full descent, with the lag of the motors. -/
def stopDist (v : ℚ) : ℚ := v * v / (2 * 3.45) + v * 0.15

namespace SafetyLoop

section Stage

variable (loop : SafetyLoop ℚ ℚ) (cmd : ControlCommand ℚ)

/-- The vehicle is predicted to reach the ceiling. -/
def Overshoots : Prop := loop.cfg.fence.maxAltM ≤ loop.pose.z + stopDist loop.vzEst

/-- The vehicle does not climb and is back under 90 % of the ceiling. -/
def Releasing : Prop := loop.vzEst ≤ 0.5 ∧ loop.pose.z ≤ loop.cfg.fence.maxAltM * 0.9

instance decidableOvershoots : Decidable loop.Overshoots :=
  inferInstanceAs (Decidable (loop.cfg.fence.maxAltM ≤ loop.pose.z + stopDist loop.vzEst))

instance decidableReleasing : Decidable loop.Releasing :=
  inferInstanceAs
    (Decidable (loop.vzEst ≤ 0.5 ∧ loop.pose.z ≤ loop.cfg.fence.maxAltM * 0.9))

theorem decide_releasing : decide loop.Releasing =
    (decide (loop.vzEst ≤ 0.5) && decide (loop.pose.z ≤ loop.cfg.fence.maxAltM * 0.9)) :=
  Bool.decide_and _ _

/-- The brake is latched on a prediction and kept until it is released. -/
theorem brakeLatched_brake :
    (loop.brake cmd).1.brakeLatched =
      ((loop.brakeLatched || decide loop.Overshoots) && !decide loop.Releasing) := by
  rw [decide_releasing]
  rfl

/-- A latched brake pins the throttle, and so does a prediction above neutral. -/
theorem throttle_brake :
    (loop.brake cmd).2.axes throttle =
      if ((loop.brake cmd).1.brakeLatched = true ∧ 0.3 < cmd.axes throttle) ∨
          (loop.Overshoots ∧ 0.5 < cmd.axes throttle) then 0.3
      else cmd.axes throttle := by
  have stage : (loop.brake cmd).2 =
      let pinned :=
        if (loop.brake cmd).1.brakeLatched && lt 0.3 (cmd.axes throttle) then
          cmd.setAxis throttle 0.3
        else cmd
      if decide loop.Overshoots && lt 0.5 (pinned.axes throttle) then
        pinned.setAxis throttle 0.3
      else pinned := rfl
  rw [stage]
  by_cases pinned : (loop.brake cmd).1.brakeLatched = true ∧ 0.3 < cmd.axes throttle
  · have below : ¬ (0.5 : ℚ) < 0.3 := by norm_num
    simp [pinned, setAxis, below]
  · simp [pinned, setAxis]
    split <;> simp_all

/-- A latched brake leaves at most the throttle of the descent. -/
theorem throttle_brake_le (latched : (loop.brake cmd).1.brakeLatched = true) :
    (loop.brake cmd).2.axes throttle ≤ 0.3 := by
  rw [throttle_brake]
  split
  · exact le_rfl
  · rename_i spared
    exact not_lt.mp fun above => spared (.inl ⟨latched, above⟩)

/-- When an unlatched brake leaves the throttle of a vehicle that does not climb. -/
theorem spares_iff (unlatched : loop.brakeLatched = false) (descending : loop.vzEst ≤ 0) :
    cmd.axes throttle ≤ (loop.brake cmd).2.axes throttle ↔
      ¬ loop.Overshoots ∨ cmd.axes throttle ≤ 0.3 ∨
        (cmd.axes throttle ≤ 0.5 ∧ loop.pose.z ≤ loop.cfg.fence.maxAltM * 0.9) := by
  have slow : loop.vzEst ≤ 0.5 := descending.trans (by norm_num)
  rw [throttle_brake, brakeLatched_brake, unlatched]
  by_cases overshoots : loop.Overshoots
  · have released : loop.Releasing ↔ loop.pose.z ≤ loop.cfg.fence.maxAltM * 0.9 :=
      and_iff_right slow
    by_cases above : 0.3 < cmd.axes throttle
    · by_cases neutral : cmd.axes throttle ≤ 0.5
      · by_cases low : loop.pose.z ≤ loop.cfg.fence.maxAltM * 0.9
        · simp [overshoots, released, neutral, low, not_lt.mpr neutral]
        · simp [overshoots, released, above, low]
      · simp [overshoots, neutral, not_le.mp neutral]
    · have within : cmd.axes throttle ≤ 0.3 := not_lt.mp above
      have neutral : ¬ 0.5 < cmd.axes throttle :=
        not_lt.mpr (within.trans (by norm_num))
      simp [above, within, neutral]
  · simp [overshoots]

end Stage

section Ticks

variable [FloatPair ℚ ℚ]

/-- The loop and the command as a tick hands them to the brake; `none` on an idle tick. -/
def atBrake (loop : SafetyLoop ℚ ℚ) (nowNs atUnixNs : UInt64) :
    Option (SafetyLoop ℚ ℚ × ControlCommand ℚ) :=
  let loop := loop.advanceBlend
  let (drained, input) := loop.input.drain
  match drained.getLast? with
  | none => none
  | some newest =>
      let (loop, cmd) := { loop with input }.prepare newest nowNs
      let (loop, cmd) := loop.projectFence cmd atUnixNs
      some (loop, (loop.cfg.limits.apply loop.lastOut cmd).1)

/-- The brake and the emergency override on what a tick hands to the brake. -/
def braked (before : SafetyLoop ℚ ℚ) (cmd : ControlCommand ℚ) (nowNs : UInt64) :
    SafetyLoop ℚ ℚ × ControlCommand ℚ :=
  let (loop, cmd) := before.brake cmd
  let cmd := if loop.estopLatched then writeEmergencyStop cmd.seq nowNs else cmd
  ({ loop with lastOut := cmd }, cmd)

variable {loop : SafetyLoop ℚ ℚ} {nowNs atUnixNs : UInt64}

theorem handle_eq (loop : SafetyLoop ℚ ℚ) (nowNs atUnixNs : UInt64) :
    loop.handle nowNs atUnixNs = (loop.atBrake nowNs atUnixNs).map fun (before, cmd) =>
      ((braked before cmd nowNs).1, (braked before cmd nowNs).2,
        loop.advanceBlend.input.drain.1.length) := by
  unfold handle atBrake
  dsimp only
  cases loop.advanceBlend.input.drain.1.getLast? with
  | none => rfl
  | some newest => rfl

/-- Two loops agree on what the brake reads. -/
structure SameFlight (loop other : SafetyLoop ℚ ℚ) : Prop where
  cfg : other.cfg = loop.cfg
  pose : other.pose = loop.pose
  vzEst : other.vzEst = loop.vzEst
  brakeLatched : other.brakeLatched = loop.brakeLatched

omit [FloatPair ℚ ℚ] in
theorem SameFlight.trans {other third : SafetyLoop ℚ ℚ} (left : SameFlight loop other)
    (right : SameFlight other third) : SameFlight loop third where
  cfg := right.cfg.trans left.cfg
  pose := right.pose.trans left.pose
  vzEst := right.vzEst.trans left.vzEst
  brakeLatched := right.brakeLatched.trans left.brakeLatched

omit [FloatPair ℚ ℚ] in
theorem SameFlight.overshoots_iff {other : SafetyLoop ℚ ℚ} (flight : SameFlight loop other) :
    other.Overshoots ↔ loop.Overshoots := by
  simp only [Overshoots, flight.cfg, flight.pose, flight.vzEst]

omit [FloatPair ℚ ℚ] in
theorem SameFlight.releasing_iff {other : SafetyLoop ℚ ℚ} (flight : SameFlight loop other) :
    other.Releasing ↔ loop.Releasing := by
  simp only [Releasing, flight.cfg, flight.pose, flight.vzEst]

theorem sameFlight_advanceBlend (loop : SafetyLoop ℚ ℚ) : SameFlight loop loop.advanceBlend := by
  unfold advanceBlend
  split <;> exact ⟨rfl, rfl, rfl, rfl⟩

theorem sameFlight_projectFence (loop : SafetyLoop ℚ ℚ) (cmd : ControlCommand ℚ)
    (atUnixNs : UInt64) : SameFlight loop (loop.projectFence cmd atUnixNs).1 := by
  rcases loop.projectFence_cases cmd atUnixNs with ⟨same, _⟩ | ⟨stopped, _⟩
  · rw [same]
    exact ⟨rfl, rfl, rfl, rfl⟩
  · rw [stopped]
    exact ⟨rfl, rfl, rfl, rfl⟩

/-- What the brake reads is what it was before the tick. -/
theorem sameFlight_atBrake {before : SafetyLoop ℚ ℚ} {cmd : ControlCommand ℚ}
    (handed : loop.atBrake nowNs atUnixNs = some (before, cmd)) : SameFlight loop before := by
  unfold atBrake at handed
  dsimp only at handed
  split at handed
  · cases handed
  · rename_i newest found
    cases handed
    apply (sameFlight_advanceBlend loop).trans
    apply SameFlight.trans ?_ (sameFlight_projectFence _ _ _)
    have observed := sameFlight_advanceBlend
      { loop.advanceBlend with
        input := loop.advanceBlend.input.drain.2
        latency := (loop.advanceBlend.latency.observe nowNs newest.timestampNs).1 }
    exact ⟨observed.cfg, observed.pose, observed.vzEst, observed.brakeLatched⟩

/-- A tick is handed to the brake, which leaves the latch and bounds the command. -/
theorem braked_of_handle {after : SafetyLoop ℚ ℚ} {cmd : ControlCommand ℚ} {drained : Nat}
    (handled : loop.handle nowNs atUnixNs = some (after, cmd, drained)) :
    (after.brakeLatched =
        ((loop.brakeLatched || decide loop.Overshoots) && !decide loop.Releasing)) ∧
      (after.brakeLatched = true → cmd.axes throttle ≤ 0.3) := by
  rw [handle_eq] at handled
  obtain ⟨⟨before, target⟩, handed, same⟩ := Option.map_eq_some_iff.mp handled
  cases same
  have flight := sameFlight_atBrake handed
  have latch : (braked before target nowNs).1.brakeLatched = (before.brake target).1.brakeLatched :=
    rfl
  constructor
  · rw [latch, brakeLatched_brake, flight.brakeLatched,
      decide_eq_decide.mpr flight.overshoots_iff, decide_eq_decide.mpr flight.releasing_iff]
  · rw [latch]
    intro latched
    unfold braked
    dsimp only
    split
    · exact (by norm_num : (0 : ℚ) ≤ 0.3)
    · exact before.throttle_brake_le target latched

/-- The step is no tick on a command at which the brake may be released. -/
def KeepsBraking (loop : SafetyLoop ℚ ℚ) : Action ℚ ℚ → Prop
  | .processOne nowNs atUnixNs => (loop.handle nowNs atUnixNs).isSome → ¬ loop.Releasing
  | _ => True

/-- No step but a tick that releases it takes the brake back. -/
theorem brakeLatched_perform {action : Action ℚ ℚ} (keeps : loop.KeepsBraking action)
    (latched : loop.brakeLatched = true) : (loop.perform action).brakeLatched = true := by
  cases action with
  | requestMode mode atUnixNs =>
      simp only [perform, requestMode]
      split <;> exact latched
  | processOne nowNs atUnixNs =>
      simp only [perform, processOne]
      cases handled : loop.handle nowNs atUnixNs with
      | none => exact (sameFlight_advanceBlend loop).brakeLatched.trans latched
      | some result =>
          obtain ⟨after, cmd, drained⟩ := result
          have held : ¬ loop.Releasing := keeps (by rw [handled]; rfl)
          have still : after.brakeLatched = true := by
            rw [(braked_of_handle handled).1, latched]
            simp [held]
          dsimp only
          split <;> exact still
  | popOutput =>
      simp only [perform]
      split <;> exact latched
  | emergencyStop | setPose | setAutonomyBaseline | engageAiVeto | disengageAiVeto
  | machineForceEmergencyStop | machineTryTransition | pushInput => exact latched

/-- The ceiling brake on one tick and on what follows it. -/
structure BrakesProperly (loop : SafetyLoop ℚ ℚ) (nowNs atUnixNs : UInt64) : Prop where
  /-- An unlatched brake spares a vehicle that does not climb and is below the ceiling. -/
  spares : ∀ before cmd, loop.atBrake nowNs atUnixNs = some (before, cmd) →
    loop.brakeLatched = false → loop.vzEst ≤ 0 → loop.pose.z < loop.cfg.fence.maxAltM →
      cmd.axes throttle ≤ (before.brake cmd).2.axes throttle
  /-- A tick that leaves the brake latched, and every later one until the brake may be released,
  has at most the throttle of the descent. -/
  holds : ∀ after cmd drained, loop.handle nowNs atUnixNs = some (after, cmd, drained) →
    after.brakeLatched = true →
      cmd.axes throttle ≤ 0.3 ∧ ∀ actions later,
        ((system ℚ ℚ).restrict KeepsBraking).Execution (loop.processOne nowNs atUnixNs).1 actions
          later → ∀ nowNs atUnixNs after cmd drained, ¬ later.Releasing →
            later.handle nowNs atUnixNs = some (after, cmd, drained) → cmd.axes throttle ≤ 0.3

/-- The descent is not fast enough to be predicted to overshoot, or the command is low enough. -/
def Spared (loop : SafetyLoop ℚ ℚ) (nowNs atUnixNs : UInt64) : Prop :=
  ∀ before cmd, loop.atBrake nowNs atUnixNs = some (before, cmd) →
    loop.brakeLatched = false → loop.vzEst ≤ 0 → loop.pose.z < loop.cfg.fence.maxAltM →
      ¬ loop.Overshoots ∨ cmd.axes throttle ≤ 0.3 ∨
        (cmd.axes throttle ≤ 0.5 ∧ loop.pose.z ≤ loop.cfg.fence.maxAltM * 0.9)

theorem holds_of_latched {after : SafetyLoop ℚ ℚ} {cmd : ControlCommand ℚ} {drained : Nat}
    (handled : loop.handle nowNs atUnixNs = some (after, cmd, drained))
    (latched : after.brakeLatched = true) {actions : List (Action ℚ ℚ)} {later : SafetyLoop ℚ ℚ}
    (execution : ((system ℚ ℚ).restrict KeepsBraking).Execution
      (loop.processOne nowNs atUnixNs).1 actions later) :
    later.brakeLatched = true := by
  apply execution.preserves (P := fun loop => loop.brakeLatched = true)
  · rintro state action target latched ⟨keeps, stepped⟩
    cases stepped
    exact brakeLatched_perform keeps latched
  · simp only [processOne, handled]
    split <;> exact latched

/-- On each tick the brake works as it should exactly when it spares a descent; what holds from a
latching tick on needs no condition. -/
theorem brakesProperly_iff (loop : SafetyLoop ℚ ℚ) (nowNs atUnixNs : UInt64) :
    BrakesProperly loop nowNs atUnixNs ↔ Spared loop nowNs atUnixNs := by
  have each : ∀ before cmd, loop.atBrake nowNs atUnixNs = some (before, cmd) →
      loop.brakeLatched = false → loop.vzEst ≤ 0 →
        (cmd.axes throttle ≤ (before.brake cmd).2.axes throttle ↔
          ¬ loop.Overshoots ∨ cmd.axes throttle ≤ 0.3 ∨
            (cmd.axes throttle ≤ 0.5 ∧ loop.pose.z ≤ loop.cfg.fence.maxAltM * 0.9)) := by
    intro before cmd handed unlatched descending
    have flight := sameFlight_atBrake handed
    have spares := before.spares_iff cmd (flight.brakeLatched.trans unlatched)
      (flight.vzEst.trans_le descending)
    rwa [flight.overshoots_iff, flight.pose, flight.cfg] at spares
  constructor
  · intro proper before cmd handed unlatched descending below
    exact (each before cmd handed unlatched descending).mp
      (proper.spares before cmd handed unlatched descending below)
  · intro spared
    refine ⟨?_, ?_⟩
    · intro before cmd handed unlatched descending below
      exact (each before cmd handed unlatched descending).mpr
        (spared before cmd handed unlatched descending below)
    · intro after cmd drained handled latched
      refine ⟨(braked_of_handle handled).2 latched, ?_⟩
      intro actions later execution nowNs' atUnixNs' after' cmd' drained' held handled'
      apply (braked_of_handle handled').2
      rw [(braked_of_handle handled').1, holds_of_latched handled latched execution]
      simp [held]

/-- Each tick of a run meets a condition on the loop before it. -/
def EachTick (condition : SafetyLoop ℚ ℚ → UInt64 → UInt64 → Prop) :
    SafetyLoop ℚ ℚ → List (Action ℚ ℚ) → Prop
  | _, [] => True
  | loop, action :: rest =>
      (∀ nowNs atUnixNs, action = .processOne nowNs atUnixNs → condition loop nowNs atUnixNs) ∧
        EachTick condition (loop.perform action) rest

/-- The brake works as it should on every tick of a run exactly when each of them spares a
descent. -/
theorem eachTick_brakesProperly_iff (input output : SpscRing (ControlCommand ℚ))
    (machine : StateMachine) (cfg : SafetyConfig ℚ ℚ) (actions : List (Action ℚ ℚ)) :
    EachTick BrakesProperly (new input output machine cfg) actions ↔
      EachTick Spared (new input output machine cfg) actions := by
  generalize new input output machine cfg = loop
  induction actions generalizing loop with
  | nil => exact Iff.rfl
  | cons action rest inductionHypothesis =>
      unfold EachTick
      simp only [brakesProperly_iff, inductionHypothesis]

end Ticks

/-- The default limits, but for a throttle that may move at once. -/
def promptThrottle : SafetyConfig ℚ ℚ :=
  { SafetyConfig.default with
    limits := { KinematicLimits.default with maxThrottleStep := 1 } }

/-- Two poses 5 ms and 10 cm apart, and an autonomy at full throttle. -/
def descent : List (Action ℚ ℚ) :=
  [.setPose { Pose6D.default with z := 100.1 }, .setPose { Pose6D.default with z := 100 },
    .setAutonomyBaseline ((zeroed .auto).setAxis throttle 1), .pushInput (zeroed .auto)]

/-- A vehicle that falls at 20 m/s, 20 m below the ceiling. -/
def falling : SafetyLoop ℚ ℚ :=
  descent.foldl perform (new (.withCapacity 4) (.withCapacity 4) .new promptThrottle)

/-- The falling vehicle is braked. -/
theorem not_brakesProperly_falling :
    ¬ ∀ input output machine cfg actions,
      EachTick BrakesProperly (new input output machine cfg) actions := by
  intro proper
  obtain ⟨-, -, -, -, tick, -⟩ := proper (.withCapacity 4) (.withCapacity 4) .new promptThrottle
    (descent ++ [.processOne 1 1])
  have spares : BrakesProperly falling 1 1 := tick 1 1 rfl
  have lowered : (falling.atBrake 1 1).map (fun (before, cmd) =>
      (cmd.axes throttle, (before.brake cmd).2.axes throttle)) = some (1, 0.3) := by
    decide +kernel
  obtain ⟨⟨before, cmd⟩, handed, throttles⟩ := Option.map_eq_some_iff.mp lowered
  have kept := spares.spares before cmd handed (by decide +kernel) (by decide +kernel)
    (by decide +kernel)
  obtain ⟨full, pinned⟩ := Prod.mk.inj throttles
  rw [full, pinned] at kept
  exact absurd kept (by norm_num)

end SafetyLoop

end Teleop.Safety
