import Teleop.Safety.Envelope
import Teleop.Safety.OutwardMotion

/-!
# What is sent under a veto

Over the reals.  The cap of the veto is applied to the command of the operator, and the slew
limiter, which runs later, starts from the last accepted command.  So an output above the cap
comes down to it by one limited step a tick; the stages between and behind only make an axis
smaller.
-/

namespace Teleop.Safety

open Teleop.Core Teleop.Core.ControlCommand Teleop.Ring Teleop.Lib Teleop.Lib.FloatOps

/-- The cap that the gate applies. -/
def VetoGate.effectiveCap {S : Type} [FloatOps S] (gate : VetoGate S) : S :=
  FloatOps.max gate.cap (ofRat 0.01)

namespace VetoGate

theorem effectiveCap_pos (gate : VetoGate ℝ) : 0 < gate.effectiveCap := by
  unfold effectiveCap
  rw [max_real]
  exact lt_max_of_lt_right (by norm_num)

/-- An engaged gate clamps one axis after the other. -/
theorem apply_eq {gate : VetoGate ℝ} (engaged : gate.active = true) (cmd : ControlCommand ℝ) :
    (gate.apply cmd).1 = translational.foldl (fun cmd axis =>
      cmd.setAxis axis (clamp (cmd.axes axis) (-gate.effectiveCap) gate.effectiveCap)) cmd := by
  have each : ∀ (state : ControlCommand ℝ × Bool) (axis : Fin 6),
      state.1.setAxis axis
          (clamp (state.1.axes axis) (-gate.effectiveCap) gate.effectiveCap) =
        (if (!eq (clamp (state.1.axes axis) (-gate.effectiveCap) gate.effectiveCap)
            (state.1.axes axis)) then
          (state.1.setAxis axis
            (clamp (state.1.axes axis) (-gate.effectiveCap) gate.effectiveCap), true)
        else state).1 := by
    intro state axis
    by_cases within :
        clamp (state.1.axes axis) (-gate.effectiveCap) gate.effectiveCap = state.1.axes axis
    · simp [within, setAxis_self]
    · simp [within]
  unfold apply
  rw [engaged]
  simp only [Bool.not_true, Bool.false_eq_true, if_false]
  exact (List.foldl_hom Prod.fst each).symm

theorem axes_apply {gate : VetoGate ℝ} (engaged : gate.active = true) (cmd : ControlCommand ℝ)
    {axis : Fin 6} (sideways : axis ∈ translational) :
    (gate.apply cmd).1.axes axis =
      clamp (cmd.axes axis) (-gate.effectiveCap) gate.effectiveCap := by
  rw [apply_eq engaged]
  simp only [translational, List.foldl_cons, List.foldl_nil, setAxis]
  simp only [translational, List.mem_cons, List.not_mem_nil, or_false] at sideways
  rcases sideways with rfl | rfl | rfl | rfl <;> rfl

/-- An engaged gate brings each sideways axis within the cap. -/
theorem abs_apply_le {gate : VetoGate ℝ} (engaged : gate.active = true) (cmd : ControlCommand ℝ)
    {axis : Fin 6} (sideways : axis ∈ translational) :
    |(gate.apply cmd).1.axes axis| ≤ gate.effectiveCap := by
  rw [axes_apply engaged cmd sideways]
  exact (abs_clamp_le gate.effectiveCap_pos.le _).1

end VetoGate

section Fence

variable (fence : GeoFence ℝ) (pose : Pose6D ℝ ℝ) (verdict : FenceVerdict)

theorem GeoFence.severity_mem (dist : ℝ) :
    0 ≤ fence.severity verdict dist ∧ fence.severity verdict dist ≤ 1 := by
  unfold severity
  split
  · simp
  · have whole : (ofRat 1 : ℝ) = 1 := by simp
    rw [whole]
    exact clamp_unit_mem _

theorem GeoFence.direction_mul_self_le (axis : Fin 6) :
    fence.direction pose axis * fence.direction pose axis ≤ 1 := by
  have nonneg : 0 ≤ fence.horizontalDist pose := Real.sqrt_nonneg _
  rcases nonneg.eq_or_lt with centre | away
  · rw [direction, ← centre, div_zero, mul_zero]
    exact zero_le_one
  · have unit := unit_direction away
    have east := mul_self_nonneg (fence.direction pose latX)
    have north := mul_self_nonneg (fence.direction pose latY)
    by_cases eastward : axis = latX ∨ axis = roll
    · have same : fence.direction pose axis = fence.direction pose latX := by
        rcases eastward with rfl | rfl <;> rfl
      rw [same]
      linarith
    · have same : fence.direction pose axis = fence.direction pose latY := by
        simp only [direction, if_neg eastward]
        rfl
      rw [same]
      linarith

/-- A share of the square of a component is taken from an axis. -/
theorem GeoFence.abs_reduced_le {severity u : ℝ} (nonneg : 0 ≤ severity) (most : severity ≤ 1)
    (unit : u * u ≤ 1) (value : ℝ) : |reduced severity u value| ≤ |value| := by
  unfold reduced
  split
  · have share : severity * (u * u) ≤ 1 := mul_le_one₀ most (mul_self_nonneg u) unit
    have part : 0 ≤ severity * (u * u) := mul_nonneg nonneg (mul_self_nonneg u)
    have left : value - value * u * severity * u = value * (1 - severity * (u * u)) := by ring
    rw [left, abs_mul, abs_of_nonneg (sub_nonneg.mpr share)]
    exact mul_le_of_le_one_right (abs_nonneg value) (by linarith)
  · exact le_rfl

/-- The fence moves no sideways axis away from 0. -/
theorem GeoFence.abs_clampCommand_le (cmd : ControlCommand ℝ) {axis : Fin 6}
    (sideways : axis ∈ translational) :
    |(fence.clampCommand pose verdict cmd).axes axis| ≤ |cmd.axes axis| := by
  rw [axes_clampCommand _ _ _ _ sideways]
  by_cases turns : fence.Turns pose verdict
  · obtain ⟨nonneg, most⟩ := fence.severity_mem verdict (fence.horizontalDist pose)
    rw [axes_clampHorizontal _ _ _ _ turns sideways]
    exact abs_reduced_le nonneg most (fence.direction_mul_self_le pose axis) _
  · rw [clampHorizontal_of_not_turns _ _ _ _ turns]

end Fence

/-- The intervals of the sideways axes are not empty; `clamp` stops the thread otherwise. -/
structure KinematicLimits.Ordered (limits : KinematicLimits ℝ) : Prop where
  tilt : 0 ≤ limits.maxTiltNorm
  lateral : 0 ≤ limits.maxLateralNorm
  axisStep : 0 ≤ limits.maxAxisStep

/-- The limiter moves a sideways axis towards a smaller one, as far as a step goes. -/
theorem KinematicLimits.abs_apply_le {limits : KinematicLimits ℝ} (ordered : limits.Ordered)
    (last cmd : ControlCommand ℝ) {axis : Fin 6} (sideways : axis ∈ translational) :
    |(limits.apply last cmd).1.axes axis| ≤
      Max.max |cmd.axes axis| (|last.axes axis| - limits.maxAxisStep) := by
  have other := ne_throttle_of_mem sideways
  have bound : 0 ≤ limits.bound axis := by
    simp only [translational, List.mem_cons, List.not_mem_nil, or_false] at sideways
    rcases sideways with rfl | rfl | rfl | rfl
    · exact ordered.tilt
    · exact ordered.tilt
    · exact ordered.lateral
    · exact ordered.lateral
  rw [axes_apply, low, high, step, if_neg other, if_neg other, if_neg other]
  apply (abs_limited_step_le _ _ _).trans
  exact max_le_max (abs_clamp_le bound _).2 le_rfl

namespace SafetyLoop

section Stages

variable {S D : Type} [FloatOps S] [FloatOps D]

theorem axes_brake (loop : SafetyLoop S D) (cmd : ControlCommand S) {axis : Fin 6}
    (other : axis ≠ throttle) : (loop.brake cmd).2.axes axis = cmd.axes axis := by
  have pinned : ∀ (condition : Bool) (cmd : ControlCommand S) (value : S),
      (if condition then cmd.setAxis throttle value else cmd).axes axis = cmd.axes axis := by
    intro condition cmd value
    cases condition with
    | false => rfl
    | true => exact if_neg other
  unfold brake
  dsimp only
  rw [pinned, pinned]

/-- The limiter, the brake and the override on what the fence stage returns. -/
def override (fenced : SafetyLoop S D × ControlCommand S) (nowNs : UInt64) : ControlCommand S :=
  let (loop, cmd) := fenced.1.limit fenced.2
  if loop.estopLatched then writeEmergencyStop cmd.seq nowNs else cmd

end Stages

section Ticks

variable {loop after : SafetyLoop ℝ ℝ} {cmd : ControlCommand ℝ} {drained : Nat}
  {nowNs atUnixNs : UInt64}

theorem abs_prepare_le (engaged : loop.veto.active = true) (cmd : ControlCommand ℝ)
    (nowNs : UInt64) {axis : Fin 6} (sideways : axis ∈ translational) :
    |(loop.prepare cmd nowNs).2.axes axis| ≤ loop.veto.effectiveCap := by
  have gate : ({ loop with
      latency := (loop.latency.observe nowNs cmd.timestampNs).1 }).advanceBlend.veto = loop.veto :=
    (advanceBlend_keeps _).2.2
  unfold prepare
  dsimp only
  rw [gate]
  exact VetoGate.abs_apply_le engaged _ sideways

theorem abs_projectFence_le (loop : SafetyLoop ℝ ℝ) (cmd : ControlCommand ℝ) (atUnixNs : UInt64)
    {axis : Fin 6} (sideways : axis ∈ translational) :
    |(loop.projectFence cmd atUnixNs).2.axes axis| ≤ |cmd.axes axis| := by
  unfold projectFence
  dsimp only
  split
  · exact GeoFence.abs_clampCommand_le _ _ _ cmd sideways
  · exact le_rfl

theorem abs_limit_le (ordered : loop.cfg.limits.Ordered) (cmd : ControlCommand ℝ) {axis : Fin 6}
    (sideways : axis ∈ translational) :
    |(loop.limit cmd).2.axes axis| ≤
      Max.max |cmd.axes axis| (|loop.lastOut.axes axis| - loop.cfg.limits.maxAxisStep) := by
  unfold limit
  rw [axes_brake _ _ (ne_throttle_of_mem sideways)]
  exact KinematicLimits.abs_apply_le ordered _ _ sideways

/-- Below the cap, or one limited step closer to it than the last accepted command. -/
theorem abs_intercept_le (ordered : loop.cfg.limits.Ordered) (engaged : loop.veto.active = true)
    (cmd : ControlCommand ℝ) (nowNs atUnixNs : UInt64) {axis : Fin 6}
    (sideways : axis ∈ translational) :
    |(loop.intercept cmd nowNs atUnixNs).2.axes axis| ≤ Max.max loop.veto.effectiveCap
      (|loop.lastOut.axes axis| - loop.cfg.limits.maxAxisStep) := by
  obtain ⟨cfg, lastOut, _⟩ := prepare_keeps loop cmd nowNs
  obtain ⟨cfg', lastOut', _⟩ := projectFence_keeps (loop.prepare cmd nowNs).1
    (loop.prepare cmd nowNs).2 atUnixNs
  have prepared := abs_prepare_le engaged cmd nowNs sideways
  have fenced := abs_projectFence_le (loop.prepare cmd nowNs).1 (loop.prepare cmd nowNs).2
    atUnixNs sideways
  rw [cfg] at cfg'
  rw [lastOut] at lastOut'
  have whole : (loop.intercept cmd nowNs atUnixNs).2 =
      override ((loop.prepare cmd nowNs).1.projectFence (loop.prepare cmd nowNs).2 atUnixNs)
        nowNs := rfl
  rw [whole]
  generalize (loop.prepare cmd nowNs).1.projectFence (loop.prepare cmd nowNs).2 atUnixNs =
    result at cfg' lastOut' fenced
  have limited := abs_limit_le (by rw [cfg']; exact ordered) result.2 sideways
  rw [cfg', lastOut'] at limited
  unfold override
  dsimp only
  split
  · have neutral : |(0 : ℝ)| ≤ loop.veto.effectiveCap := by
      rw [abs_zero]
      exact loop.veto.effectiveCap_pos.le
    exact le_max_of_le_left neutral
  · exact limited.trans (max_le_max (fenced.trans prepared) le_rfl)

/-- What one tick processes under a veto. -/
theorem abs_handle_le (ordered : loop.cfg.limits.Ordered) (engaged : loop.veto.active = true)
    (handled : loop.handle nowNs atUnixNs = some (after, cmd, drained)) {axis : Fin 6}
    (sideways : axis ∈ translational) :
    |cmd.axes axis| ≤ Max.max loop.veto.effectiveCap
      (|loop.lastOut.axes axis| - loop.cfg.limits.maxAxisStep) := by
  obtain ⟨newest, idle, cfg, lastOut, veto, result⟩ := handle_cases handled
  rw [← cfg] at ordered ⊢
  rw [← lastOut]
  rw [← veto] at engaged ⊢
  have bounded := abs_intercept_le ordered engaged newest nowNs atUnixNs sideways
  rw [result] at bounded
  exact bounded

theorem lastOut_processOne (handled : loop.handle nowNs atUnixNs = some (after, cmd, drained)) :
    (loop.perform (.processOne nowNs atUnixNs)).lastOut = cmd := by
  simp only [perform, processOne, handled]
  split <;> exact (handle_keeps handled).2

theorem lastOut_perform {action : Action ℝ ℝ}
    (idle : ∀ nowNs atUnixNs, action = .processOne nowNs atUnixNs →
      loop.handle nowNs atUnixNs = none) :
    (loop.perform action).lastOut = loop.lastOut := by
  by_cases tick : ∃ nowNs atUnixNs, action = .processOne nowNs atUnixNs
  · obtain ⟨nowNs, atUnixNs, rfl⟩ := tick
    simp only [perform, processOne, idle nowNs atUnixNs rfl]
    exact loop.advanceBlend_keeps.2.1
  · apply (loop.perform_keeps action _).2.1
    intro nowNs atUnixNs same
    exact tick ⟨nowNs, atUnixNs, same⟩

/-- A run in which every tick that processes a command does so under a veto with at most the
cap, and the number of these ticks. -/
inductive Vetoed (cap : ℝ) : Nat → SafetyLoop ℝ ℝ → SafetyLoop ℝ ℝ → Prop
  | done (loop : SafetyLoop ℝ ℝ) : Vetoed cap 0 loop loop
  | idle {loop target : SafetyLoop ℝ ℝ} {action : Action ℝ ℝ} {ticks : Nat} :
      (∀ nowNs atUnixNs, action = .processOne nowNs atUnixNs →
        loop.handle nowNs atUnixNs = none) →
      Vetoed cap ticks (loop.perform action) target → Vetoed cap ticks loop target
  | tick {loop after target : SafetyLoop ℝ ℝ} {cmd : ControlCommand ℝ} {drained ticks : Nat}
      {nowNs atUnixNs : UInt64} : loop.handle nowNs atUnixNs = some (after, cmd, drained) →
      loop.veto.active = true → loop.veto.effectiveCap ≤ cap →
      Vetoed cap ticks (loop.perform (.processOne nowNs atUnixNs)) target →
      Vetoed cap (ticks + 1) loop target

/-- Tick by tick the last accepted command comes closer to the cap. -/
theorem Vetoed.abs_lastOut_le {cap : ℝ} {ticks : Nat} {target : SafetyLoop ℝ ℝ}
    (vetoed : Vetoed cap ticks loop target) (ordered : loop.cfg.limits.Ordered) {axis : Fin 6}
    (sideways : axis ∈ translational) :
    |target.lastOut.axes axis| ≤
      Max.max cap (|loop.lastOut.axes axis| - ticks * loop.cfg.limits.maxAxisStep) := by
  induction vetoed with
  | done loop => simp
  | @idle loop target action ticks idle _ inductionHypothesis =>
      have bounded := inductionHypothesis (by rw [cfg_perform]; exact ordered)
      rwa [cfg_perform, lastOut_perform idle] at bounded
  | @tick loop after target cmd drained ticks nowNs atUnixNs handled engaged capped _
      inductionHypothesis =>
      have bounded := inductionHypothesis (by rw [cfg_perform]; exact ordered)
      rw [cfg_perform, lastOut_processOne handled] at bounded
      have stepped := abs_handle_le ordered engaged handled sideways
      have steps : 0 ≤ ticks * loop.cfg.limits.maxAxisStep :=
        mul_nonneg (Nat.cast_nonneg ticks) ordered.axisStep
      have more : ((ticks + 1 : Nat) : ℝ) * loop.cfg.limits.maxAxisStep =
          ticks * loop.cfg.limits.maxAxisStep + loop.cfg.limits.maxAxisStep := by
        push_cast
        ring
      rw [more]
      apply bounded.trans (max_le (le_max_left _ _) ?_)
      rcases le_max_iff.mp stepped with within | nearer
      · exact le_max_of_le_left (by linarith)
      · exact le_max_of_le_right (by linarith)

/-- In every run, whatever was sent before: a command that is processed under a veto is within
the cap, or one limited step closer to it than the last accepted command; after some such
ticks in a row, as many steps closer. -/
theorem abs_le_of_vetoed (input output : SpscRing (ControlCommand ℝ)) (machine : StateMachine)
    (cfg : SafetyConfig ℝ ℝ) (ordered : cfg.limits.Ordered) (actions : List (Action ℝ ℝ))
    (loop : SafetyLoop ℝ ℝ)
    (execution : (system ℝ ℝ).Execution (new input output machine cfg) actions loop) :
    (∀ nowNs atUnixNs after cmd drained,
      loop.handle nowNs atUnixNs = some (after, cmd, drained) → loop.veto.active = true →
        ∀ axis ∈ translational, |cmd.axes axis| ≤
          Max.max loop.veto.effectiveCap (|loop.lastOut.axes axis| - cfg.limits.maxAxisStep)) ∧
      ∀ cap ticks target, Vetoed cap ticks loop target → ∀ axis ∈ translational,
        |target.lastOut.axes axis| ≤
          Max.max cap (|loop.lastOut.axes axis| - ticks * cfg.limits.maxAxisStep) := by
  have same : loop.cfg = cfg := by
    apply execution.preserves (P := fun loop => loop.cfg = cfg)
    · intro state action target kept stepped
      cases stepped
      rw [cfg_perform, kept]
    · rfl
  rw [← same] at ordered ⊢
  constructor
  · intro nowNs atUnixNs after cmd drained handled engaged axis sideways
    exact abs_handle_le ordered engaged handled sideways
  · intro cap ticks target vetoed axis sideways
    exact vetoed.abs_lastOut_le ordered sideways

end Ticks

/-- Full throw to the east. -/
noncomputable def eastward : ControlCommand ℝ := (zeroed .auto).setAxis latX 1

/-- Without any authority of the operator the autonomy is vetoed. -/
theorem prepare_of_autonomy {loop : SafetyLoop ℝ ℝ} (blend : loop.blend = none)
    (authority : loop.authority = 0) (cmd : ControlCommand ℝ) (nowNs : UInt64) :
    ∃ mixed : ControlCommand ℝ, mixed.axes = loop.baseline.axes ∧
      (loop.prepare cmd nowNs).2 = (loop.veto.apply mixed).1 := by
  have still : ({ loop with
      latency := (loop.latency.observe nowNs cmd.timestampNs).1 }).advanceBlend =
        { loop with latency := (loop.latency.observe nowNs cmd.timestampNs).1 } := by
    unfold advanceBlend
    dsimp only
    rw [blend]
  unfold prepare
  dsimp only
  rw [still]
  refine ⟨_, ?_, rfl⟩
  funext axis
  simp [mixAuthority, authority]
  norm_num

theorem intercept_of_inside {loop : SafetyLoop ℝ ℝ}
    (inside : loop.cfg.fence.evaluate loop.pose = .inside) (running : loop.estopLatched = false)
    (cmd : ControlCommand ℝ) (nowNs atUnixNs : UInt64) :
    loop.intercept cmd nowNs atUnixNs =
      let (loop, cmd) := (loop.prepare cmd nowNs).1.limit (loop.prepare cmd nowNs).2
      ({ loop with lastOut := cmd }, cmd) := by
  obtain ⟨_, latched_eq, cfg_eq, pose_eq, _⟩ := prepare_frame loop cmd nowNs
  have fenced : (loop.prepare cmd nowNs).1.projectFence (loop.prepare cmd nowNs).2 atUnixNs =
      loop.prepare cmd nowNs := by
    unfold projectFence
    rw [cfg_eq, pose_eq, inside]
    rfl
  unfold intercept
  dsimp only
  rw [fenced, (limit_frame _ _).2.1, latched_eq, running]
  rfl

/-- A loop at the centre of its fence that an autonomy sends to the east. -/
noncomputable def eastbound (output : SpscRing (ControlCommand ℝ))
    (latency : LatencyCompensator ℝ) (lastOut : ControlCommand ℝ) (veto : VetoGate ℝ)
    (brakeLatched : Bool) : SafetyLoop ℝ ℝ :=
  { new (.withCapacity 4) output .new .default with
    baseline := eastward, latency, lastOut, veto, brakeLatched }

theorem inside_default :
    (SafetyConfig.default : SafetyConfig ℝ ℝ).fence.evaluate (Pose6D.default : Pose6D ℝ ℝ) =
      .inside := by
  have centre : (GeoFence.default : GeoFence ℝ).horizontalDist (Pose6D.default : Pose6D ℝ ℝ) =
      0 := by
    change √(((0 : ℝ) - 0) * (0 - 0) + (0 - 0) * (0 - 0)) = 0
    simp
  change (GeoFence.default : GeoFence ℝ).evaluate _ = _
  unfold GeoFence.evaluate
  rw [centre]
  simp [GeoFence.default, Pose6D.default]
  norm_num

/-- What a gate makes of full throw. -/
noncomputable def throwUnder (gate : VetoGate ℝ) : ℝ :=
  if gate.active then clamp 1 (-gate.effectiveCap) gate.effectiveCap else 1

theorem latX_apply {gate : VetoGate ℝ} {cmd : ControlCommand ℝ} (full : cmd.axes = eastward.axes) :
    (gate.apply cmd).1.axes latX = throwUnder gate := by
  have one : cmd.axes latX = 1 := congrFun full latX
  unfold throwUnder
  split
  · rename_i engaged
    rw [VetoGate.axes_apply engaged cmd (by decide), one]
  · rename_i disengaged
    unfold VetoGate.apply
    rw [Bool.eq_false_of_not_eq_true disengaged]
    exact one

/-- A tick sends the full throw within the cap, after one limited step. -/
theorem handle_eastbound (output : SpscRing (ControlCommand ℝ)) (latency : LatencyCompensator ℝ)
    (lastOut : ControlCommand ℝ) (veto : VetoGate ℝ) (brakeLatched : Bool) :
    ∃ latency' cmd brakeLatched',
      ((eastbound output latency lastOut veto brakeLatched).perform
          (.pushInput (zeroed .auto))).handle 0 0 =
        some (eastbound output latency' cmd veto brakeLatched', cmd, 1) ∧
      cmd.axes latX = lastOut.axes latX +
        clamp (clamp (throwUnder veto) (-0.8) 0.8 - lastOut.axes latX) (-0.02) 0.02 := by
  have handled : ((eastbound output latency lastOut veto brakeLatched).perform
      (.pushInput (zeroed .auto))).handle 0 0 =
        some
          (((eastbound output latency lastOut veto brakeLatched).intercept (zeroed .auto) 0 0).1,
            ((eastbound output latency lastOut veto brakeLatched).intercept (zeroed .auto) 0 0).2,
            1) := rfl
  rw [handled, intercept_of_inside inside_default rfl]
  refine ⟨_, _, _, rfl, ?_⟩
  obtain ⟨mixed, full, vetoed⟩ := prepare_of_autonomy
    (show (eastbound output latency lastOut veto brakeLatched).blend = none from rfl) rfl
    (zeroed .auto) 0
  obtain ⟨cfg, last, _⟩ := prepare_keeps (eastbound output latency lastOut veto brakeLatched)
    (zeroed .auto) 0
  have low : (SafetyConfig.default : SafetyConfig ℝ ℝ).limits.low latX = -0.8 := by
    change -((ofRat 0.8 : ℝ)) = -0.8
    norm_num
  have high : (SafetyConfig.default : SafetyConfig ℝ ℝ).limits.high latX = 0.8 := by
    change ((ofRat 0.8 : ℝ)) = 0.8
    norm_num
  have step : (SafetyConfig.default : SafetyConfig ℝ ℝ).limits.step latX = 0.02 := by
    change ((ofRat 0.02 : ℝ)) = 0.02
    norm_num
  unfold limit
  rw [axes_brake _ _ (by decide), KinematicLimits.axes_apply, cfg, last, vetoed, latX_apply full]
  change _ + clamp (clamp _ ((SafetyConfig.default : SafetyConfig ℝ ℝ).limits.low latX)
    ((SafetyConfig.default : SafetyConfig ℝ ℝ).limits.high latX) - _)
    (-(SafetyConfig.default : SafetyConfig ℝ ℝ).limits.step latX)
    ((SafetyConfig.default : SafetyConfig ℝ ℝ).limits.step latX) = _
  rw [low, high, step]
  rfl

/-- A tick that pushes what it has processed. -/
theorem perform_of_pushed {loop after : SafetyLoop ℝ ℝ} {cmd : ControlCommand ℝ}
    {pushed : SpscRing (ControlCommand ℝ)} (handled : loop.handle 0 0 = some (after, cmd, 1))
    (room : after.output.push cmd = .ok pushed) :
    loop.perform (.processOne 0 0) = { after with output := pushed } := by
  simp only [perform, processOne, handled, room]

/-- One more step of the autonomy, sent. -/
theorem reachable_eastbound {output : SpscRing (ControlCommand ℝ)}
    {latency : LatencyCompensator ℝ} {lastOut : ControlCommand ℝ} {veto : VetoGate ℝ}
    {brakeLatched : Bool}
    (reached : (system ℝ ℝ).Reachable (eastbound output latency lastOut veto brakeLatched))
    (room : output.items.length < output.capacity) :
    ∃ pushed latency' cmd brakeLatched',
      (system ℝ ℝ).Reachable (eastbound pushed latency' cmd veto brakeLatched') ∧
      pushed.items.length = output.items.length + 1 ∧ pushed.capacity = output.capacity ∧
      cmd.axes latX = lastOut.axes latX +
        clamp (clamp (throwUnder veto) (-0.8) 0.8 - lastOut.axes latX) (-0.02) 0.02 := by
  obtain ⟨latency', cmd, brakeLatched', handled, sent⟩ :=
    handle_eastbound output latency lastOut veto brakeLatched
  obtain ⟨pushed, taken, longer, same⟩ : ∃ pushed, output.push cmd = .ok pushed ∧
      pushed.items.length = output.items.length + 1 ∧ pushed.capacity = output.capacity :=
    ⟨_, dif_pos room, by simp, rfl⟩
  refine ⟨pushed, latency', cmd, brakeLatched', ?_, longer, same, sent⟩
  have asked : (system ℝ ℝ).Reachable
      ((eastbound output latency lastOut veto brakeLatched).perform (.pushInput (zeroed .auto))) :=
    reached.step rfl
  have ticked := asked.step (show _ = some (perform _ (.processOne 0 0)) from rfl)
  rw [perform_of_pushed handled taken] at ticked
  exact ticked

/-- The autonomy has just been set on its course. -/
noncomputable def departing (veto : VetoGate ℝ) : SafetyLoop ℝ ℝ :=
  eastbound (.withCapacity 4) (.new (ofRat 0.2) 50000000) (zeroed .auto) veto false

theorem ordered_default : (KinematicLimits.default : KinematicLimits ℝ).Ordered where
  tilt := by
    change (0 : ℝ) ≤ ((0.35 : ℚ) : ℝ)
    norm_num
  lateral := by
    change (0 : ℝ) ≤ ((0.8 : ℚ) : ℝ)
    norm_num
  axisStep := by
    change (0 : ℝ) ≤ ((0.02 : ℚ) : ℝ)
    norm_num

/-- The first command of an autonomy that is vetoed at once. -/
theorem departing_within :
    ∃ after cmd drained,
      ((departing (VetoGate.new.engage 0)).perform (.pushInput (zeroed .auto))).handle 0 0 =
        some (after, cmd, drained) ∧
      ∀ axis ∈ translational, |cmd.axes axis| ≤
        Max.max (VetoGate.new.engage 0 : VetoGate ℝ).effectiveCap
          (|(0 : ℝ)| - (SafetyConfig.default : SafetyConfig ℝ ℝ).limits.maxAxisStep) := by
  obtain ⟨latency, cmd, braking, handled, _⟩ := handle_eastbound (.withCapacity 4)
    (.new (ofRat 0.2) 50000000) (zeroed .auto) (VetoGate.new.engage 0) false
  refine ⟨_, cmd, 1, handled, ?_⟩
  have execution : (system ℝ ℝ).Execution (new (.withCapacity 4) (.withCapacity 4) .new .default)
      [.setAutonomyBaseline eastward, .engageAiVeto 0, .pushInput (zeroed .auto)]
      ((departing (VetoGate.new.engage 0)).perform (.pushInput (zeroed .auto))) :=
    .cons rfl (.cons rfl (.cons rfl (.nil _)))
  exact (abs_le_of_vetoed _ _ _ .default ordered_default _ _ execution).1 0 0 _ cmd 1 handled rfl

theorem effectiveCap_engage_zero :
    (VetoGate.new.engage 0 : VetoGate ℝ).effectiveCap = 0.01 := by
  have gate : (VetoGate.new.engage 0 : VetoGate ℝ).cap = 0.01 := by
    change clamp (0 : ℝ) (ofRat 0.01) (ofRat 1) = 0.01
    norm_num [clamp]
  unfold VetoGate.effectiveCap
  rw [gate, max_real]
  norm_num

theorem throwUnder_engage_zero : throwUnder (VetoGate.new.engage 0) = 0.01 := by
  have engaged : (VetoGate.new.engage 0 : VetoGate ℝ).active = true := rfl
  unfold throwUnder
  rw [if_pos engaged, effectiveCap_engage_zero]
  norm_num [clamp]

/-- Two commands of an autonomy that flies east are sent, and a third one, above the cap, under
a veto. -/
theorem not_within_cap :
    ¬ ∀ loop, (system ℝ ℝ).Reachable loop → ∀ nowNs atUnixNs after cmd drained pushed,
      loop.handle nowNs atUnixNs = some (after, cmd, drained) →
      after.output.push cmd = .ok pushed → loop.veto.active = true →
        ∀ axis ∈ translational, |cmd.axes axis| ≤ loop.veto.effectiveCap := by
  intro within
  have start : (system ℝ ℝ).Reachable (departing .new) := by
    have fresh : (system ℝ ℝ).Reachable (new (.withCapacity 4) (.withCapacity 4) .new .default) :=
      .of_initial ⟨_, _, _, _, rfl⟩
    exact fresh.step (show _ = some (perform _ (.setAutonomyBaseline eastward)) from rfl)
  obtain ⟨output, _, first, _, reached, length, capacity, sent⟩ :=
    reachable_eastbound start (by decide)
  obtain ⟨output', latency, second, braking, reached', length', capacity', sent'⟩ :=
    reachable_eastbound reached (by rw [length, capacity]; decide)
  have engaged : (system ℝ ℝ).Reachable
      ((eastbound output' latency second (VetoGate.new.engage 0) braking).perform
        (.pushInput (zeroed .auto))) :=
    (reached'.step (show _ = some (perform _ (.engageAiVeto (0 : ℝ))) from rfl)).step rfl
  obtain ⟨_, third, _, handled, vetoed⟩ :=
    handle_eastbound output' latency second (VetoGate.new.engage 0) braking
  have room : output'.items.length < output'.capacity := by
    rw [length', length, capacity', capacity]
    decide
  have capped := within _ engaged 0 0 _ third 1 _ handled (dif_pos room) rfl latX (by decide)
  have free : throwUnder (VetoGate.new : VetoGate ℝ) = 1 := rfl
  have zero : (zeroed .auto : ControlCommand ℝ).axes latX = 0 := rfl
  have one : first.axes latX = 0.02 := by
    rw [sent, free, zero]
    norm_num [clamp]
  have two : second.axes latX = 0.04 := by
    rw [sent', free, one]
    norm_num [clamp]
  have three : third.axes latX = 0.02 := by
    rw [vetoed, throwUnder_engage_zero, two]
    norm_num [clamp]
  have cap : ((eastbound output' latency second (VetoGate.new.engage 0) braking).perform
      (.pushInput (zeroed .auto))).veto.effectiveCap = 0.01 := effectiveCap_engage_zero
  rw [three, cap] at capped
  norm_num at capped

end SafetyLoop

end Teleop.Safety
