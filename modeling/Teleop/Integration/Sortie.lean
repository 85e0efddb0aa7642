import Teleop.Integration.SimState
import Teleop.Integration.Wiring

/-!
# What the simulated vehicle flies

The vehicle of a harness has flown the commands that were emitted since it was put in, each once
and in order, and the safety loop sees it where it is: over the origin, not below the ground.
-/

namespace Teleop.Integration

open Teleop.Core Teleop.Hal Teleop.Lib Teleop.Lib.FloatOps Teleop.Link Teleop.Ring Teleop.Safety

variable {S D V : Type} [FloatOps S] [FloatOps D] [FloatPair S D]

section Loop

theorem pose_advanceBlend (loop : SafetyLoop S D) : loop.advanceBlend.pose = loop.pose := by
  unfold SafetyLoop.advanceBlend
  split <;> rfl

theorem pose_intercept (loop : SafetyLoop S D) (cmd : ControlCommand S) (nowNs atUnixNs : UInt64) :
    (loop.intercept cmd nowNs atUnixNs).1.pose = loop.pose := by
  have prepared : (loop.prepare cmd nowNs).1.pose = loop.pose :=
    pose_advanceBlend { loop with latency := (loop.latency.observe nowNs cmd.timestampNs).1 }
  have fenced : ((loop.prepare cmd nowNs).1.projectFence (loop.prepare cmd nowNs).2
      atUnixNs).1.pose = (loop.prepare cmd nowNs).1.pose := by
    rcases (loop.prepare cmd nowNs).1.projectFence_cases (loop.prepare cmd nowNs).2 atUnixNs with
      ⟨same, -⟩ | ⟨stopped, -⟩
    · rw [same]
    · rw [stopped]
      rfl
  exact fenced.trans prepared

/-- A tick does not move the vehicle. -/
theorem pose_processOne (loop : SafetyLoop S D) (nowNs atUnixNs : UInt64) :
    (loop.processOne nowNs atUnixNs).1.pose = loop.pose := by
  unfold SafetyLoop.processOne
  cases handled : loop.handle nowNs atUnixNs with
  | none => exact pose_advanceBlend loop
  | some result =>
      obtain ⟨after, cmd, drained⟩ := result
      obtain ⟨newest, -, intercepted⟩ := SafetyLoop.handle_eq_some handled
      have kept := pose_intercept
        { loop.advanceBlend with input := loop.advanceBlend.input.drain.2 } newest nowNs atUnixNs
      rw [intercepted] at kept
      have same : after.pose = loop.pose := kept.trans (pose_advanceBlend loop)
      dsimp only
      split <;> exact same

omit [FloatOps D] [FloatPair S D] in
theorem pose_requestMode (loop : SafetyLoop S D) (mode : Mode) (atUnixNs : UInt64) :
    (loop.requestMode mode atUnixNs).1.pose = loop.pose := by
  unfold SafetyLoop.requestMode
  split <;> rfl

theorem pose_settledLoop (cfg : SafetyConfig S D) (clock : Nat → UInt64) :
    (PipelineHarness.settledLoop cfg clock).pose = .default := by
  have idle (readings : List Nat) (loop : SafetyLoop S D) :
      (readings.foldl (fun loop i => (loop.processOne 0 (clock (i + 2))).1) loop).pose =
        loop.pose := by
    induction readings generalizing loop with
    | nil => rfl
    | cons reading rest inductionHypothesis =>
        rw [List.foldl_cons, inductionHypothesis, pose_processOne]
  unfold PipelineHarness.settledLoop
  dsimp only
  rw [idle, pose_requestMode, pose_requestMode]
  rfl

end Loop

/-- The vehicle after some commands. -/
def Rig.flown (rig : Rig S D V) (cmds : List (ControlCommand S)) : V :=
  cmds.foldl rig.tick rig.fresh

/-- The commands that were emitted since the vehicle was put in. -/
def Run.sinceEnabled (run : Run S D V) : List (ControlCommand S) :=
  (run.emitted.map (·.1)).drop run.enabledAt

/-- The vehicle has flown what was emitted since it was put in, and the pose that the loop knows
is that of a vehicle, or the one it started with. -/
structure Sortie (rig : Rig S D V) (run : Run S D V) : Prop where
  enabled : run.enabledAt ≤ run.emitted.length
  trace : ∀ sim, run.harness.sim = some sim → sim = rig.flown run.sinceEnabled
  pose : run.harness.loop.pose = .default ∨
    ∃ cmds, run.harness.loop.pose = rig.pose (rig.flown cmds)

section Steps

variable {cfg : SafetyConfig S D} {rig : Rig S D V} {run target : Run S D V}

/-- A tail adds what it emits. -/
theorem Run.sinceEnabled_emit (enabled : run.enabledAt ≤ run.emitted.length)
    (nowNs atUnixNs : UInt64) (outcome : Outcome) (harness : PipelineHarness S D V)
    (decoded : Option Command) :
    (run.emit rig nowNs atUnixNs outcome harness decoded).sinceEnabled =
      run.sinceEnabled ++ (run.harness.intercept rig nowNs atUnixNs).2.toList := by
  have sent : (run.harness.emits rig nowNs atUnixNs outcome).map (·.1) =
      (run.harness.intercept rig nowNs atUnixNs).2.toList := by
    rw [PipelineHarness.emits, List.map_map]
    exact List.map_id _
  unfold sinceEnabled emit
  dsimp only
  rw [List.map_append, sent, List.drop_append_of_le_length]
  rwa [List.length_map]

omit [FloatPair S D] in
/-- A stage that leaves the vehicle alone. -/
theorem Sortie.congr (sortie : Sortie rig run) (sim : target.harness.sim = run.harness.sim)
    (pose : target.harness.loop.pose = run.harness.loop.pose)
    (enabledAt : target.enabledAt = run.enabledAt) (emitted : target.emitted = run.emitted) :
    Sortie rig target where
  enabled := by
    rw [enabledAt, emitted]
    exact sortie.enabled
  trace := by
    unfold Run.sinceEnabled
    rw [sim, enabledAt, emitted]
    exact sortie.trace
  pose := by
    rw [pose]
    exact sortie.pose

theorem sortie_start (cfg : SafetyConfig S D) (clock : Nat → UInt64) :
    Sortie rig (Run.start cfg clock) where
  enabled := le_rfl
  trace sim held := by cases held
  pose := .inl (pose_settledLoop cfg clock)

omit [FloatPair S D] in
theorem Sortie.enableSim (sortie : Sortie rig run) :
    Sortie rig
      { run with harness := run.harness.enableSim rig, enabledAt := run.emitted.length } where
  enabled := le_rfl
  trace sim held := by
    obtain rfl := Option.some.inj held
    unfold Run.sinceEnabled
    rw [List.drop_of_length_le (List.length_map _).le]
    rfl
  pose := sortie.pose

omit [FloatPair S D] in
theorem Sortie.entering (sortie : Sortie rig run) (entering : Run.Entering run target) :
    Sortie rig target := by
  cases entering with
  | ingestTick nowNs => exact sortie.congr rfl rfl rfl rfl
  | pushDirect cmd =>
      unfold PipelineHarness.pushDirect Run.enter
      split <;> exact sortie.congr rfl rfl rfl rfl

omit [FloatPair S D] in
theorem Sortie.routed (sortie : Sortie rig run) (wired : Wired cfg rig run)
    (routed : run.route = some target) : Sortie rig target := by
  have found := PipelineHarness.route_eq wired.bus_eq wired.safetySub_eq wired.loggerSub_eq
    wired.inputCapacity
  unfold Run.route at routed
  rw [found] at routed
  cases routed
  exact sortie.congr rfl rfl rfl rfl

/-- The vehicle moves on what a tail is about to emit, and the loop learns its pose. -/
theorem PipelineHarness.intercept_flight (rig : Rig S D V) {harness : PipelineHarness S D V}
    (unblocked : Unblocked cfg harness.loop) (nowNs atUnixNs : UInt64) :
    (harness.intercept rig nowNs atUnixNs).1.sim = harness.sim.map
        (fun sim => (harness.intercept rig nowNs atUnixNs).2.toList.foldl rig.tick sim) ∧
      ((harness.intercept rig nowNs atUnixNs).1.loop.pose = harness.loop.pose ∨
        ∃ sim cmd, harness.sim = some sim ∧
          (harness.intercept rig nowNs atUnixNs).1.loop.pose = rig.pose (rig.tick sim cmd)) := by
  have pose := pose_processOne harness.loop nowNs atUnixNs
  unfold intercept
  dsimp only
  rcases unblocked.processOne nowNs atUnixNs with
    ⟨-, -, empty⟩ | ⟨after, cmd, drained, -, -, -, popped⟩
  · rw [empty]
    exact ⟨by simp, .inl pose⟩
  · rw [popped]
    cases held : harness.sim with
    | none => exact ⟨rfl, .inl pose⟩
    | some sim => exact ⟨rfl, .inr ⟨sim, cmd, rfl, rfl⟩⟩

/-- What is emitted is what the vehicle flies next. -/
theorem Sortie.emit (sortie : Sortie rig run) (wired : Wired cfg rig run)
    {nowNs atUnixNs : UInt64} {outcome : Outcome} {harness : PipelineHarness S D V}
    {decoded : Option Command}
    (tail : run.harness.Tail rig nowNs atUnixNs outcome harness decoded) :
    Sortie rig (run.emit rig nowNs atUnixNs outcome harness decoded) := by
  obtain rfl := tail.after_eq
  obtain ⟨moves, pose⟩ :=
    PipelineHarness.intercept_flight rig wired.unblocked nowNs atUnixNs
  refine ⟨?_, ?_, ?_⟩
  · exact Nat.le_trans sortie.enabled (List.prefix_append _ _).length_le
  · intro moved present
    obtain ⟨sim, held, rfl⟩ := Option.map_eq_some_iff.mp (moves.symm.trans present)
    rw [Run.sinceEnabled_emit sortie.enabled, sortie.trace sim held, Rig.flown, Rig.flown,
      List.foldl_append]
  · rcases pose with still | ⟨sim, cmd, held, known⟩
    · exact still.symm ▸ sortie.pose
    · refine .inr ⟨run.sinceEnabled ++ [cmd], known.trans ?_⟩
      rw [sortie.trace sim held, Rig.flown, Rig.flown, List.foldl_append]
      rfl

theorem Sortie.performed (sortie : Sortie rig run) (wired : Wired cfg rig run)
    (performed : Run.Performed rig run target) : Sortie rig target := by
  cases performed with
  | enableSim => exact sortie.enableSim
  | feedReport report => exact sortie.congr rfl rfl rfl rfl
  | entering entering => exact sortie.entering entering
  | routed found => exact sortie.routed wired found
  | through entering found tail =>
      have entered := wired.entering entering
      exact ((sortie.entering entering).routed entered found).emit (entered.routed found) tail

theorem sortie_of_reachable (reached : (Run.system V rig cfg).Reachable run) :
    Sortie rig run ∧ Wired cfg rig run := by
  apply reached.invariant (P := fun run => Sortie rig run ∧ Wired cfg rig run)
  · rintro _ ⟨clock, rfl⟩
    exact ⟨sortie_start cfg clock, wired_start cfg clock⟩
  · rintro run call target ⟨sortie, wired⟩ stepped
    have performed := Run.performed_of_next stepped
    exact ⟨sortie.performed wired performed, wired.performed performed⟩

end Steps

/-- The rig whose vehicle is the simulated quadrotor. -/
noncomputable def flightRig (archive : Archive Command 56)
    (packets : Archive (TelemetryPacket UInt32) 56) (bits : ℝ → UInt32) : Rig ℝ ℝ Vehicle where
  archive := archive
  packets := packets
  bits := bits
  fresh := .fresh
  tick := Vehicle.tick
  pose vehicle := vehicle.1.pose

section Flight

variable {archive : Archive Command 56} {packets : Archive (TelemetryPacket UInt32) 56}
  {bits : ℝ → UInt32}

theorem foldlM_tick (vehicle : Vehicle) (cmds : List (ControlCommand ℝ)) :
    cmds.foldlM SimState.tick vehicle.1 = some (cmds.foldl Vehicle.tick vehicle).1 := by
  induction cmds generalizing vehicle with
  | nil => rfl
  | cons cmd rest inductionHypothesis =>
      rw [List.foldlM_cons, (vehicle.tick_spec cmd).1, List.foldl_cons]
      exact inductionHypothesis (vehicle.tick cmd)

/-- The motors hold the throttle of the last command. -/
theorem throttle_of_flown (vehicle : Vehicle) (cmds : List (ControlCommand ℝ))
    (last : ControlCommand ℝ) (i : Fin 4) :
    (((cmds ++ [last]).foldl Vehicle.tick vehicle).1.drone.motors i).lastCmd.value =
      carried (last.axes throttle) := by
  rw [List.foldl_append]
  have commanded := ((cmds.foldl Vehicle.tick vehicle).tick_spec last).2 i
  change (((cmds.foldl Vehicle.tick vehicle).tick last).1.drone.motors i).lastCmd.value = _
  rw [commanded, SimState.command, carried, clamp_clamp_unit, ← carried]

/-- The vehicle has flown exactly what was emitted since it was put in, is level, and turns its
rotors towards the throttle of the last command; the loop sees it over the origin. -/
structure Flies (run : Run ℝ ℝ Vehicle) : Prop where
  enabled : run.enabledAt ≤ run.emitted.length
  trace : ∀ vehicle, run.harness.sim = some vehicle →
    run.sinceEnabled.foldlM SimState.tick SimState.new = some vehicle.1 ∧ Level vehicle.1 ∧
      ∀ last ∈ run.sinceEnabled.getLast?,
        ∀ i, (vehicle.1.drone.motors i).lastCmd.value = carried (last.axes throttle)
  pose : run.harness.loop.pose.x = 0 ∧ run.harness.loop.pose.y = 0 ∧ 0 ≤ run.harness.loop.pose.z

/-- In every run of the pipeline the simulated vehicle flies what is emitted, over the origin and
level. -/
theorem flies_of_reachable {cfg : SafetyConfig ℝ ℝ} {run : Run ℝ ℝ Vehicle}
    (reached : (Run.system Vehicle (flightRig archive packets bits) cfg).Reachable run) :
    Flies run := by
  obtain ⟨sortie, -⟩ := sortie_of_reachable reached
  refine ⟨sortie.enabled, ?_, ?_⟩
  · intro vehicle held
    have flown := sortie.trace vehicle held
    refine ⟨?_, vehicle.2, ?_⟩
    · rw [flown]
      exact foldlM_tick .fresh run.sinceEnabled
    · intro last newest i
      obtain ⟨earlier, split⟩ := List.getLast?_eq_some_iff.mp newest
      rw [flown, split]
      exact throttle_of_flown .fresh earlier last i
  · rcases sortie.pose with start | ⟨cmds, known⟩
    · rw [start]
      exact ⟨rfl, rfl, le_refl _⟩
    · rw [known]
      exact ((flightRig archive packets bits).flown cmds).2.pose

/-- A vehicle that has been put in after a first command and has climbed under a second one. -/
theorem flies_climbedOnce : ∃ run : Run ℝ ℝ Vehicle,
    (Run.system Vehicle (flightRig .command .telemetry fun _ => 0) .default).Execution
      (.start .default fun _ => 0)
      [.pumpForwardDirect (.zeroed .fullTeleop) 1 1 ⟨true, []⟩, .enableSim,
        .pumpForwardDirect (.zeroed .fullTeleop) 2 2 ⟨true, []⟩] run ∧ Flies run := by
  let rig : Rig ℝ ℝ Vehicle := flightRig .command .telemetry fun _ => 0
  have calm : (KinematicLimits.default : KinematicLimits ℝ).panics = false := by
    norm_num [KinematicLimits.panics, KinematicLimits.default, clampPanics]
  have start : Wired .default rig (.start .default fun _ => 0) := wired_start .default fun _ => 0
  obtain ⟨first, begun⟩ := Option.isSome_iff_exists.mp
    (start.isSome_next calm (.pumpForwardDirect (.zeroed .fullTeleop) 1 1 ⟨true, []⟩))
  have wired := start.performed (Run.performed_of_next begun)
  obtain ⟨put, enabled⟩ := Option.isSome_iff_exists.mp (wired.isSome_next calm .enableSim)
  have wired := wired.performed (Run.performed_of_next enabled)
  obtain ⟨run, pumped⟩ := Option.isSome_iff_exists.mp
    (wired.isSome_next calm (.pumpForwardDirect (.zeroed .fullTeleop) 2 2 ⟨true, []⟩))
  have execution : (Run.system Vehicle rig .default).Execution (.start .default fun _ => 0)
      [.pumpForwardDirect (.zeroed .fullTeleop) 1 1 ⟨true, []⟩, .enableSim,
        .pumpForwardDirect (.zeroed .fullTeleop) 2 2 ⟨true, []⟩] run :=
    .cons begun (.cons enabled (.cons pumped (.nil run)))
  exact ⟨run, execution, flies_of_reachable ⟨_, _, ⟨_, rfl⟩, execution⟩⟩

end Flight

end Teleop.Integration
