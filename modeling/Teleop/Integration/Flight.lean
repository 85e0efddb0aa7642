import Teleop.Integration.Wiring
import Teleop.Safety.Envelope

/-!
# What reaches the far end of the pipeline

Every run of a harness is, for its safety loop, a run of the loop alone.  So whatever is emitted
is inside the kinematic envelope, and so is whatever the far end decodes.
-/

namespace Teleop.Integration

open Teleop.Core Teleop.Lib Teleop.Link Teleop.Ring Teleop.Safety

variable {D V : Type} [FloatOps D] [FloatPair ℚ D]

/-- The loop of the harness is that of the trace, which has processed what was emitted. -/
structure Mirrors (run : Run ℚ D V) (traced : SafetyLoop.Traced D) : Prop where
  loop_eq : traced.loop = run.harness.loop
  processed_eq : traced.processed.map (·.command) = (run.emitted.map (·.1)).reverse

section Traces

/-- A call other than a tick processes nothing. -/
theorem perform_of_quiet {action : SafetyLoop.Action ℚ D} (quiet : PipelineHarness.Quiet action)
    (traced : SafetyLoop.Traced D) :
    traced.perform action = { traced with loop := traced.loop.perform action } := by
  unfold SafetyLoop.Traced.perform
  dsimp only
  split
  · exact absurd rfl (quiet _ _)
  · rfl

theorem foldl_perform_of_quiet {actions : List (SafetyLoop.Action ℚ D)}
    (quiet : ∀ action ∈ actions, PipelineHarness.Quiet action) (traced : SafetyLoop.Traced D) :
    actions.foldl SafetyLoop.Traced.perform traced =
      { traced with loop := actions.foldl SafetyLoop.perform traced.loop } := by
  induction actions generalizing traced with
  | nil => rfl
  | cons action rest inductionHypothesis =>
      obtain ⟨first, others⟩ := List.forall_mem_cons.mp quiet
      rw [List.foldl_cons, perform_of_quiet first, inductionHypothesis others]
      rfl

/-- A tick processes what it handles. -/
theorem perform_processOne (traced : SafetyLoop.Traced D) (nowNs atUnixNs : UInt64) :
    (traced.perform (.processOne nowNs atUnixNs)).loop =
        traced.loop.perform (.processOne nowNs atUnixNs) ∧
      (traced.perform (.processOne nowNs atUnixNs)).processed.map (·.command) =
        ((traced.loop.handle nowNs atUnixNs).map (·.2.1)).toList ++
          traced.processed.map (·.command) := by
  cases handled : traced.loop.handle nowNs atUnixNs with
  | none => simp [SafetyLoop.Traced.perform, handled]
  | some result => simp [SafetyLoop.Traced.perform, handled]

/-- Commands pushed one by one into the ring of the loop. -/
theorem foldl_pushInput (loop : SafetyLoop ℚ D) (cmds : List (ControlCommand ℚ)) :
    (cmds.map SafetyLoop.Action.pushInput).foldl SafetyLoop.perform loop =
      { loop with input := cmds.foldl SpscRing.pushOrDrop loop.input } := by
  induction cmds generalizing loop with
  | nil => rfl
  | cons cmd rest inductionHypothesis =>
      rw [List.map_cons, List.foldl_cons, inductionHypothesis]
      rfl

end Traces

section Steps

variable {cfg : SafetyConfig ℚ D} {rig : Rig ℚ D V} {run target : Run ℚ D V}
  {traced : SafetyLoop.Traced D}

omit [FloatOps D] [FloatPair ℚ D] in
/-- A stage that leaves the loop alone. -/
theorem Mirrors.congr (mirrors : Mirrors run traced)
    (loop : target.harness.loop = run.harness.loop) (emitted : target.emitted = run.emitted) :
    Mirrors target traced where
  loop_eq := mirrors.loop_eq.trans loop.symm
  processed_eq := by
    rw [emitted]
    exact mirrors.processed_eq

omit [FloatOps D] [FloatPair ℚ D] in
theorem Mirrors.entering (mirrors : Mirrors run traced) (entering : Run.Entering run target) :
    Mirrors target traced := by
  cases entering with
  | ingestTick nowNs => exact mirrors.congr rfl rfl
  | pushDirect cmd =>
      apply mirrors.congr
      · unfold PipelineHarness.pushDirect Run.enter
        dsimp only
        split <;> rfl
      · rfl

/-- Routing is a number of pushes. -/
theorem Mirrors.routed (mirrors : Mirrors run traced) (wired : Wired cfg rig run)
    (routed : run.route = some target) :
    ∃ actions : List (SafetyLoop.Action ℚ D),
      Mirrors target (actions.foldl SafetyLoop.Traced.perform traced) := by
  have found := PipelineHarness.route_eq wired.bus_eq wired.safetySub_eq wired.loggerSub_eq
    wired.inputCapacity
  unfold Run.route at routed
  rw [found] at routed
  cases routed
  refine ⟨run.harness.input.items.map .pushInput, ?_⟩
  rw [foldl_perform_of_quiet]
  · refine ⟨?_, mirrors.processed_eq⟩
    rw [foldl_pushInput, mirrors.loop_eq]
  · intro action among
    obtain ⟨cmd, -, rfl⟩ := List.mem_map.mp among
    rintro _ _ ⟨⟩

/-- A tail is a tick, whose output is emitted, and what follows it. -/
theorem Mirrors.emit (mirrors : Mirrors run traced) (wired : Wired cfg rig run)
    {nowNs atUnixNs : UInt64} {outcome : Outcome} {harness : PipelineHarness ℚ D V}
    {decoded : Option Command}
    (tail : run.harness.Tail rig nowNs atUnixNs outcome harness decoded) :
    ∃ actions : List (SafetyLoop.Action ℚ D),
      Mirrors (run.emit rig nowNs atUnixNs outcome harness decoded)
        (actions.foldl SafetyLoop.Traced.perform traced) := by
  obtain ⟨loop, sim, later, -, result, performed, quiet⟩ :=
    PipelineHarness.intercept_cases rig wired.unblocked nowNs atUnixNs
  obtain ⟨ticked, processed⟩ := perform_processOne traced nowNs atUnixNs
  have left := tail.after_eq
  rw [result] at left
  subst left
  refine ⟨.processOne nowNs atUnixNs :: later, ?_⟩
  rw [List.foldl_cons, foldl_perform_of_quiet quiet]
  constructor
  · rw [mirrors.loop_eq] at ticked
    simp only [Run.emit]
    rw [performed, ticked]
  · simp only [Run.emit, PipelineHarness.emits]
    rw [processed, mirrors.processed_eq, mirrors.loop_eq, result]
    cases run.harness.loop.handle nowNs atUnixNs <;> simp

/-- Every call of the harness is, for its loop, a number of calls of the loop. -/
theorem Mirrors.performed (mirrors : Mirrors run traced) (wired : Wired cfg rig run)
    (performed : Run.Performed rig run target) :
    ∃ actions : List (SafetyLoop.Action ℚ D),
      Mirrors target (actions.foldl SafetyLoop.Traced.perform traced) := by
  cases performed with
  | enableSim | feedReport => exact ⟨[], mirrors.congr rfl rfl⟩
  | entering entering => exact ⟨[], mirrors.entering entering⟩
  | routed found => exact mirrors.routed wired found
  | through entering found tail =>
      have entered := wired.entering entering
      obtain ⟨pushes, kept⟩ := (mirrors.entering entering).routed entered found
      obtain ⟨ticks, done⟩ := kept.emit (entered.routed found) tail
      exact ⟨pushes ++ ticks, by rwa [List.foldl_append]⟩

end Steps

section Runs

variable {rig : Rig ℚ D V} {cfg : SafetyConfig ℚ D} {run target : Run ℚ D V}
  {traced : SafetyLoop.Traced D}

theorem execution_foldl (cfg : SafetyConfig ℚ D) (traced : SafetyLoop.Traced D)
    (actions : List (SafetyLoop.Action ℚ D)) :
    (SafetyLoop.tracedSystem D cfg).Execution traced actions
      (actions.foldl SafetyLoop.Traced.perform traced) := by
  induction actions generalizing traced with
  | nil => exact .nil traced
  | cons action rest inductionHypothesis => exact .cons rfl (inductionHypothesis _)

/-- The idle ticks of a new harness process nothing. -/
theorem foldl_idle (clock : Nat → UInt64) (readings : List Nat)
    (empty : traced.loop.input.items = []) :
    (readings.map fun i => SafetyLoop.Action.processOne 0 (clock (i + 2))).foldl
        SafetyLoop.Traced.perform traced =
      { traced with
        loop := readings.foldl (fun loop i => (loop.processOne 0 (clock (i + 2))).1)
          traced.loop } := by
  induction readings generalizing traced with
  | nil => rfl
  | cons reading rest inductionHypothesis =>
      obtain ⟨idle, advanced, stillEmpty⟩ := processOne_of_idle empty 0 (clock (reading + 2))
      have ticked : traced.perform (.processOne 0 (clock (reading + 2))) =
          { traced with loop := traced.loop.advanceBlend } := by
        simp [SafetyLoop.Traced.perform, SafetyLoop.perform, idle, advanced]
      rw [List.map_cons, List.foldl_cons, ticked, inductionHypothesis stillEmpty, List.foldl_cons,
        advanced]

theorem mirrors_start (cfg : SafetyConfig ℚ D) (clock : Nat → UInt64) :
    ∃ traced, (SafetyLoop.tracedSystem D cfg).Reachable traced ∧
      Mirrors (Run.start cfg clock : Run ℚ D V) traced := by
  let requests : List (SafetyLoop.Action ℚ D) :=
    [.requestMode .assist (clock 0), .requestMode .fullTeleop (clock 1)]
  let ticks : List (SafetyLoop.Action ℚ D) :=
    (List.range 500).map fun i => .processOne 0 (clock (i + 2))
  refine ⟨_, ⟨_, requests ++ ticks, ⟨.withCapacity 1024, .withCapacity 1024, .new, rfl⟩,
    execution_foldl cfg _ _⟩, ?_⟩
  rw [List.foldl_append, foldl_idle]
  · exact ⟨rfl, rfl⟩
  · show ((SafetyLoop.new (.withCapacity 1024) (.withCapacity 1024) .new cfg).requestMode .assist
      (clock 0)).1.requestMode .fullTeleop (clock 1) |>.1.input.items = []
    rw [input_requestMode, input_requestMode]
    rfl

theorem Mirrors.execution (mirrors : Mirrors run traced) (wired : Wired cfg rig run)
    {calls : List (Call ℚ)} (execution : (Run.system V rig cfg).Execution run calls target) :
    ∃ actions : List (SafetyLoop.Action ℚ D),
      Mirrors target (actions.foldl SafetyLoop.Traced.perform traced) := by
  induction execution generalizing traced with
  | nil => exact ⟨[], mirrors⟩
  | cons stepped _ inductionHypothesis =>
      have performed := Run.performed_of_next stepped
      obtain ⟨first, mirrored⟩ := mirrors.performed wired performed
      obtain ⟨others, done⟩ := inductionHypothesis mirrored (wired.performed performed)
      exact ⟨first ++ others, by rwa [List.foldl_append]⟩

/-- Every run of the harness mirrors a run of its loop alone. -/
theorem mirrored_of_reachable (reached : (Run.system V rig cfg).Reachable run) :
    ∃ traced, (SafetyLoop.tracedSystem D cfg).Reachable traced ∧ Mirrors run traced := by
  obtain ⟨_, calls, ⟨clock, rfl⟩, execution⟩ := reached
  obtain ⟨traced, ⟨source, actions, start, ran⟩, mirrors⟩ := mirrors_start (V := V) cfg clock
  obtain ⟨later, mirrored⟩ := mirrors.execution (wired_start cfg clock) execution
  exact ⟨_, ⟨source, actions ++ later, start, ran.append (execution_foldl cfg _ _)⟩, mirrored⟩

/-- What is emitted stays in the envelope, within the slew limits unless it is the safe state,
and so does what is decoded. -/
structure Flown (limits : KinematicLimits ℚ) (rig : Rig ℚ D V) (run : Run ℚ D V) : Prop where
  inside : ∀ out ∈ run.emitted, InEnvelope limits out.1
  steps : (run.emitted.map (·.1)).IsChain fun earlier later =>
    SafeState later ∨ Follows limits earlier later
  decoded : ∀ cmd ∈ run.decoded, ∃ safe, InEnvelope limits safe ∧ cmd = stamped (rig.image safe)

omit [FloatOps D] [FloatPair ℚ D] in
theorem Mirrors.flown (mirrors : Mirrors run traced) (wired : Wired cfg rig run)
    (enveloped : SafetyLoop.Enveloped cfg.limits traced) : Flown cfg.limits rig run := by
  have inside : ∀ out ∈ run.emitted, InEnvelope cfg.limits out.1 := by
    intro out among
    have listed : out.1 ∈ traced.processed.map (·.command) := by
      rw [mirrors.processed_eq, List.mem_reverse]
      exact List.mem_map_of_mem among
    obtain ⟨processed, member, same⟩ := List.mem_map.mp listed
    rw [← same]
    exact enveloped.inside processed member
  refine ⟨inside, ?_, ?_⟩
  · have chain : (traced.processed.map (·.command)).IsChain fun later earlier =>
        SafeState later ∨ Follows cfg.limits earlier later := by
      rw [List.isChain_map]
      apply enveloped.steps.imp_of_mem_imp
      intro later earlier member _ follows
      cases latched : later.latched with
      | false => exact .inr (follows latched)
      | true =>
          obtain ⟨seq, nowNs, safe⟩ := enveloped.safe later member latched
          rw [safe]
          exact .inl (safeState_writeEmergencyStop seq nowNs)
    rw [mirrors.processed_eq, List.isChain_reverse] at chain
    exact chain
  · intro cmd among
    obtain ⟨safe, emitted, same⟩ := wired.decoded_of cmd among
    exact ⟨safe, inside _ emitted, same⟩

/-- In every run with nonnegative limits whatever is emitted and decoded is inside the envelope;
once the stop is latched, only the safe state is emitted. -/
theorem flown_of_reachable (nonneg : cfg.limits.NonNeg)
    (reached : (Run.system V rig cfg).Reachable run) :
    Flown cfg.limits rig run ∧ ∀ calls target,
      (Run.system V rig cfg).Execution run calls target →
        run.harness.loop.estopLatched = true →
          ∃ newer, target.emitted.map (·.1) = run.emitted.map (·.1) ++ newer ∧
            ∀ cmd ∈ newer, SafeState cmd := by
  obtain ⟨traced, mirrored, mirrors⟩ := mirrored_of_reachable reached
  have wired := wiring_of_reachable reached
  refine ⟨mirrors.flown wired (SafetyLoop.kept_of_reachable nonneg mirrored).toEnveloped, ?_⟩
  intro calls target execution latched
  obtain ⟨actions, after⟩ := mirrors.execution wired execution
  rw [← mirrors.loop_eq] at latched
  obtain ⟨newer, grown, safe⟩ :=
    SafetyLoop.safe_of_latched (execution_foldl cfg traced actions) latched
  refine ⟨(newer.map (·.command)).reverse, ?_, ?_⟩
  · have processed := after.processed_eq
    rw [grown, List.map_append, mirrors.processed_eq] at processed
    rw [← List.reverse_inj, List.reverse_append, List.reverse_reverse]
    exact processed.symm
  · intro cmd among
    obtain ⟨out, member, rfl⟩ := List.mem_map.mp (List.mem_reverse.mp among)
    obtain ⟨seq, nowNs, stop⟩ := safe out member
    rw [stop]
    exact safeState_writeEmergencyStop seq nowNs

end Runs

/-- One tick on what was ingested. -/
theorem flown_ingestedOnce :
    ∃ target, ingestedOnce.next restingRig (.step 2 2 ⟨true, [.arrived 0 ⟨.v4 0x7F000001, 100⟩]⟩) =
        some target ∧
      Flown KinematicLimits.default restingRig target := by
  obtain ⟨target, found⟩ := Option.isSome_iff_exists.mp
    ((wiring_of_reachable reachable_ingestedOnce).isSome_next panics_default
      (.step 2 2 ⟨true, [.arrived 0 ⟨.v4 0x7F000001, 100⟩]⟩))
  have reached := reachable_ingestedOnce.step found
  exact ⟨target, found, (flown_of_reachable SafetyLoop.nonNeg_default reached).1⟩

end Teleop.Integration
