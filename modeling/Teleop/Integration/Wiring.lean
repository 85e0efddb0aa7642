import Teleop.Integration.Harness
import Teleop.Lib.TransitionSystem
import Teleop.Link.MuxRoundTrip

/-!
# What passes between the stages

Between two calls the bus and the output of the safety loop are empty, whatever the order of the
calls: routing loses nothing, the loop never has to drop an output, and what the far end decodes
is what the loop emitted.
-/

namespace Teleop.Integration

open Teleop.Core Teleop.Input Teleop.Lib Teleop.Link Teleop.Ring Teleop.Safety

variable {S D V : Type}

/-- The calls on a harness, with what the clock and the sockets do meanwhile. -/
inductive Call (S : Type) where
  | enableSim
  | feedReport (report : ControllerReport S)
  | ingestTick (nowNs : UInt64)
  | route
  | step (nowNs atUnixNs : UInt64) (outcome : Outcome)
  | stepDirect (cmd : ControlCommand S) (nowNs atUnixNs : UInt64) (outcome : Outcome)
  | pumpForward (nowNs atUnixNs : UInt64) (outcome : Outcome)
  | pumpForwardDirect (cmd : ControlCommand S) (nowNs atUnixNs : UInt64) (outcome : Outcome)

/-- A harness with its history: how many commands had been emitted when the vehicle was put in,
and the commands that entered, that were offered to the safety loop, that the logger saw, that
the loop emitted (and whether the socket took them), and that the far end decoded. -/
structure Run (S D V : Type) where
  harness : PipelineHarness S D V
  enabledAt : Nat
  entered : List (ControlCommand S)
  offered : List (ControlCommand S)
  logged : List (ControlCommand S)
  emitted : List (ControlCommand S × Bool)
  decoded : List Command

/-- The bus between two calls. -/
def idleBus : MessageBus (ControlCommand S) := ⟨[.withCapacity 1024, .withCapacity 1024], 1024⟩

section Loop

variable [FloatOps S] [FloatOps D] [FloatPair S D]

/-- The output ring, the count of its drops and the configuration are left alone. -/
def SameOutput (loop after : SafetyLoop S D) : Prop :=
  after.output = loop.output ∧ after.droppedOut = loop.droppedOut ∧ after.cfg = loop.cfg

omit [FloatOps S] [FloatOps D] [FloatPair S D] in
theorem SameOutput.trans {loop middle after : SafetyLoop S D} (first : SameOutput loop middle)
    (second : SameOutput middle after) : SameOutput loop after :=
  ⟨second.1.trans first.1, second.2.1.trans first.2.1, second.2.2.trans first.2.2⟩

theorem sameOutput_advanceBlend (loop : SafetyLoop S D) :
    SameOutput loop loop.advanceBlend := by
  unfold SafetyLoop.advanceBlend
  split <;> exact ⟨rfl, rfl, rfl⟩

theorem sameOutput_intercept (loop : SafetyLoop S D) (cmd : ControlCommand S)
    (nowNs atUnixNs : UInt64) :
    SameOutput loop (loop.intercept cmd nowNs atUnixNs).1 := by
  have prepared : SameOutput loop (loop.prepare cmd nowNs).1 :=
    sameOutput_advanceBlend { loop with latency := (loop.latency.observe nowNs cmd.timestampNs).1 }
  have fenced : SameOutput (loop.prepare cmd nowNs).1
      ((loop.prepare cmd nowNs).1.projectFence (loop.prepare cmd nowNs).2 atUnixNs).1 := by
    rcases (loop.prepare cmd nowNs).1.projectFence_cases (loop.prepare cmd nowNs).2 atUnixNs with
      ⟨same, -⟩ | ⟨stopped, -⟩
    · rw [same]
      exact ⟨rfl, rfl, rfl⟩
    · rw [stopped]
      exact ⟨rfl, rfl, rfl⟩
  -- the limits, the brake and the override touch none of them
  exact prepared.trans fenced

theorem sameOutput_handle {loop after : SafetyLoop S D} {cmd : ControlCommand S} {drained : Nat}
    {nowNs atUnixNs : UInt64}
    (handled : loop.handle nowNs atUnixNs = some (after, cmd, drained)) :
    SameOutput loop after := by
  obtain ⟨newest, -, result⟩ := SafetyLoop.handle_eq_some handled
  have kept := sameOutput_intercept
    { loop.advanceBlend with input := loop.advanceBlend.input.drain.2 } newest nowNs atUnixNs
  rw [result] at kept
  exact (sameOutput_advanceBlend loop).trans kept

/-- The loop has nothing to hand on, room for what comes next, has dropped nothing, and is
configured as it was. -/
structure Unblocked (cfg : SafetyConfig S D) (loop : SafetyLoop S D) : Prop where
  output_eq : loop.output = .withCapacity 1024
  undropped : loop.droppedOut = 0
  cfg_eq : loop.cfg = cfg

variable {cfg : SafetyConfig S D}

omit [FloatOps S] [FloatOps D] [FloatPair S D] in
theorem Unblocked.congr {loop after : SafetyLoop S D} (unblocked : Unblocked cfg loop)
    (same : SameOutput loop after) : Unblocked cfg after :=
  ⟨same.1.trans unblocked.output_eq, same.2.1.trans unblocked.undropped,
    same.2.2.trans unblocked.cfg_eq⟩

omit [FloatOps D] [FloatPair S D] in
theorem sameOutput_requestMode (loop : SafetyLoop S D) (mode : Mode) (atUnixNs : UInt64) :
    SameOutput loop (loop.requestMode mode atUnixNs).1 := by
  unfold SafetyLoop.requestMode
  split <;> exact ⟨rfl, rfl, rfl⟩

omit [FloatOps D] [FloatPair S D] in
theorem input_requestMode (loop : SafetyLoop S D) (mode : Mode) (atUnixNs : UInt64) :
    (loop.requestMode mode atUnixNs).1.input = loop.input := by
  unfold SafetyLoop.requestMode
  split <;> rfl

/-- A tick leaves one command in the output, or none. -/
theorem Unblocked.processOne {loop : SafetyLoop S D} (unblocked : Unblocked cfg loop)
    (nowNs atUnixNs : UInt64) :
    (loop.handle nowNs atUnixNs = none ∧
        (loop.processOne nowNs atUnixNs).1 = loop.advanceBlend ∧
        (loop.processOne nowNs atUnixNs).1.output.pop = none) ∨
      ∃ after cmd drained, loop.handle nowNs atUnixNs = some (after, cmd, drained) ∧
        (loop.processOne nowNs atUnixNs).1.droppedOut = 0 ∧
        (loop.processOne nowNs atUnixNs).1.cfg = cfg ∧
        (loop.processOne nowNs atUnixNs).1.output.pop = some (cmd, .withCapacity 1024) := by
  cases handled : loop.handle nowNs atUnixNs with
  | none =>
      refine .inl ⟨rfl, by simp [SafetyLoop.processOne, handled], ?_⟩
      simp only [SafetyLoop.processOne, handled]
      rw [(sameOutput_advanceBlend loop).1, unblocked.output_eq]
      rfl
  | some result =>
      obtain ⟨after, cmd, drained⟩ := result
      have idle := unblocked.congr (sameOutput_handle handled)
      refine .inr ⟨after, cmd, drained, rfl, ?_⟩
      cases pushed : after.output.push cmd with
      | error refused =>
          have full := SpscRing.full_of_push pushed
          rw [idle.output_eq] at full
          exact absurd full (show ¬nextPowerOfTwo 1024 ≤ 0 by decide)
      | ok output =>
          have items := SpscRing.items_of_push pushed
          have capacity := SpscRing.capacity_of_push pushed
          rw [idle.output_eq] at items capacity
          simp only [SafetyLoop.processOne, handled, pushed]
          refine ⟨idle.undropped, idle.cfg_eq, ?_⟩
          cases popped : output.pop with
          | none =>
              rw [SpscRing.items_of_pop_none popped] at items
              cases items
          | some taken =>
              obtain ⟨oldest, rest⟩ := taken
              have content := SpscRing.items_of_pop popped
              rw [items] at content
              obtain ⟨rfl, empty⟩ := List.cons.inj content
              have kept := (SpscRing.capacity_of_pop popped).trans capacity
              rw [SpscRing.eq_of_items kept empty.symm]

/-- Without a command a tick only advances the blend. -/
theorem processOne_of_idle {loop : SafetyLoop S D} (empty : loop.input.items = [])
    (nowNs atUnixNs : UInt64) :
    loop.handle nowNs atUnixNs = none ∧
      (loop.processOne nowNs atUnixNs).1 = loop.advanceBlend ∧
      loop.advanceBlend.input.items = [] := by
  have input := loop.advanceBlend_frame.2.2.2.2
  have idle : loop.handle nowNs atUnixNs = none := by
    simp [SafetyLoop.handle, SpscRing.drain, input, empty]
  refine ⟨idle, by simp [SafetyLoop.processOne, idle], ?_⟩
  rw [input]
  exact empty

theorem unblocked_settledLoop (cfg : SafetyConfig S D) (clock : Nat → UInt64) :
    Unblocked cfg (PipelineHarness.settledLoop cfg clock) := by
  have ticks (loop : SafetyLoop S D) (unblocked : Unblocked cfg loop)
      (empty : loop.input.items = []) (readings : List Nat) :
      Unblocked cfg (readings.foldl (fun loop i => (loop.processOne 0 (clock (i + 2))).1) loop) := by
    induction readings generalizing loop with
    | nil => exact unblocked
    | cons reading rest inductionHypothesis =>
        obtain ⟨-, advanced, stillEmpty⟩ := processOne_of_idle empty 0 (clock (reading + 2))
        rw [List.foldl_cons, advanced]
        exact inductionHypothesis _ (unblocked.congr (sameOutput_advanceBlend loop)) stillEmpty
  have start : Unblocked cfg
      (SafetyLoop.new (.withCapacity 1024) (.withCapacity 1024) .new cfg : SafetyLoop S D) :=
    ⟨rfl, rfl, rfl⟩
  have requested := (start.congr (sameOutput_requestMode _ .assist (clock 0))).congr
    (sameOutput_requestMode _ .fullTeleop (clock 1))
  apply ticks _ requested
  rw [input_requestMode, input_requestMode]
  rfl

end Loop

section Bus

/-- Commands that fit into the rings of an idle bus are all polled, by each subscriber, and leave
it idle. -/
theorem poll_published {pending : List (ControlCommand S)} (fits : pending.length ≤ 1024) :
    ∃ half : MessageBus (ControlCommand S),
      (pending.foldl (fun bus cmd => (bus.publish cmd).1) idleBus).poll ⟨0⟩ =
          some (half, pending) ∧
        half.poll ⟨1⟩ = some (idleBus, pending) := by
  have room : (SpscRing.withCapacity 1024 : SpscRing (ControlCommand S)).items.length +
      pending.length ≤ (SpscRing.withCapacity 1024 : SpscRing (ControlCommand S)).capacity := by
    simpa [SpscRing.withCapacity]
  obtain ⟨content, capacity⟩ := SpscRing.foldl_pushOrDrop room
  generalize full : pending.foldl SpscRing.pushOrDrop (.withCapacity 1024) = ring at *
  have drained : ring.drain.2 = .withCapacity 1024 := SpscRing.eq_of_items capacity rfl
  have published := MessageBus.subscribers_foldl_publish pending idleBus
  have items : ring.items = pending := content
  have polled (bus : MessageBus (ControlCommand S)) (rings : bus.subscribers = [ring, ring])
      (each : bus.perSubscriberCapacity = 1024) :
      ∃ half, bus.poll ⟨0⟩ = some (half, pending) ∧ half.poll ⟨1⟩ = some (idleBus, pending) := by
    obtain ⟨subscribers, perSubscriberCapacity⟩ := bus
    subst rings each
    refine ⟨⟨[ring.drain.2, ring], 1024⟩, ?_, ?_⟩
    · rw [← items]
      exact MessageBus.poll_eq_drain rfl
    · rw [← items, idleBus, ← drained]
      exact MessageBus.poll_eq_drain rfl
  apply polled
  · rw [published]
    simp [idleBus, full]
  · exact MessageBus.capacity_foldl_publish pending idleBus

end Bus

namespace PipelineHarness

variable [FloatOps S] [FloatOps D] [FloatPair S D]

omit [FloatOps S] [FloatOps D] [FloatPair S D] in
/-- What routing does to a harness whose bus is idle: all that was queued is offered to the
safety loop and shown to the logger. -/
theorem route_eq {harness : PipelineHarness S D V} (idle : harness.bus = idleBus)
    (safetySub : harness.safetySub = ⟨0⟩) (loggerSub : harness.loggerSub = ⟨1⟩)
    (capacity : harness.input.capacity = 1024) :
    harness.route = some (
      { harness with
        input := harness.input.drain.2
        loop := { harness.loop with
          input := harness.input.items.foldl SpscRing.pushOrDrop harness.loop.input }
        loggerScratch := harness.input.items
        routedCount := harness.input.items.foldl (fun count _ => count + 1) harness.routedCount },
      harness.input.items) := by
  have fits := harness.input.bounded
  rw [capacity] at fits
  obtain ⟨half, first, second⟩ := poll_published fits
  simp only [route, publishPending, SpscRing.drain, idle, safetySub, loggerSub, first, second]

/-- A call of the loop other than a tick. -/
def Quiet (action : SafetyLoop.Action S D) : Prop :=
  ∀ nowNs atUnixNs, action ≠ .processOne nowNs atUnixNs

/-- A tick of the loop hands on what it handled, which leaves the loop unblocked.  To the loop
it is a tick, a pop and a new pose. -/
theorem intercept_cases (rig : Rig S D V) {cfg : SafetyConfig S D}
    {harness : PipelineHarness S D V} (unblocked : Unblocked cfg harness.loop)
    (nowNs atUnixNs : UInt64) :
    ∃ loop sim, ∃ later : List (SafetyLoop.Action S D), Unblocked cfg loop ∧
      harness.intercept rig nowNs atUnixNs =
        ({ harness with loop, sim }, (harness.loop.handle nowNs atUnixNs).map (·.2.1)) ∧
      loop = later.foldl SafetyLoop.perform
        (harness.loop.perform (.processOne nowNs atUnixNs)) ∧
      ∀ action ∈ later, Quiet action := by
  unfold intercept
  dsimp only
  rcases unblocked.processOne nowNs atUnixNs with
    ⟨idle, advanced, empty⟩ | ⟨after, cmd, drained, handled, undropped, configured, popped⟩
  · rw [empty, idle]
    refine ⟨_, harness.sim, [], ?_, rfl, rfl, List.forall_mem_nil _⟩
    rw [advanced]
    exact unblocked.congr (sameOutput_advanceBlend _)
  · rw [popped, handled]
    have taken : (harness.loop.perform (.processOne nowNs atUnixNs)).perform .popOutput =
        { (harness.loop.processOne nowNs atUnixNs).1 with output := .withCapacity 1024 } := by
      simp only [SafetyLoop.perform, popped]
    cases harness.sim with
    | none =>
        refine ⟨_, none, [.popOutput], ?_, rfl, taken.symm, ?_⟩
        · exact ⟨rfl, undropped, configured⟩
        · rintro action among
          rw [List.mem_singleton.mp among]
          rintro _ _ ⟨⟩
    | some sim =>
        refine ⟨_, some _, [.popOutput, .setPose (rig.pose (rig.tick sim cmd))], ?_, rfl, ?_, ?_⟩
        · exact ⟨rfl, undropped, configured⟩
        · rw [List.foldl_cons, taken]
          rfl
        · rintro action among
          rcases List.mem_pair.mp among with rfl | rfl <;> rintro _ _ ⟨⟩

theorem wire_intercept (rig : Rig S D V) (harness : PipelineHarness S D V)
    (nowNs atUnixNs : UInt64) :
    (harness.intercept rig nowNs atUnixNs).1.wire = harness.wire := by
  unfold intercept
  dsimp only
  split
  · rfl
  · split <;> rfl

omit [FloatOps S] [FloatOps D] [FloatPair S D] in
theorem ok_of_decoded {result : Except Failure (Option Command)} {cmd : Command}
    (decoded : cmd ∈ result.toOption.join) : result = .ok (some cmd) := by
  rcases result with failure | none | found
  · cases decoded
  · cases decoded
  · cases decoded
    rfl

/-- One of the hot tails has run, and may have decoded a command: it does what the tail does that
only forwards, and may then read from the wire. -/
structure Tail (rig : Rig S D V) (harness : PipelineHarness S D V) (nowNs atUnixNs : UInt64)
    (outcome : Outcome) (after : PipelineHarness S D V) (decoded : Option Command) : Prop where
  forwarded : ∃ sent, harness.forwardTail rig nowNs atUnixNs outcome = some (after, sent)
  received : ∀ cmd ∈ decoded,
    recvLoop rig after.wire (outcome.polls.take 400) = .ok (some cmd)

theorem tail_of_forwardTail {rig : Rig S D V} {harness after : PipelineHarness S D V}
    {nowNs atUnixNs : UInt64} {outcome : Outcome} {sent : Except Failure Nat}
    (ran : harness.forwardTail rig nowNs atUnixNs outcome = some (after, sent)) :
    Tail rig harness nowNs atUnixNs outcome after none where
  forwarded := ⟨sent, ran⟩
  received _ impossible := nomatch impossible

theorem tail_of_runHot {rig : Rig S D V} {harness after : PipelineHarness S D V}
    {nowNs atUnixNs : UInt64} {outcome : Outcome} {result : Except Failure (Option Command)}
    (ran : harness.runHot rig nowNs atUnixNs outcome = some (after, result)) :
    Tail rig harness nowNs atUnixNs outcome after result.toOption.join := by
  unfold runHot at ran
  split at ran
  · cases ran
  rename_i sound
  cases intercepted : harness.intercept rig nowNs atUnixNs with
  | mk taken safe =>
      rw [intercepted] at ran
      cases safe with
      | none =>
          cases ran
          refine ⟨⟨.ok 0, ?_⟩, fun cmd received => ok_of_decoded received⟩
          rw [forwardTail, if_neg sound, intercepted]
      | some safe =>
          dsimp only at ran
          cases carried : taken.transmit rig safe outcome.sent with
          | mk transmitted verdict =>
              have forwarded : harness.forwardTail rig nowNs atUnixNs outcome =
                  some (transmitted, verdict) := by
                rw [forwardTail, if_neg sound, intercepted]
                dsimp only
                rw [carried]
              rw [carried] at ran
              cases verdict with
              | error failure =>
                  cases ran
                  refine ⟨⟨_, forwarded⟩, ?_⟩
                  rintro cmd ⟨⟩
              | ok count =>
                  cases ran
                  exact ⟨⟨_, forwarded⟩, fun cmd received => ok_of_decoded received⟩

omit [FloatOps S] [FloatOps D] [FloatPair S D] in
theorem transmit_eq (rig : Rig S D V) (harness : PipelineHarness S D V)
    (safe : ControlCommand S) (sent : Bool) :
    (harness.transmit rig safe sent).1 =
      { harness with
        wire := harness.wire ++ (([(safe, sent)].filter (·.2)).map fun out => rig.frame out.1) } := by
  unfold transmit
  rw [writeControlFrame_eq]
  cases sent with
  | false => simp
  | true => rfl

omit [FloatOps S] [FloatOps D] [FloatPair S D] in
/-- What arrives was transmitted. -/
theorem mem_of_recvLoop {rig : Rig S D V} {wire : List (List UInt8)} {polls : List Polled}
    {cmd : Command} (received : recvLoop rig wire polls = .ok (some cmd)) :
    ∃ bytes ∈ wire, ∃ source from_ reliable,
      recvFrame rig.archive rig.packets.access bytes source = .ok (.control cmd from_ reliable) := by
  induction polls with
  | nil => cases received
  | cons polled rest inductionHypothesis =>
      cases polled with
      | nothing => exact inductionHypothesis received
      | failed => cases received
      | arrived position source =>
          rw [recvLoop] at received
          split at received
          · exact inductionHypothesis received
          · rename_i bytes found
            split at received
            · rename_i taken from_ reliable decoded
              cases received
              exact ⟨bytes, List.mem_of_getElem? found, source, from_, reliable, decoded⟩
            · exact inductionHypothesis received

end PipelineHarness

/-- The datagram of a command is decoded to the command with its tag. -/
theorem recvFrame_frame (rig : Rig S D V) (cmd : ControlCommand S) (source : SocketAddr) :
    recvFrame rig.archive rig.packets.access (rig.frame cmd) source =
      .ok (.control (stamped (rig.image cmd)) source false) := by
  have length : (rig.frame cmd).length ≤ maxDatagram := by
    unfold Rig.frame controlFrame
    rw [length_assemble, rig.archive.length_serialize]
    decide
  unfold recvFrame
  rw [List.take_of_length_le length]
  exact demux_controlFrame rig.archive rig.packets.access _ (by decide) source

namespace PipelineHarness

variable [FloatOps S] [FloatOps D] [FloatPair S D]

/-- What a hot tail is about to emit. -/
def emits (rig : Rig S D V) (harness : PipelineHarness S D V) (nowNs atUnixNs : UInt64)
    (outcome : Outcome) : List (ControlCommand S × Bool) :=
  (harness.intercept rig nowNs atUnixNs).2.toList.map (·, outcome.sent)

/-- A hot tail leaves what the interception leaves, with the datagram of what it emits. -/
theorem forwardTail_eq (rig : Rig S D V) (harness : PipelineHarness S D V)
    (nowNs atUnixNs : UInt64) (outcome : Outcome) :
    (harness.forwardTail rig nowNs atUnixNs outcome).map (·.1) =
      if harness.loop.panics then none
      else
        some { (harness.intercept rig nowNs atUnixNs).1 with
          wire := harness.wire ++
            ((harness.emits rig nowNs atUnixNs outcome).filter (·.2)).map fun out =>
              rig.frame out.1 } := by
  have wire := harness.wire_intercept rig nowNs atUnixNs
  unfold forwardTail emits
  split
  · rfl
  generalize harness.intercept rig nowNs atUnixNs = taken at wire ⊢
  obtain ⟨harness, safe⟩ := taken
  dsimp only at wire
  cases safe with
  | none => simp [← wire]
  | some safe =>
      dsimp only
      rw [Option.map_some, transmit_eq, wire]
      rfl

/-- What a tail leaves. -/
theorem Tail.after_eq {rig : Rig S D V} {harness after : PipelineHarness S D V}
    {nowNs atUnixNs : UInt64} {outcome : Outcome} {decoded : Option Command}
    (tail : Tail rig harness nowNs atUnixNs outcome after decoded) :
    after = { (harness.intercept rig nowNs atUnixNs).1 with
      wire := harness.wire ++
        ((harness.emits rig nowNs atUnixNs outcome).filter (·.2)).map fun out =>
          rig.frame out.1 } := by
  obtain ⟨sent, forwarded⟩ := tail.forwarded
  have same := harness.forwardTail_eq rig nowNs atUnixNs outcome
  rw [forwarded] at same
  split at same
  · cases same
  · exact Option.some.inj same

end PipelineHarness

namespace Run

variable [FloatOps S] [FloatOps D] [FloatPair S D]

def start (cfg : SafetyConfig S D) (clock : Nat → UInt64) : Run S D V where
  harness := .buildWith cfg clock
  enabledAt := 0
  entered := []
  offered := []
  logged := []
  emitted := []
  decoded := []

/-- A stage has run that a command may have entered through. -/
def enter (run : Run S D V) (stage : PipelineHarness S D V × Option (ControlCommand S)) :
    Run S D V :=
  { run with harness := stage.1, entered := run.entered ++ stage.2.toList }

def route (run : Run S D V) : Option (Run S D V) :=
  run.harness.route.map fun routed =>
    { run with
      harness := routed.1
      offered := run.offered ++ routed.2
      logged := run.logged ++ routed.1.loggerScratch }

/-- A hot tail has run and may have decoded a command. -/
def emit (rig : Rig S D V) (run : Run S D V) (nowNs atUnixNs : UInt64) (outcome : Outcome)
    (harness : PipelineHarness S D V) (decoded : Option Command) : Run S D V :=
  { run with
    harness
    emitted := run.emitted ++ run.harness.emits rig nowNs atUnixNs outcome
    decoded := run.decoded ++ decoded.toList }

/-- What a call through all stages leaves, with what passes on the way. -/
def through {R : Type} (rig : Rig S D V) (run : Run S D V)
    (stage : PipelineHarness S D V × Option (ControlCommand S)) (nowNs atUnixNs : UInt64)
    (outcome : Outcome) (ended : Option (PipelineHarness S D V × R))
    (decoded : R → Option Command) : Option (Run S D V) :=
  (run.enter stage).route.bind fun routed => ended.map fun (harness, result) =>
    routed.emit rig nowNs atUnixNs outcome harness (decoded result)

/-- Performs a call; `none` where it panics. -/
def next (rig : Rig S D V) (run : Run S D V) : Call S → Option (Run S D V)
  | .enableSim =>
      some { run with harness := run.harness.enableSim rig, enabledAt := run.emitted.length }
  | .feedReport report => some { run with harness := run.harness.feedReport report }
  | .ingestTick nowNs => some (run.enter (run.harness.ingestTick nowNs))
  | .route => run.route
  | .step nowNs atUnixNs outcome =>
      run.through rig (run.harness.ingestTick nowNs) nowNs atUnixNs outcome
        (run.harness.step rig nowNs atUnixNs outcome) fun result => result.toOption.join
  | .stepDirect cmd nowNs atUnixNs outcome =>
      run.through rig (run.harness.pushDirect cmd) nowNs atUnixNs outcome
        (run.harness.stepDirect rig cmd nowNs atUnixNs outcome) fun result => result.toOption.join
  | .pumpForward nowNs atUnixNs outcome =>
      run.through rig (run.harness.ingestTick nowNs) nowNs atUnixNs outcome
        (run.harness.pumpForward rig nowNs atUnixNs outcome) fun _ => none
  | .pumpForwardDirect cmd nowNs atUnixNs outcome =>
      run.through rig (run.harness.pushDirect cmd) nowNs atUnixNs outcome
        (run.harness.pumpForwardDirect rig cmd nowNs atUnixNs outcome) fun _ => none

/-- A stage through which commands enter. -/
inductive Entering (run : Run S D V) : Run S D V → Prop
  | ingestTick (nowNs : UInt64) : Entering run (run.enter (run.harness.ingestTick nowNs))
  | pushDirect (cmd : ControlCommand S) : Entering run (run.enter (run.harness.pushDirect cmd))

/-- What a call does. -/
inductive Performed (rig : Rig S D V) (run : Run S D V) : Run S D V → Prop
  | enableSim :
      Performed rig run
        { run with harness := run.harness.enableSim rig, enabledAt := run.emitted.length }
  | feedReport (report : ControllerReport S) :
      Performed rig run { run with harness := run.harness.feedReport report }
  | entering {target : Run S D V} (entering : Entering run target) : Performed rig run target
  | routed {target : Run S D V} (found : run.route = some target) : Performed rig run target
  | through {entered routed : Run S D V} {nowNs atUnixNs : UInt64} {outcome : Outcome}
      {harness : PipelineHarness S D V} {decoded : Option Command}
      (entering : Entering run entered) (found : entered.route = some routed)
      (tail : routed.harness.Tail rig nowNs atUnixNs outcome harness decoded) :
      Performed rig run (routed.emit rig nowNs atUnixNs outcome harness decoded)

section Through

variable {R : Type} {rig : Rig S D V} {run routed target : Run S D V} {nowNs atUnixNs : UInt64}
  {outcome : Outcome} {stage : PipelineHarness S D V × Option (ControlCommand S)}
  {decoded : R → Option Command} (tail : PipelineHarness S D V → Option (PipelineHarness S D V × R))

theorem cases_through
    (performed : run.through rig stage nowNs atUnixNs outcome
      (stage.1.route.bind fun routed => tail routed.1) decoded = some target) :
    ∃ routed harness result, (run.enter stage).route = some routed ∧
      tail routed.harness = some (harness, result) ∧
      target = routed.emit rig nowNs atUnixNs outcome harness (decoded result) := by
  obtain ⟨routed, found, ended⟩ := Option.bind_eq_some_iff.mp performed
  obtain ⟨⟨harness, result⟩, ran, rfl⟩ := Option.map_eq_some_iff.mp ended
  obtain ⟨offered, first, rfl⟩ := Option.map_eq_some_iff.mp found
  have same : stage.1.route = some offered := first
  rw [same] at ran
  exact ⟨_, harness, result, found, ran, rfl⟩

theorem isSome_through (found : (run.enter stage).route = some routed)
    (ends : (tail routed.harness).isSome) :
    (run.through rig stage nowNs atUnixNs outcome
      (stage.1.route.bind fun routed => tail routed.1) decoded).isSome := by
  obtain ⟨offered, first, rfl⟩ := Option.map_eq_some_iff.mp found
  have same : stage.1.route = some offered := first
  rw [through, found, same]
  simpa using ends

theorem performed_of_next {call : Call S} (performed : run.next rig call = some target) :
    Performed rig run target := by
  cases call with
  | enableSim =>
      cases performed
      exact .enableSim
  | feedReport report =>
      cases performed
      exact .feedReport report
  | ingestTick nowNs =>
      cases performed
      exact .entering (.ingestTick nowNs)
  | route => exact .routed performed
  | step nowNs atUnixNs outcome =>
      rw [next, PipelineHarness.step] at performed
      obtain ⟨routed, harness, result, found, ran, rfl⟩ :=
        cases_through (·.runHot rig nowNs atUnixNs outcome) performed
      exact .through (.ingestTick nowNs) found (PipelineHarness.tail_of_runHot ran)
  | stepDirect cmd nowNs atUnixNs outcome =>
      rw [next, PipelineHarness.stepDirect] at performed
      obtain ⟨routed, harness, result, found, ran, rfl⟩ :=
        cases_through (·.runHot rig nowNs atUnixNs outcome) performed
      exact .through (.pushDirect cmd) found (PipelineHarness.tail_of_runHot ran)
  | pumpForward nowNs atUnixNs outcome =>
      rw [next, PipelineHarness.pumpForward] at performed
      obtain ⟨routed, harness, result, found, ran, rfl⟩ :=
        cases_through (·.forwardTail rig nowNs atUnixNs outcome) performed
      exact .through (.ingestTick nowNs) found (PipelineHarness.tail_of_forwardTail ran)
  | pumpForwardDirect cmd nowNs atUnixNs outcome =>
      rw [next, PipelineHarness.pumpForwardDirect] at performed
      obtain ⟨routed, harness, result, found, ran, rfl⟩ :=
        cases_through (·.forwardTail rig nowNs atUnixNs outcome) performed
      exact .through (.pushDirect cmd) found (PipelineHarness.tail_of_forwardTail ran)

end Through

variable (V) in
/-- Runs of harnesses with one configuration. -/
def system (rig : Rig S D V) (cfg : SafetyConfig S D) :
    TransitionSystem (Run S D V) (Call S) :=
  .ofNext (fun run => ∃ clock, run = start cfg clock) (next rig)

end Run

/-- What holds of the wiring between two calls. -/
structure Wired (cfg : SafetyConfig S D) (rig : Rig S D V) (run : Run S D V) : Prop where
  bus_eq : run.harness.bus = idleBus
  safetySub_eq : run.harness.safetySub = ⟨0⟩
  loggerSub_eq : run.harness.loggerSub = ⟨1⟩
  inputCapacity : run.harness.input.capacity = 1024
  /-- The loop has never had to drop an output. -/
  unblocked : Unblocked cfg run.harness.loop
  /-- Each subscriber has seen each command once and in order, save those still queued. -/
  logged_eq : run.entered = run.logged ++ run.harness.input.items
  offered_eq : run.offered = run.logged
  counted : run.harness.routedCount = .ofNat run.logged.length
  /-- The wire carries what was emitted and taken by the socket. -/
  wire_eq : run.harness.wire = (run.emitted.filter (·.2)).map fun out => rig.frame out.1
  /-- The far end decodes nothing else. -/
  decoded_of : ∀ cmd ∈ run.decoded, ∃ safe, (safe, true) ∈ run.emitted ∧
    cmd = stamped (rig.image safe)

section Steps

variable [FloatOps S] [FloatOps D] [FloatPair S D] {cfg : SafetyConfig S D} {rig : Rig S D V}
  {run target : Run S D V}

theorem foldl_count {α : Type} (values : List α) (count : UInt64) :
    values.foldl (fun count _ => count + 1) count = count + .ofNat values.length := by
  induction values generalizing count with
  | nil => simp
  | cons value rest inductionHypothesis =>
      rw [List.foldl_cons, inductionHypothesis, List.length_cons, UInt64.ofNat_add,
        UInt64.add_assoc, UInt64.add_comm 1]
      rfl

theorem wired_start (cfg : SafetyConfig S D) (clock : Nat → UInt64) :
    Wired cfg rig (Run.start cfg clock) := by
  have unblocked := unblocked_settledLoop cfg clock
  unfold Run.start PipelineHarness.buildWith
  generalize PipelineHarness.settledLoop cfg clock = loop at unblocked
  constructor
  · rfl
  · rfl
  · rfl
  · exact show nextPowerOfTwo 1024 = 1024 by decide
  · exact unblocked
  · rfl
  · rfl
  · rfl
  · rfl
  · rintro cmd ⟨⟩

omit [FloatOps S] [FloatOps D] [FloatPair S D] in
/-- A stage through which commands enter adds what it returns to the input ring. -/
theorem Wired.enter (wired : Wired cfg rig run) {harness : PipelineHarness S D V}
    {cmd : Option (ControlCommand S)} {ingest : InputStage S} {queue : SpscRing (ControllerReport S)}
    {input : SpscRing (ControlCommand S)} (capacity : input.capacity = run.harness.input.capacity)
    (items : input.items = run.harness.input.items ++ cmd.toList)
    (same : harness = { run.harness with input, ingest, queue }) :
    Wired cfg rig (run.enter (harness, cmd)) := by
  subst same
  exact { wired with
    inputCapacity := capacity.trans wired.inputCapacity
    logged_eq := by
      simp only [Run.enter]
      rw [items, wired.logged_eq, List.append_assoc] }

omit [FloatOps D] [FloatPair S D] in
theorem Wired.ingestTick (wired : Wired cfg rig run) (nowNs : UInt64) :
    Wired cfg rig (run.enter (run.harness.ingestTick nowNs)) := by
  unfold PipelineHarness.ingestTick
  generalize PipelineHarness.poll run.harness.queue run.harness.ingest.scratchReport = polled
  obtain ⟨fresh, report, queue⟩ := polled
  dsimp only
  obtain ⟨next, -, ⟨-, pushed, result, ticked⟩ | ⟨-, ticked⟩⟩ :=
    run.harness.ingest.tick_cases ⟨run.harness.input, nowNs, fresh, report⟩
  · rw [ticked]
    apply wired.enter
    · exact SpscRing.capacity_of_push result
    · exact SpscRing.items_of_push result
    · rfl
  · rw [ticked]
    apply wired.enter
    · rfl
    · exact (List.append_nil _).symm
    · rfl

omit [FloatOps S] [FloatOps D] [FloatPair S D] in
theorem Wired.pushDirect (wired : Wired cfg rig run) (cmd : ControlCommand S) :
    Wired cfg rig (run.enter (run.harness.pushDirect cmd)) := by
  unfold PipelineHarness.pushDirect
  split
  · rename_i input pushed
    apply wired.enter
    · exact SpscRing.capacity_of_push pushed
    · exact SpscRing.items_of_push pushed
    · rfl
  · apply wired.enter
    · rfl
    · exact (List.append_nil _).symm
    · rfl

omit [FloatOps S] [FloatOps D] [FloatPair S D] in
theorem Wired.route (wired : Wired cfg rig run) :
    ∃ routed, run.route = some routed ∧ Wired cfg rig routed := by
  have found := PipelineHarness.route_eq wired.bus_eq wired.safetySub_eq wired.loggerSub_eq
    wired.inputCapacity
  refine ⟨_, congrArg (Option.map _) found, ?_⟩
  exact { wired with
    unblocked := wired.unblocked.congr ⟨rfl, rfl, rfl⟩
    logged_eq := by
      dsimp only
      rw [SpscRing.drain, List.append_nil]
      exact wired.logged_eq
    offered_eq := by
      dsimp only
      rw [wired.offered_eq]
    counted := by
      dsimp only
      rw [foldl_count, wired.counted, List.length_append, UInt64.ofNat_add] }

/-- What the hot tails share: the loop emits, and the socket takes it or does not; whatever the
receiving socket finds on the wire may be decoded. -/
theorem Wired.emit (wired : Wired cfg rig run) {nowNs atUnixNs : UInt64} {outcome : Outcome}
    {harness : PipelineHarness S D V} {decoded : Option Command}
    (tail : run.harness.Tail rig nowNs atUnixNs outcome harness decoded) :
    Wired cfg rig (run.emit rig nowNs atUnixNs outcome harness decoded) := by
  have received := tail.received
  obtain ⟨loop, sim, later, unblocked, result, -, -⟩ :=
    PipelineHarness.intercept_cases rig wired.unblocked nowNs atUnixNs
  have left := tail.after_eq
  rw [result] at left
  subst left
  have onWire : run.harness.wire ++
      ((run.harness.emits rig nowNs atUnixNs outcome).filter (·.2)).map (fun out =>
        rig.frame out.1) =
      ((run.emitted ++ run.harness.emits rig nowNs atUnixNs outcome).filter (·.2)).map fun out =>
        rig.frame out.1 := by
    rw [wired.wire_eq, List.filter_append, List.map_append]
  refine { wired with unblocked := unblocked, wire_eq := onWire, decoded_of := ?_ }
  intro cmd among
  rcases List.mem_append.mp among with earlier | now
  · obtain ⟨safe, listed, same⟩ := wired.decoded_of cmd earlier
    exact ⟨safe, List.mem_append_left _ listed, same⟩
  · obtain ⟨bytes, there, source, from_, reliable, read⟩ :=
      PipelineHarness.mem_of_recvLoop (received cmd (Option.mem_toList.mp now))
    rw [onWire] at there
    obtain ⟨⟨safe, taken⟩, listed, rfl⟩ := List.mem_map.mp there
    obtain ⟨emitted, onIt⟩ := List.mem_filter.mp listed
    rw [recvFrame_frame] at read
    cases read
    cases taken with
    | false => cases onIt
    | true => exact ⟨safe, emitted, rfl⟩

omit [FloatOps D] [FloatPair S D] in
theorem Wired.entering (wired : Wired cfg rig run) (entering : Run.Entering run target) :
    Wired cfg rig target := by
  cases entering with
  | ingestTick nowNs => exact wired.ingestTick nowNs
  | pushDirect cmd => exact wired.pushDirect cmd

omit [FloatOps S] [FloatOps D] [FloatPair S D] in
theorem Wired.routed (wired : Wired cfg rig run) (found : run.route = some target) :
    Wired cfg rig target := by
  obtain ⟨_, again, kept⟩ := wired.route
  cases again.symm.trans found
  exact kept

/-- Each call keeps the wiring. -/
theorem Wired.performed (wired : Wired cfg rig run) (performed : Run.Performed rig run target) :
    Wired cfg rig target := by
  cases performed with
  | enableSim => exact { wired with }
  | feedReport report => exact { wired with }
  | entering entering => exact wired.entering entering
  | routed found => exact wired.routed found
  | through entering found tail => exact ((wired.entering entering).routed found).emit tail

/-- With limits in order the tails do not panic. -/
theorem Wired.isSome_tails (wired : Wired cfg rig run) (sound : cfg.limits.panics = false)
    (nowNs atUnixNs : UInt64) (outcome : Outcome) :
    (run.harness.runHot rig nowNs atUnixNs outcome).isSome ∧
      (run.harness.forwardTail rig nowNs atUnixNs outcome).isSome := by
  have calm : run.harness.loop.panics = false := by
    rw [SafetyLoop.panics, wired.unblocked.cfg_eq, sound, Bool.and_false]
  unfold PipelineHarness.runHot PipelineHarness.forwardTail
  rw [calm]
  constructor
  · simp only [Bool.false_eq_true, if_false]
    split
    · rfl
    · split <;> rfl
  · simp only [Bool.false_eq_true, if_false]
    split <;> rfl

/-- With limits in order no call panics. -/
theorem Wired.isSome_next (wired : Wired cfg rig run) (sound : cfg.limits.panics = false)
    (call : Call S) : (run.next rig call).isSome := by
  cases call with
  | enableSim | feedReport | ingestTick => rfl
  | route =>
      obtain ⟨routed, found, -⟩ := wired.route
      exact Option.isSome_of_eq_some found
  | step nowNs atUnixNs outcome =>
      rw [Run.next, PipelineHarness.step]
      obtain ⟨routed, found, kept⟩ := (wired.ingestTick nowNs).route
      exact Run.isSome_through (·.runHot rig nowNs atUnixNs outcome) found
        (kept.isSome_tails sound nowNs atUnixNs outcome).1
  | stepDirect cmd nowNs atUnixNs outcome =>
      rw [Run.next, PipelineHarness.stepDirect]
      obtain ⟨routed, found, kept⟩ := (wired.pushDirect cmd).route
      exact Run.isSome_through (·.runHot rig nowNs atUnixNs outcome) found
        (kept.isSome_tails sound nowNs atUnixNs outcome).1
  | pumpForward nowNs atUnixNs outcome =>
      rw [Run.next, PipelineHarness.pumpForward]
      obtain ⟨routed, found, kept⟩ := (wired.ingestTick nowNs).route
      exact Run.isSome_through (·.forwardTail rig nowNs atUnixNs outcome) found
        (kept.isSome_tails sound nowNs atUnixNs outcome).2
  | pumpForwardDirect cmd nowNs atUnixNs outcome =>
      rw [Run.next, PipelineHarness.pumpForwardDirect]
      obtain ⟨routed, found, kept⟩ := (wired.pushDirect cmd).route
      exact Run.isSome_through (·.forwardTail rig nowNs atUnixNs outcome) found
        (kept.isSome_tails sound nowNs atUnixNs outcome).2

theorem wiring_of_reachable (reached : (Run.system V rig cfg).Reachable run) :
    Wired cfg rig run := by
  apply reached.invariant
  · rintro _ ⟨clock, rfl⟩
    exact wired_start cfg clock
  · intro run call target wired stepped
    exact wired.performed (Run.performed_of_next stepped)

/-- In every run the wiring holds, and no call panics unless the limits do. -/
theorem wired_of_reachable (reached : (Run.system V rig cfg).Reachable run) :
    Wired cfg rig run ∧ (cfg.limits.panics = false → ∀ call, (run.next rig call).isSome) :=
  ⟨wiring_of_reachable reached, fun sound => (wiring_of_reachable reached).isSome_next sound⟩

end Steps

/-- The plain images, the bit pattern of the only axis value below, and a vehicle that rests. -/
def restingRig : Rig ℚ ℚ Unit where
  archive := .command
  packets := .telemetry
  bits _ := 0
  fresh := ()
  tick _ _ := ()
  pose _ := .default

/-- A harness that has ingested one report. -/
def ingestedOnce : Run ℚ ℚ Unit :=
  let start : Run ℚ ℚ Unit := .start .default fun _ => 0
  let fed := { start with harness := start.harness.feedReport .default }
  fed.enter (fed.harness.ingestTick 1)

theorem reachable_ingestedOnce :
    (Run.system Unit restingRig .default).Reachable ingestedOnce :=
  ⟨.start .default fun _ => 0, [.feedReport .default, .ingestTick 1], ⟨_, rfl⟩,
    .cons rfl (.cons rfl (.nil _))⟩

theorem panics_default : (KinematicLimits.default : KinematicLimits ℚ).panics = false := by
  decide +kernel

theorem wired_ingestedOnce : ingestedOnce.entered.length = 1 ∧
    Wired .default restingRig ingestedOnce ∧
    (ingestedOnce.next restingRig (.step 2 2 ⟨true, [.arrived 0 ⟨.v4 0x7F000001, 100⟩]⟩)).isSome := by
  have wired := wired_of_reachable reachable_ingestedOnce
  exact ⟨by decide +kernel, wired.1, wired.2 panics_default _⟩

end Teleop.Integration
