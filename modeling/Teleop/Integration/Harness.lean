import Teleop.Core.Bus
import Teleop.Input.Pipeline
import Teleop.Link.Mux
import Teleop.Safety.StopOverride

/-!
# The pipeline harness

Ingest, normalize, route, safety, serialize and transmit, wired into one object.  Its calls come
in any order; the datagrams it transmits may be lost, repeated and reordered on the way to its
own receiving socket.
-/

namespace Teleop.Integration

open Teleop.Core Teleop.Input Teleop.Lib Teleop.Link Teleop.Ring Teleop.Safety

variable {S D V : Type}

/-- What a harness rests on: the archived forms of the wire, the bit pattern of an axis, and the
simulated vehicle. -/
structure Rig (S D V : Type) where
  archive : Archive Command 56
  packets : Archive (TelemetryPacket UInt32) 56
  bits : S → UInt32
  fresh : V
  tick : V → ControlCommand S → V
  pose : V → Pose6D S D

/-- A command with the bit patterns of its axes. -/
def Rig.image (rig : Rig S D V) (cmd : ControlCommand S) : Command :=
  { cmd with axes := fun axis => rig.bits (cmd.axes axis) }

/-- The datagram of a command. -/
def Rig.frame (rig : Rig S D V) (cmd : ControlCommand S) : List UInt8 :=
  controlFrame rig.archive (rig.image cmd) 0

/-- What one poll of the receiving socket finds: nothing, a failure, or some datagram that was
transmitted, named by its position. -/
inductive Polled where
  | nothing
  | failed
  | arrived (position : Nat) (source : SocketAddr)

/-- What the sockets do during a call. -/
structure Outcome where
  sent : Bool
  polls : List Polled

/-- Where a call fails. -/
inductive Failure where
  | serialize (error : LinkError)
  | send
  | receive
  deriving DecidableEq

/-- The whole data plane.  The safety loop owns `safety_in` and `safety_out`; `wire` holds the
datagrams that the transmitting socket took. -/
structure PipelineHarness (S D V : Type) where
  input : SpscRing (ControlCommand S)
  loop : SafetyLoop S D
  bus : MessageBus (ControlCommand S)
  safetySub : SubscriberId
  loggerSub : SubscriberId
  ingest : InputStage S
  queue : SpscRing (ControllerReport S)
  sim : Option V
  wire : List (List UInt8)
  loggerScratch : List (ControlCommand S)
  routedCount : UInt64

namespace PipelineHarness

variable [FloatOps S] [FloatOps D] [FloatPair S D]

/-- The loop of a new harness: full authority, requested in two steps, and 500 idle ticks.  The
machine reads the clock once a call. -/
def settledLoop (cfg : SafetyConfig S D) (clock : Nat → UInt64) : SafetyLoop S D :=
  let loop := SafetyLoop.new (.withCapacity 1024) (.withCapacity 1024) .new cfg
  let loop := (loop.requestMode .assist (clock 0)).1
  let loop := (loop.requestMode .fullTeleop (clock 1)).1
  (List.range 500).foldl (fun loop i => (loop.processOne 0 (clock (i + 2))).1) loop

def buildWith (cfg : SafetyConfig S D) (clock : Nat → UInt64) : PipelineHarness S D V :=
  let bus : MessageBus (ControlCommand S) := .new 1024
  let (bus, safetySub) := bus.subscribe
  let (bus, loggerSub) := bus.subscribe
  { input := .withCapacity 1024
    loop := settledLoop cfg clock
    bus
    safetySub
    loggerSub
    ingest := .new .default
    queue := .withCapacity 256
    sim := none
    wire := []
    loggerScratch := []
    routedCount := 0 }

def enableSim (rig : Rig S D V) (harness : PipelineHarness S D V) : PipelineHarness S D V :=
  { harness with sim := some rig.fresh }

def feedReport (harness : PipelineHarness S D V) (report : ControllerReport S) :
    PipelineHarness S D V :=
  { harness with queue := harness.queue.pushOrDrop report }

/-- Polls the scripted source: the oldest queued report, or the scratch report as it was. -/
def poll (queue : SpscRing (ControllerReport S)) (out : ControllerReport S) :
    Bool × ControllerReport S × SpscRing (ControllerReport S) :=
  match queue.pop with
  | some (report, rest) => (true, report, rest)
  | none => (false, out, queue)

/-- One ingest poll; returns the command if one was queued. -/
def ingestTick (harness : PipelineHarness S D V) (nowNs : UInt64) :
    PipelineHarness S D V × Option (ControlCommand S) :=
  let (fresh, report, queue) := poll harness.queue harness.ingest.scratchReport
  let (ingest, input, cmd) := harness.ingest.tick harness.input nowNs fresh report
  ({ harness with ingest, input, queue }, cmd)

/-- A ready command takes the place of the ingest stage. -/
def pushDirect (harness : PipelineHarness S D V) (cmd : ControlCommand S) :
    PipelineHarness S D V × Option (ControlCommand S) :=
  match harness.input.push cmd with
  | .ok input => ({ harness with input }, some cmd)
  | .error _ => (harness, none)

/-- Fans out whatever the ingest stage has queued. -/
def publishPending (harness : PipelineHarness S D V) : PipelineHarness S D V :=
  let (pending, input) := harness.input.drain
  { harness with
    input
    bus := pending.foldl (fun bus cmd => (bus.publish cmd).1) harness.bus
    routedCount := pending.foldl (fun count _ => count + 1) harness.routedCount }

/-- The routing stage; returns what it offered to the safety loop.  `none` where a poll
panics. -/
def route (harness : PipelineHarness S D V) :
    Option (PipelineHarness S D V × List (ControlCommand S)) :=
  let harness := harness.publishPending
  match harness.bus.poll harness.safetySub with
  | none => none
  | some (bus, routeScratch) =>
      let loop := { harness.loop with
        input := routeScratch.foldl SpscRing.pushOrDrop harness.loop.input }
      match bus.poll harness.loggerSub with
      | none => none
      | some (bus, loggerScratch) => some ({ harness with loop, bus, loggerScratch }, routeScratch)

/-- What the hot tails share: one tick of the safety loop, and the command that it leaves, on
which the vehicle moves. -/
def intercept (rig : Rig S D V) (harness : PipelineHarness S D V) (nowNs atUnixNs : UInt64) :
    PipelineHarness S D V × Option (ControlCommand S) :=
  let loop := (harness.loop.processOne nowNs atUnixNs).1
  match loop.output.pop with
  | none => ({ harness with loop }, none)
  | some (safe, output) =>
      let loop := { loop with output }
      match harness.sim with
      | none => ({ harness with loop }, some safe)
      | some sim =>
          let sim := rig.tick sim safe
          ({ harness with loop := loop.setPose (rig.pose sim), sim := some sim }, some safe)

/-- Serialize and transmit; returns the number of bytes sent. -/
def transmit (rig : Rig S D V) (harness : PipelineHarness S D V) (safe : ControlCommand S)
    (sent : Bool) : PipelineHarness S D V × Except Failure Nat :=
  match writeControlFrame rig.archive (rig.image safe) 0 with
  | .error error => (harness, .error (.serialize error))
  | .ok frame =>
      if sent then ({ harness with wire := harness.wire ++ [frame] }, .ok frame.length)
      else (harness, .error .send)

/-- Drains one datagram from the receiving socket; what is no command is passed over. -/
def recvLoop (rig : Rig S D V) (wire : List (List UInt8)) :
    List Polled → Except Failure (Option Command)
  | [] => .ok none
  | .nothing :: rest => recvLoop rig wire rest
  | .failed :: _ => .error .receive
  | .arrived position source :: rest =>
      match wire[position]? with
      | none => recvLoop rig wire rest
      | some bytes =>
          match recvFrame rig.archive rig.packets.access bytes source with
          | .ok (.control cmd _ _) => .ok (some cmd)
          | _ => recvLoop rig wire rest

def recvOne (rig : Rig S D V) (harness : PipelineHarness S D V) (polls : List Polled) :
    Except Failure (Option Command) :=
  recvLoop rig harness.wire (polls.take 400)

/-- Safety, serialize, transmit and receive; `none` where the safety loop panics. -/
def runHot (rig : Rig S D V) (harness : PipelineHarness S D V) (nowNs atUnixNs : UInt64)
    (outcome : Outcome) : Option (PipelineHarness S D V × Except Failure (Option Command)) :=
  if harness.loop.panics then none
  else
    match harness.intercept rig nowNs atUnixNs with
    | (harness, none) => some (harness, harness.recvOne rig outcome.polls)
    | (harness, some safe) =>
        match harness.transmit rig safe outcome.sent with
        | (harness, .error failure) => some (harness, .error failure)
        | (harness, .ok _) => some (harness, harness.recvOne rig outcome.polls)

/-- Safety, serialize and transmit, which returns the number of bytes sent. -/
def forwardTail (rig : Rig S D V) (harness : PipelineHarness S D V) (nowNs atUnixNs : UInt64)
    (outcome : Outcome) : Option (PipelineHarness S D V × Except Failure Nat) :=
  if harness.loop.panics then none
  else
    match harness.intercept rig nowNs atUnixNs with
    | (harness, none) => some (harness, .ok 0)
    | (harness, some safe) => some (harness.transmit rig safe outcome.sent)

def step (rig : Rig S D V) (harness : PipelineHarness S D V) (nowNs atUnixNs : UInt64)
    (outcome : Outcome) : Option (PipelineHarness S D V × Except Failure (Option Command)) :=
  (harness.ingestTick nowNs).1.route.bind fun routed =>
    routed.1.runHot rig nowNs atUnixNs outcome

def stepDirect (rig : Rig S D V) (harness : PipelineHarness S D V) (cmd : ControlCommand S)
    (nowNs atUnixNs : UInt64) (outcome : Outcome) :
    Option (PipelineHarness S D V × Except Failure (Option Command)) :=
  (harness.pushDirect cmd).1.route.bind fun routed => routed.1.runHot rig nowNs atUnixNs outcome

def pumpForward (rig : Rig S D V) (harness : PipelineHarness S D V) (nowNs atUnixNs : UInt64)
    (outcome : Outcome) : Option (PipelineHarness S D V × Except Failure Nat) :=
  (harness.ingestTick nowNs).1.route.bind fun routed =>
    routed.1.forwardTail rig nowNs atUnixNs outcome

def pumpForwardDirect (rig : Rig S D V) (harness : PipelineHarness S D V)
    (cmd : ControlCommand S) (nowNs atUnixNs : UInt64) (outcome : Outcome) :
    Option (PipelineHarness S D V × Except Failure Nat) :=
  (harness.pushDirect cmd).1.route.bind fun routed =>
    routed.1.forwardTail rig nowNs atUnixNs outcome

end PipelineHarness

end Teleop.Integration
