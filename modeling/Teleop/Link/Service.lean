import Teleop.Link.Mux
import Teleop.Link.ReliableTx

/-!
# The network service

The link state driven by one event loop: outgoing commands and beacons, the
background timers, and the handling of one received datagram.  Whether a send
succeeds and what the clock shows is up to the environment, as are the datagrams
that arrive.  Counters and backpressure are left out: nothing here reads them.
-/

namespace Teleop.Link

open Teleop.Lib Teleop.Ring

/-- Service configuration. -/
structure ServiceConfig where
  unitId : UInt64 := 0
  listenPort : UInt16 := 0
  beaconIntervalNs : UInt64 := 200000000
  meshTtlNs : UInt64 := 5000000000
  beaconPeers : List SocketAddr := []
  primaryPeer : Option SocketAddr := none
  reliableControl : Bool := false
  rtoNs : UInt64 := 10000000

/-- A datagram handed to the transport. -/
structure Datagram where
  dst : SocketAddr
  bytes : List UInt8
  deriving DecidableEq

/-- The outcome of every send and every reading of the clock, in the order they are made. -/
structure Environment where
  accepts : Nat → Bool
  clock : Nat → UInt64

/-- A transport that takes every datagram, at a clock that stands still. -/
def Environment.alwaysOpen : Environment := ⟨fun _ => true, fun _ => 1⟩

/-- An owned event handed to the sink. -/
inductive Event where
  | control (cmd : Command) (source : SocketAddr) (reliable : Bool)
  | telemetry (pkt : Core.TelemetryPacket UInt32) (source : SocketAddr)
  | ice (payload : List UInt8) (source : SocketAddr)
  | neighborUp (unitId : UInt64) (peer : SocketAddr)
  | secure (sealed : List UInt8) (source : SocketAddr) (inner : UInt8)

structure ServiceCore where
  env : Environment
  sends : Nat
  readings : Nat
  sent : List Datagram
  localPort : Option UInt16
  cfg : ServiceConfig
  mesh : NeighborTable
  relTx : ReliableTx
  relRx : ReliableRx
  outbox : SpscRing Command
  lastBeaconNs : UInt64
  beaconSeq : UInt32

namespace ServiceCore

def new (cfg : ServiceConfig) (safetyOut : SpscRing Command) (localPort : Option UInt16)
    (env : Environment) : ServiceCore where
  env := env
  sends := 0
  readings := 0
  sent := []
  localPort := localPort
  cfg := cfg
  mesh := .withCapacity 128
  relTx := .new {}
  relRx := .new
  outbox := safetyOut
  lastBeaconNs := 0
  beaconSeq := 0

def nowNs (core : ServiceCore) : ServiceCore × UInt64 :=
  ({ core with readings := core.readings + 1 }, core.env.clock core.readings)

/-- Hands one framed datagram to the transport, by the ring or by the socket. -/
def transmit (core : ServiceCore) (dst : SocketAddr) (bytes : List UInt8) :
    ServiceCore × Except LinkError Nat :=
  if core.env.accepts core.sends then
    ({ core with sends := core.sends + 1, sent := core.sent ++ [⟨dst, bytes⟩] }, .ok bytes.length)
  else ({ core with sends := core.sends + 1 }, .error .wouldBlock)

/-- The explicit primary peer, else the first known neighbor. -/
def primaryDst (core : ServiceCore) : Option SocketAddr :=
  core.cfg.primaryPeer.or (core.mesh.iter.head?.map (·.addr))

/-- In reliable mode, keep the framed command for retransmission; a full window is ignored. -/
def retain (core : ServiceCore) (cmd : Command) (bytes : List UInt8) (nowNs : UInt64) :
    ServiceCore :=
  if fits : core.cfg.reliableControl = true ∧ bytes.length ≤ maxReliablePayload then
    { core with relTx := (core.relTx.send cmd.seq.toUInt32 ⟨bytes, fits.2⟩ nowNs).1 }
  else core

def controlFlags (cfg : ServiceConfig) : UInt8 := if cfg.reliableControl then flagReliable else 0

/-- Emits one beacon to `dst`. -/
def sendBeaconTo (core : ServiceCore) (dst : SocketAddr) : ServiceCore × Except LinkError Unit :=
  let (core, now) := core.nowNs
  let port := core.localPort.getD core.cfg.listenPort
  let beacon := MeshBeacon.new core.cfg.unitId core.beaconSeq now port
  let (core, result) := core.transmit dst (writeMeshFrame beacon)
  (core, result.map fun _ => ())

/-- One beacon round to every configured peer and every known neighbor. -/
def beaconFanout (core : ServiceCore) : ServiceCore :=
  let peers := core.cfg.beaconPeers ++ core.mesh.iter.map (·.addr)
  peers.foldl (fun core dst => (core.sendBeaconTo dst).1) core

/-- The mesh heartbeat of `background`. -/
def beaconHeartbeat (core : ServiceCore) (nowNs : UInt64) : ServiceCore :=
  if saturatingSub nowNs core.lastBeaconNs ≥ core.cfg.beaconIntervalNs then
    let core := { core with beaconSeq := core.beaconSeq + 1, lastBeaconNs := nowNs }
    let core := core.beaconFanout
    { core with mesh := (core.mesh.expire nowNs core.cfg.meshTtlNs).1 }
  else core

/-- Retransmissions of overdue frames toward the primary peer. -/
def resend (core : ServiceCore) : ServiceCore :=
  match core.primaryDst with
  | none => core
  | some dst =>
      let (core, now) := core.nowNs
      let (relTx, frames) := core.relTx.tick now core.cfg.rtoNs
      frames.foldl (fun core frame => (core.transmit dst frame.2.val).1) { core with relTx }

section Codec

variable (archive : Archive Command 56)
  (telemetry : List UInt8 → Option (Core.TelemetryPacket UInt32))

/-- Transmits one control command, reliable or fire-and-forget. -/
def sendControl (core : ServiceCore) (cmd : Command) (dst : SocketAddr) :
    ServiceCore × Except LinkError Unit :=
  let (core, now) := core.nowNs
  match writeControlFrame archive cmd (controlFlags core.cfg) with
  | .error failure => (core, .error failure)
  | .ok bytes =>
      let core := core.retain cmd bytes now
      let (core, result) := core.transmit dst bytes
      (core, result.map fun _ => ())

/-- The outbox loop of `background`: pop first, then look for a destination and send; the
first failure ends it.  Each pass pops one command, so the length of the queue is enough
fuel. -/
def flushOutbox : (fuel : Nat) → ServiceCore → ServiceCore
  | 0, core => core
  | fuel + 1, core =>
      match core.outbox.pop with
      | none => core
      | some (cmd, outbox) =>
          let core := { core with outbox }
          match core.primaryDst with
          | none => core -- nobody to talk to yet
          | some dst =>
              match core.sendControl archive cmd dst with
              | (core, .ok ()) => flushOutbox fuel core
              | (core, .error _) => core -- kernel buffer full

/-- The timers that run regardless of socket readiness. -/
def background (core : ServiceCore) : ServiceCore :=
  let (core, now) := core.nowNs
  let core := flushOutbox archive core.outbox.items.length core
  let core := core.beaconHeartbeat now
  core.resend

/-- A reliable command moves the receive window and is answered by an acknowledgement; the
verdict of `accept` is ignored. -/
def acknowledge (core : ServiceCore) (cmd : Command) (source : SocketAddr) : ServiceCore :=
  let relRx := (core.relRx.accept cmd.seq.toUInt32 .empty).1
  let core := { core with relRx }
  (core.transmit source (writeAckFrame (relRx.buildAck 0))).1

/-- Phase C of `drain_now`: protocol state and the event for the sink. -/
def dispatch (core : ServiceCore) (inbound : Inbound) : ServiceCore × Option Event :=
  let (core, now) := core.nowNs
  match inbound with
  | .control cmd source reliable =>
      (if reliable then core.acknowledge cmd source else core,
        some (.control cmd source reliable))
  | .telemetry pkt source => (core, some (.telemetry pkt source))
  | .ice payload source => (core, some (.ice payload source))
  | .secure sealed source inner => (core, some (.secure sealed source inner))
  | .mesh beacon source =>
      let peer := { source with port := beacon.listenPort }
      let (mesh, worthReply) :=
        core.mesh.observe ⟨beacon.unitId, peer, beacon.seq, beacon.tsNs, now⟩
      let core := { core with mesh }
      if worthReply then ((core.sendBeaconTo peer).1, some (.neighborUp beacon.unitId peer))
      else (core, none)
  | .ack ack _ => ({ core with relTx := (core.relTx.onAck ack now).1 }, none)

/-- One datagram from the socket. -/
def receive (core : ServiceCore) (bytes : List UInt8) (source : SocketAddr) :
    ServiceCore × Option Event :=
  match recvFrame archive telemetry bytes source with
  | .error _ => (core, none)
  | .ok inbound => core.dispatch inbound

end Codec

end ServiceCore

end Teleop.Link
