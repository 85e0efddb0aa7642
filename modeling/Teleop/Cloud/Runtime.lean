import Teleop.Cloud.Connection
import Teleop.Cloud.Gate

/-!
# The server and its connections

One tick dispatches what the platform reports as ready, accepts what waits at the listener up to
the limit, serves every connection in some order, and reclaims the idle ones.  What the sockets
give is an argument of each call.  Registration with the platform loop is left out: a tick
serves all connections, registered or not.
-/

namespace Teleop.Cloud

open Teleop.Lib Teleop.Sec

/-- Admission limits; no `maxConns` is no limit.  The timeout is in nanoseconds. -/
structure ServerLimits where
  maxConns : Nat
  idleTimeout : Nat
  deriving DecidableEq, Repr

def ServerLimits.default : ServerLimits := ⟨1024, 30 * 10 ^ 9⟩

/-- The token of the listening socket. -/
def listenerToken : UInt64 := 0

/-- One accepted connection; an instant is the nanoseconds since some origin. -/
structure Conn where
  readBuf : List UInt8
  lastActive : Nat
  deriving DecidableEq, Repr

/-- What one call of the service routine meets: what its reads give, the instant of the last one
that gave data, and the surroundings of a request that is complete. -/
structure Visit (p : Primitives) where
  results : List ReadResult
  now : Nat
  around : Surroundings p

/-- One readiness event, with what the routine it leads to would meet. -/
structure Readiness (p : Primitives) where
  token : UInt64
  readable : Bool
  /-- The instants at which waiting clients could be accepted. -/
  arrivals : List Nat
  visit : Visit p

/-- What one tick meets. -/
structure Tick (p : Primitives) where
  ready : List (Readiness p)
  arrivals : List Nat
  /-- The order in which the table lists its tokens. -/
  order : List UInt64
  visits : UInt64 → Visit p
  now : Nat

/-- What becomes of the connections. -/
inductive ConnEvent (p : Primitives) where
  | opened (token : UInt64)
  | read (token : UInt64) (results : List ReadResult)
  | answered (token : UInt64) (req : Request) (around : Surroundings p) (resp : Response)
  | swept (token : UInt64) (idle : Nat)

/-- The fleet server with the connections it has accepted. -/
structure HostedServer (T R : Type) (p : Primitives) where
  server : FleetServer T R p
  nextToken : UInt64
  conns : HashMap UInt64 Conn
  limits : ServerLimits

namespace HostedServer

variable {T R : Type} {p : Primitives}

/-- A server that has just been bound. -/
def bind (server : FleetServer T R p) (limits : ServerLimits) : HostedServer T R p :=
  ⟨server, 1, ∅, limits⟩

/-- A server after a call, and what became of the connections; `none` where the call does not
return, or the reads are not those of such a call. -/
abbrev After (T R : Type) (p : Primitives) := Option (HostedServer T R p × List (ConnEvent p))

def andThen (first : After T R p) (next : HostedServer T R p → After T R p) : After T R p :=
  first.bind fun (host, events) => (next host).map fun (host, later) => (host, events ++ later)

/-- One after the other. -/
def each {Item : Type} (call : Item → HostedServer T R p → After T R p) :
    List Item → HostedServer T R p → After T R p
  | [], host => some (host, [])
  | item :: rest, host => andThen (call item host) (each call rest)

/-- The connection cap is reached. -/
def Full (host : HostedServer T R p) : Prop :=
  host.limits.maxConns ≤ host.conns.entries.length ∧ 0 < host.limits.maxConns

instance (host : HostedServer T R p) : Decidable host.Full := inferInstanceAs (Decidable (_ ∧ _))

/-- Keep a stream that was accepted. -/
def accept (host : HostedServer T R p) (now : Nat) : HostedServer T R p :=
  { host with
    nextToken := host.nextToken + 1
    conns := host.conns.insert host.nextToken ⟨[], now⟩ }

/-- Accept every waiting client.  At the limit one more is accepted and dropped, and the others
wait. -/
def tryAccept : List Nat → HostedServer T R p → After T R p
  | [], host => some (host, [])
  | now :: waiting, host =>
      if host.Full then some (host, [])
      else andThen (some (host.accept now, [.opened host.nextToken])) (tryAccept waiting)

/-- Take a connection out of the table. -/
def drop (host : HostedServer T R p) (token : UInt64) : HostedServer T R p :=
  { host with conns := host.conns.erase token }

variable (F : Type) [JsonNumber F] [SignatureBytes p.ed.Signature] [UnitTransport T] [Recorder R]
  (toLowercase : String → String) (page : String)

/-- Read from one connection, and answer a request that is complete. -/
def serviceConn (token : UInt64) (visit : Visit p) (host : HostedServer T R p) : After T R p :=
  match host.conns.lookup token with
  | none => some (host, [])
  | some conn =>
      match readLoop conn.readBuf visit.results with
      | (.removed, []) => some (host.drop token, [.read token visit.results])
      | (.blocked readBuf, []) =>
          match Teleop.Cloud.serviceConn toLowercase readBuf [] with
          | .closed => some (host.drop token, [.read token visit.results])
          | .panicked => none
          | .dispatched req =>
              let (server, resp) := FleetServer.handleRequest F page host.server req visit.around
              some ({ host.drop token with server },
                [.read token visit.results, .answered token req visit.around resp])
          | .buffering readBuf =>
              let lastActive := if received visit.results = [] then conn.lastActive else visit.now
              some ({ host with
                  conns := (host.conns.erase token).insert token ⟨readBuf, lastActive⟩ },
                [.read token visit.results])
      | _ => none

/-- The handler of the platform loop. -/
def ready (event : Readiness p) (host : HostedServer T R p) : After T R p :=
  if event.token = listenerToken then
    if event.readable then tryAccept event.arrivals host else some (host, [])
  else if event.readable then serviceConn F toLowercase page event.token event.visit host
  else some (host, [])

/-- Serve the connections in the order in which the table lists them. -/
def serviceAll (tick : Tick p) (host : HostedServer T R p) : After T R p :=
  if tick.order.Perm host.conns.keys then
    each (fun token => serviceConn F toLowercase page token (tick.visits token)) tick.order host
  else none

/-- The heartbeat that also serves what the platform did not report. -/
def pump (tick : Tick p) (host : HostedServer T R p) : After T R p :=
  andThen (tryAccept tick.arrivals host) (serviceAll F toLowercase page tick)

/-- For how long a connection has been idle. -/
def idleFor (now : Nat) (entry : Sigma fun _ : UInt64 => Conn) : Nat := now - entry.2.lastActive

def stays (host : HostedServer T R p) (now : Nat) (entry : Sigma fun _ : UInt64 => Conn) : Bool :=
  idleFor now entry ≤ host.limits.idleTimeout

/-- Keep the connections that have not been idle for longer than the timeout. -/
def sweepIdle (now : Nat) (host : HostedServer T R p) : After T R p :=
  some ({ host with
      conns := ⟨host.conns.entries.filter (host.stays now),
        host.conns.nodupKeys.sublist List.filter_sublist⟩ },
    (host.conns.entries.filter fun entry => !host.stays now entry).map fun entry =>
      .swept entry.1 (idleFor now entry))

/-- One service tick. -/
def runOnce (tick : Tick p) (host : HostedServer T R p) : After T R p :=
  andThen (andThen (each (ready F toLowercase page) tick.ready host)
    (pump F toLowercase page tick)) (sweepIdle tick.now)

end HostedServer

end Teleop.Cloud
