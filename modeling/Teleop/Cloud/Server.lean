import Teleop.Cloud.Auth
import Teleop.Cloud.Mcp

/-!
# The fleet server

The routes of one parsed request: the dashboard, the MCP endpoint and the fleet API.  The
secure handshake is dispatched before the gate.  Sockets and the event loop are left out;
what the clock shows and what the random source returns are given with the request, and
the static page of the dashboard is a parameter.
-/

namespace Teleop.Cloud

open Teleop.Lib Teleop.Sec

section Paths

/-- The non-empty segments of a path. -/
def segmentsOf (path : String) : List (List Char) :=
  (path.toList.splitOn '/').filter (· ≠ [])

/-- `str::parse::<u64>`, which takes a leading plus sign. -/
def parseU64 (text : List Char) : Option UInt64 :=
  let digits := if text.head? = some '+' then text.tail else text
  if digits = [] ∨ ¬ digits.all Char.isDigit then none
  else
    let value := digits.foldl (fun value c => value * 10 + (c.toNat - 0x30)) 0
    if value < 2 ^ 64 then some (.ofNat value) else none

/-- The unit of `/api/units/<id>[/...]`. -/
def parseUnitId (path : String) : Option UInt64 :=
  match segmentsOf path with
  | api :: units :: id :: _ =>
      if api = "api".toList ∧ units = "units".toList then parseU64 id else none
  | _ => none

/-- The action of `/api/units/<id>/<action>`. -/
def unitAction (path : String) : Option String :=
  match segmentsOf path with
  | api :: units :: _ :: action :: _ =>
      if api = "api".toList ∧ units = "units".toList then some (.ofList action) else none
  | _ => none

end Paths

section Bodies

variable (F : Type) [JsonNumber F]

/-- The body of a request; one that is no JSON counts as `null`. -/
def bodyOf (req : Request) : Json F := ((Json.parse req.body).toOption).getD .null

/-- The mode a `command` request names. -/
def requestedMode (req : Request) : Option Core.Mode :=
  (((bodyOf F req).get "mode").bind Json.asStr).bind parseMode

end Bodies

/-- The bootstrap of an encrypted session, whatever stands between the id and the end. -/
def IsHandshake (req : Request) : Prop :=
  "/secure/handshake".toList <:+ req.path.toList ∧ req.method = .post

instance (req : Request) : Decidable (IsHandshake req) :=
  inferInstanceAs (Decidable ("/secure/handshake".toList <:+ req.path.toList ∧
    req.method = .post))

/-- What the environment shows to one request. -/
structure Surroundings (p : Primitives) where
  clock : Nat → UInt64
  eph : Option p.x.StaticSecret
  salt : Option (Vector UInt8 4)

/-- The fleet server, without its sockets. -/
structure FleetServer (T R : Type) (p : Primitives) where
  fleet : Fleet T R
  authz : Option ZeroTrustBroker
  identity : Option (DeviceIdentity p.ed)
  sessions : HashMap UInt64 SecureSession

namespace FleetServer

variable {T R : Type} {p : Primitives} [SignatureBytes p.ed.Signature]

def new (transport : T) : FleetServer T R p where
  fleet := .new transport
  authz := none
  identity := none
  sessions := ∅

/-- Installs the gate and the server's signing identity. -/
def withSecurity (server : FleetServer T R p) (authz : ZeroTrustBroker)
    (identity : DeviceIdentity p.ed) : FleetServer T R p :=
  { server with
    authz := some authz
    identity := some identity }

def session (server : FleetServer T R p) (id : UInt64) : Option SecureSession :=
  server.sessions.lookup id

/-- Zero-trust admission for a privileged action; without a gate it is open. -/
def requireAuth (server : FleetServer T R p) (req : Request) (tool : String) :
    Except Response Unit :=
  match server.authz with
  | none => .ok ()
  | some authz =>
      match authenticateRequest p.ed authz req with
      | .error code => .error (.error code "authentication failed")
      | .ok principal =>
          if authz.authorizeTool principal tool then .ok ()
          else .error (.error 403 "insufficient attestation for this action")

/-- An action behind the gate. -/
def gated (server : FleetServer T R p) (req : Request) (tool : String)
    (action : FleetServer T R p × Response) : FleetServer T R p × Response :=
  match server.requireAuth req tool with
  | .error refusal => (server, refusal)
  | .ok () => action

section Routes

variable (F : Type) [JsonNumber F]

/-- Answers with the fleet a call has left. -/
def respond (server : FleetServer T R p) (outcome : Fleet T R × Except CloudError Unit)
    (success : Json F) : FleetServer T R p × Response :=
  let (fleet, result) := outcome
  match result with
  | .ok () => ({ server with fleet }, .json 200 success)
  | .error failure => ({ server with fleet }, .error 409 failure.display)

def assignRoute (server : FleetServer T R p) (id : UInt64) (req : Request) :
    FleetServer T R p × Response :=
  match ((bodyOf F req).get "operator").bind Json.asStr with
  | none => (server, .error 400 "missing operator")
  | some operator =>
      respond F server (server.fleet.assign id operator)
        (.obj [("unit_id", .uint id), ("assigned", .bool true)])

section Commands

variable [UnitTransport T]

def modeAction (server : FleetServer T R p) (id : UInt64) (which : String)
    (clock : Nat → UInt64) : FleetServer T R p × Response :=
  let outcome :=
    if which = "engage" then server.fleet.engageAutonomy id clock
    else server.fleet.takeManualControl id clock
  respond F server outcome (.obj [("unit_id", .uint id), ("ok", .bool true)])

def commandRoute (server : FleetServer T R p) (id : UInt64) (req : Request)
    (clock : Nat → UInt64) : FleetServer T R p × Response :=
  match requestedMode F req with
  | none => (server, .error 400 "missing/invalid mode")
  | some mode =>
      respond F server (server.fleet.setMode id mode clock)
        (.obj [("unit_id", .uint id), ("mode", .str mode.name)])

end Commands

/-- Runs the handshake for a unit and keeps the session under the id of the path. -/
def handleSecureHandshake (server : FleetServer T R p) (id : UInt64) (req : Request)
    (around : Surroundings p) : FleetServer T R p × Response :=
  match server.identity with
  | none => (server, .error 501 "secure handshake not configured")
  | some identity =>
      match handshakeInitFromJson p (bodyOf F req) with
      | none => (server, .error 400 "missing attestation or suites")
      | some init =>
          match respondHandshake identity init CipherSuite.all around.eph around.salt with
          | .error failure =>
              (server, .error 403 ("handshake rejected: " ++ failure.display))
          | .ok (resp, session) =>
              ({ server with sessions := server.sessions.insert id session },
                .json 200 (handshakeRespToJson resp : Json F))

section Answers

variable [Recorder R]

def healthRoute (server : FleetServer T R p) : Response :=
  .json 200 (.obj [("status", .str "ok"), ("version", .str VERSION),
    ("units", .uint (.ofNat server.fleet.listUnits.length))] : Json F)

/-- `/api/units` and `/api/sessions`, which list the units under different keys. -/
def listRoute (server : FleetServer T R p) (key : String) : Response :=
  .json 200 (.obj [(key, .arr (server.fleet.listUnits.map UnitInfo.toJson)),
    ("count", .uint (.ofNat server.fleet.listUnits.length))] : Json F)

/-- Paths that name no unit. -/
def unaddressedRoute (server : FleetServer T R p) (req : Request) : Response :=
  if req.method = .get ∧ req.path = "/api/units" then listRoute F server "units"
  else if req.method = .get ∧ req.path = "/api/sessions" then listRoute F server "sessions"
  else .error 404 "not found"

def infoRoute (server : FleetServer T R p) (id : UInt64) : Response :=
  match server.fleet.get id with
  | none => .error 404 "unit not found"
  | some unit => .json 200 (unit.info.toJson : Json F)

def subscribersRoute (server : FleetServer T R p) (id : UInt64) : Response :=
  match server.fleet.subscriberCount id with
  | .error failure => .error 404 failure.display
  | .ok count =>
      .json 200 (.obj [("unit_id", .uint id), ("subscribers", .uint (.ofNat count))] : Json F)

variable [UnitTransport T]

/-- The actions of one unit. -/
def unitRoute (server : FleetServer T R p) (id : UInt64) (req : Request)
    (clock : Nat → UInt64) : FleetServer T R p × Response :=
  let action := unitAction req.path
  if req.method = .get ∧ action = none then (server, infoRoute F server id)
  else if req.method = .get ∧ action = some "subscribers" then
    (server, subscribersRoute F server id)
  else if req.method = .post ∧ action = some "assign" then
    gated server req "assign_unit" (assignRoute F server id req)
  else if req.method = .post ∧ action = some "engage_autonomy" then
    gated server req "engage_autonomy" (modeAction F server id "engage" clock)
  else if req.method = .post ∧ action = some "take_manual_control" then
    gated server req "take_manual_control" (modeAction F server id "take" clock)
  else if req.method = .post ∧ action = some "command" then
    gated server req "send_control" (commandRoute F server id req clock)
  else (server, .error 405 "method not allowed")

/-- A request of the fleet API. -/
def apiResponse (server : FleetServer T R p) (req : Request) (around : Surroundings p) :
    FleetServer T R p × Response :=
  if req.path = "/api/health" then (server, healthRoute F server)
  else
    match parseUnitId req.path with
    | none => (server, unaddressedRoute F server req)
    | some id =>
        if IsHandshake req then handleSecureHandshake F server id req around
        else unitRoute F server id req around.clock

/-- The gate of the MCP endpoint: a principal to check each tool against, if there is one. -/
def mcpAuth (server : FleetServer T R p) (req : Request) :
    Except Response (Option (ZeroTrustBroker × Principal)) :=
  match server.authz with
  | none => .ok none
  | some authz =>
      match authenticateRequest p.ed authz req with
      | .ok principal => .ok (some (authz, principal))
      | .error code =>
          if code = 401 then .error (.error 401 "missing or invalid attestation")
          else .error (.error code "authentication failed")

def mcpRoute (server : FleetServer T R p) (req : Request) (clock : Nat → UInt64) :
    FleetServer T R p × Response :=
  match (Json.parse req.body : Except String (Json F)) with
  | .error failure => (server, .error 400 ("invalid JSON-RPC body: " ++ failure))
  | .ok call =>
      match server.mcpAuth req with
      | .error refusal => (server, refusal)
      | .ok auth =>
          let (fleet, result) := McpServer.handle call server.fleet auth clock
          ({ server with fleet }, .json 200 result)

/-- One parsed request. -/
def handleRequest (page : String) (server : FleetServer T R p) (req : Request)
    (around : Surroundings p) : FleetServer T R p × Response :=
  if req.method = .get ∧ req.path = "/" then (server, .html 200 page)
  else if req.method = .post ∧ req.path = "/mcp" then mcpRoute F server req around.clock
  else apiResponse F server req around

end Answers

end Routes

end FleetServer

end Teleop.Cloud
