import Teleop.Cloud.Fleet
import Teleop.Cloud.Json
import Teleop.Sec.Rbac

/-!
# The MCP server

Fleet dispatch as JSON-RPC tools.  With a gate, a tool runs only for a principal that holds
its permission.
-/

namespace Teleop.Cloud

open Teleop.Lib Teleop.Sec

def VERSION : String := "0.1.0"

variable {F : Type} [JsonNumber F]

def UnitInfo.toJson (info : UnitInfo) : Json F :=
  .obj [("id", .uint info.id), ("addr", .str info.addr), ("mode", .str info.mode),
    ("assigned_operator",
      match info.assignedOperator with
      | some operator => .str operator
      | none => .null),
    ("last_seq", .uint info.lastSeq), ("frames_recorded", .uint info.framesRecorded),
    ("subscribers", .uint (.ofNat info.subscribers)), ("last_seen_ns", .uint info.lastSeenNs)]

def jsonRpcOk (id result : Json F) : Json F :=
  .obj [("jsonrpc", .str "2.0"), ("id", id), ("result", result)]

def jsonRpcErr (id : Json F) (code : Int) (message : String) : Json F :=
  .obj [("jsonrpc", .str "2.0"), ("id", id),
    ("error", .obj [("code", .num (FloatOps.ofRat code)), ("message", .str message)])]

/-- A tool descriptor with an object as input schema. -/
def tool (name desc : String) (props : List (String × String)) : Json F :=
  .obj [("name", .str name), ("description", .str desc),
    ("inputSchema", .obj [("type", .str "object"), ("properties", .objStr props),
      ("required", .arr (props.map fun prop => .str prop.1))])]

namespace McpServer

def initialized : Json F :=
  .obj [("protocolVersion", .str "2024-11-05"), ("capabilities", .obj [("tools", .obj [])]),
    ("serverInfo", .obj [("name", .str "tpt-teleop-fleet"), ("version", .str VERSION)])]

def tools : Json F :=
  .obj [("tools", .arr [
    tool "list_units" "List every unit registered with the fleet, with mode and status." [],
    tool "assign_unit" "Assign a human or AI operator to a unit."
      [("unit_id", "integer"), ("operator", "string")],
    tool "engage_autonomy"
      "Command a unit into AUTO mode (autonomy drives; operator supervises)."
      [("unit_id", "integer")],
    tool "take_manual_control"
      "Command a unit into FULL-TELEOP mode (operator drives directly)."
      [("unit_id", "integer")]])]

/-- The name of the called tool; a call without one names the empty tool. -/
def toolName (req : Json F) : String :=
  (((req.get "params").bind fun params => params.get "name").bind Json.asStr).getD ""

variable {T R : Type} [UnitTransport T] [Recorder R]

def assignUnit (args id : Json F) (fleet : Fleet T R) : Fleet T R × Json F :=
  match (args.get "unit_id").bind Json.asU64, (args.get "operator").bind Json.asStr with
  | some unitId, some operator =>
      match fleet.assign unitId operator with
      | (fleet, .ok ()) =>
          (fleet, jsonRpcOk id
            (.obj [("unit_id", .uint unitId), ("assigned", .str (toString unitId))]))
      | (fleet, .error failure) => (fleet, jsonRpcErr id (-32000) failure.display)
  | _, _ => (fleet, jsonRpcErr id (-32602) "missing unit_id/operator")

/-- `engage_autonomy` and `take_manual_control`. -/
def changeMode (name : String) (args id : Json F) (fleet : Fleet T R) (clock : Nat → UInt64) :
    Fleet T R × Json F :=
  match (args.get "unit_id").bind Json.asU64 with
  | none => (fleet, jsonRpcErr id (-32602) "missing unit_id")
  | some unitId =>
      let result :=
        if name = "engage_autonomy" then fleet.engageAutonomy unitId clock
        else fleet.takeManualControl unitId clock
      match result with
      | (fleet, .ok ()) =>
          (fleet, jsonRpcOk id
            (.obj [("unit_id", .uint unitId), ("tool", .str name), ("ok", .bool true)]))
      | (fleet, .error failure) => (fleet, jsonRpcErr id (-32000) failure.display)

/-- A tool after the gate. -/
def runTool (name : String) (args id : Json F) (fleet : Fleet T R) (clock : Nat → UInt64) :
    Fleet T R × Json F :=
  if name = "list_units" then
    (fleet, jsonRpcOk id
      (.obj [("units", .arr (fleet.listUnits.map UnitInfo.toJson)),
        ("count", .uint (.ofNat fleet.listUnits.length))]))
  else if name = "assign_unit" then assignUnit args id fleet
  else if name = "engage_autonomy" ∨ name = "take_manual_control" then
    changeMode name args id fleet clock
  else (fleet, jsonRpcErr id (-32601) ("unknown tool: " ++ name))

def callTool (name : String) (args : Json F) (fleet : Fleet T R) (id : Json F)
    (auth : Option (ZeroTrustBroker × Principal)) (clock : Nat → UInt64) :
    Fleet T R × Json F :=
  match auth with
  | none => runTool name args id fleet clock
  | some (gate, principal) =>
      if gate.authorizeTool principal name then runTool name args id fleet clock
      else (fleet, jsonRpcErr id (-32003) "insufficient attestation for this tool")

/-- One JSON-RPC request. -/
def handle (req : Json F) (fleet : Fleet T R) (auth : Option (ZeroTrustBroker × Principal))
    (clock : Nat → UInt64) : Fleet T R × Json F :=
  let method := ((req.get "method").bind Json.asStr).getD ""
  let id := (req.get "id").getD .null
  let params := (req.get "params").getD .null
  if method = "initialize" then (fleet, jsonRpcOk id initialized)
  else if method = "tools/list" then (fleet, jsonRpcOk id tools)
  else if method = "tools/call" then
    let args := (params.get "arguments").getD .null
    callTool (toolName req) args fleet id auth clock
  else (fleet, jsonRpcErr id (-32601) ("method not found: " ++ method))

end McpServer

end Teleop.Cloud
