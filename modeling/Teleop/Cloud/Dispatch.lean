import Teleop.Cloud.CommandStream
import Teleop.Cloud.Server

/-!
# What a request can do

A request leaves the server as it is, or establishes the session of a unit, or makes one
call of the fleet through a named tool.  With a gate, the call is made only for a caller
whose attestation is genuine and whose enrolled role holds the permission of the tool.
-/

namespace Teleop.Cloud

open Teleop.Lib Teleop.Sec

section Requests

variable (F : Type) [JsonNumber F] (req : Request)

/-- The JSON-RPC call of a request to the MCP endpoint. -/
def ToolCall (call : Json F) : Prop :=
  req.method = .post ∧ req.path = "/mcp" ∧ Json.parse req.body = .ok call ∧
    (call.get "method").bind Json.asStr = some "tools/call"

/-- The call of the fleet a tool makes. -/
inductive ToolRuns {R : Type} : String → Call R → Prop
  | assign {id : UInt64} {operator : String} : ToolRuns "assign_unit" (.assign id operator)
  | engage {id : UInt64} : ToolRuns "engage_autonomy" (.engageAutonomy id)
  | take {id : UInt64} : ToolRuns "take_manual_control" (.takeManualControl id)

/-- A path that names a unit is none of those that name no unit. -/
theorem path_ne_of_parseUnitId {path other : String} {id : UInt64}
    (addressed : parseUnitId path = some id) (elsewhere : parseUnitId other = none) :
    path ≠ other := by
  rintro rfl
  rw [elsewhere] at addressed
  cases addressed

/-- A privileged route of a unit. -/
structure OnRoute (action : String) (id : UInt64) : Prop where
  posted : req.method = .post
  acts : unitAction req.path = some action
  addressed : parseUnitId req.path = some id
  plain : ¬ IsHandshake req

/-- The request asks for a call of the fleet through a tool. -/
inductive Asks {R : Type} : String → Call R → Prop
  | assignRoute {id : UInt64} {operator : String} :
      OnRoute req "assign" id → ((bodyOf F req).get "operator").bind Json.asStr = some operator →
      Asks "assign_unit" (.assign id operator)
  | engageRoute {id : UInt64} :
      OnRoute req "engage_autonomy" id → Asks "engage_autonomy" (.engageAutonomy id)
  | takeRoute {id : UInt64} :
      OnRoute req "take_manual_control" id → Asks "take_manual_control" (.takeManualControl id)
  | commandRoute {id : UInt64} {mode : Core.Mode} :
      OnRoute req "command" id → requestedMode F req = some mode →
      Asks "send_control" (.setMode id mode)
  | tool {json : Json F} {call : Call R} :
      ToolCall F req json → ToolRuns (McpServer.toolName json) call →
      Asks (McpServer.toolName json) call

end Requests

section Admission

variable {ed : Ed25519} [SignatureBytes ed.Signature]

variable (ed) in
/-- The request carries a genuine attestation of a unit whose enrolled role holds a
permission. -/
def CallerHolds (gate : ZeroTrustBroker) (req : Request) (perm : Permission) : Prop :=
  ∃ attestation : Attestation ed, extractAttestation req = some attestation ∧
    gate.Genuine attestation ∧ gate.Holds attestation.unitId perm

variable (ed) in
/-- The caller holds the permission of a tool. -/
def Admits (gate : ZeroTrustBroker) (req : Request) (tool : String) : Prop :=
  ∃ perm, dispatchPermission tool = some perm ∧ CallerHolds ed gate req perm

/-- A principal of the request passes the gate of a tool exactly if the caller is admitted. -/
theorem admits_iff_authorizeTool {gate : ZeroTrustBroker} {req : Request} {principal : Principal}
    (accepted : authenticateRequest ed gate req = .ok principal) (tool : String) :
    Admits ed gate req tool ↔ gate.authorizeTool principal tool = true := by
  obtain ⟨attestation, extracted, authenticated⟩ := authenticateRequest_eq_ok accepted
  rw [ZeroTrustBroker.authorizeTool_iff authenticated]
  constructor
  · rintro ⟨perm, needed, other, carried, -, holds⟩
    cases extracted.symm.trans carried
    exact ⟨perm, needed, holds⟩
  · rintro ⟨perm, needed, holds⟩
    exact ⟨perm, needed, attestation, extracted,
      (ZeroTrustBroker.authenticate_eq_ok authenticated).1, holds⟩

/-- Without a principal nobody is admitted. -/
theorem not_admits_of_error {gate : ZeroTrustBroker} {req : Request} {code : UInt16}
    (refused : authenticateRequest ed gate req = .error code) (tool : String) :
    ¬ Admits ed gate req tool := by
  rintro ⟨perm, -, attestation, extracted, genuine, -⟩
  obtain ⟨principal, accepted, -⟩ := authenticateRequest_of_genuine extracted genuine
  rw [refused] at accepted
  cases accepted

end Admission

namespace FleetServer

variable {T R F : Type} [JsonNumber F] {p : Primitives} [SignatureBytes p.ed.Signature]

/-- The gate of a route opens exactly for the callers it admits. -/
theorem requireAuth_eq_ok_iff {server : FleetServer T R p} {gate : ZeroTrustBroker}
    (installed : server.authz = some gate) (req : Request) (tool : String) :
    server.requireAuth req tool = .ok () ↔ Admits p.ed gate req tool := by
  simp only [requireAuth, installed]
  cases authenticated : authenticateRequest p.ed gate req with
  | error code =>
      constructor
      · nofun
      · intro admits
        exact absurd admits (not_admits_of_error authenticated tool)
  | ok principal =>
      rw [admits_iff_authorizeTool authenticated]
      simp

variable (F) in
/-- The handshake of a request succeeds and leaves a session. -/
def Establishes (server : FleetServer T R p) (req : Request) (around : Surroundings p)
    (session : SecureSession) : Prop :=
  ∃ identity init resp, server.identity = some identity ∧
    handshakeInitFromJson p (bodyOf F req) = some init ∧
    respondHandshake identity init CipherSuite.all around.eph around.salt = .ok (resp, session)

omit [SignatureBytes p.ed.Signature] in
/-- Answering leaves the fleet of the call. -/
theorem respond_fst (server : FleetServer T R p) (outcome : Fleet T R × Except CloudError Unit)
    (success : Json F) :
    (respond F server outcome success).1 = { server with fleet := outcome.1 } := by
  obtain ⟨fleet, result⟩ := outcome
  cases result <;> rfl

variable [UnitTransport T] [Recorder R]

variable (F) in
/-- What a request leaves of the server. -/
inductive Outcome (server : FleetServer T R p) (req : Request) (around : Surroundings p) :
    FleetServer T R p → Prop
  | unchanged : Outcome server req around server
  | established {id : UInt64} {session : SecureSession} :
      parseUnitId req.path = some id → IsHandshake req →
      Establishes F server req around session →
      Outcome server req around { server with sessions := server.sessions.insert id session }
  | dispatched {tool : String} {call : Call R} :
      Asks F req tool call →
      (∀ gate, server.authz = some gate → Admits p.ed gate req tool) →
      Outcome server req around
        { server with fleet := (call.perform server.fleet around.clock).1 }

variable {server : FleetServer T R p} {req : Request} {around : Surroundings p}

/-- A route behind the gate: the request is refused, or its caller is admitted. -/
theorem outcome_gated {tool : String} {action : FleetServer T R p × Response}
    (allowed : (∀ gate, server.authz = some gate → Admits p.ed gate req tool) →
      Outcome F server req around action.1) :
    Outcome F server req around (gated server req tool action).1 := by
  unfold gated
  split
  · exact .unchanged
  · rename_i opened
    apply allowed
    intro gate installed
    exact (requireAuth_eq_ok_iff installed req tool).mp opened

theorem outcome_assignRoute {id : UInt64} (route : OnRoute req "assign" id)
    (admitted : ∀ gate, server.authz = some gate → Admits p.ed gate req "assign_unit") :
    Outcome F server req around (assignRoute F server id req).1 := by
  unfold assignRoute
  split
  · exact .unchanged
  · rename_i operator named
    rw [respond_fst]
    exact .dispatched (.assignRoute route named) admitted

theorem outcome_commandRoute {id : UInt64} (route : OnRoute req "command" id)
    (admitted : ∀ gate, server.authz = some gate → Admits p.ed gate req "send_control") :
    Outcome F server req around (commandRoute F server id req around.clock).1 := by
  unfold commandRoute
  split
  · exact .unchanged
  · rename_i mode named
    rw [respond_fst]
    exact .dispatched (.commandRoute route named) admitted

theorem outcome_unitRoute {id : UInt64} (addressed : parseUnitId req.path = some id)
    (plain : ¬ IsHandshake req) :
    Outcome F server req around (unitRoute F server id req around.clock).1 := by
  simp only [unitRoute]
  split
  · exact .unchanged
  split
  · exact .unchanged
  split
  · rename_i posted
    exact outcome_gated (outcome_assignRoute ⟨posted.1, posted.2, addressed, plain⟩)
  split
  · rename_i posted
    apply outcome_gated
    intro admitted
    rw [modeAction, respond_fst]
    exact .dispatched (.engageRoute ⟨posted.1, posted.2, addressed, plain⟩) admitted
  split
  · rename_i posted
    apply outcome_gated
    intro admitted
    rw [modeAction, respond_fst]
    exact .dispatched (.takeRoute ⟨posted.1, posted.2, addressed, plain⟩) admitted
  split
  · rename_i posted
    exact outcome_gated (outcome_commandRoute ⟨posted.1, posted.2, addressed, plain⟩)
  · exact .unchanged

theorem outcome_handleSecureHandshake {id : UInt64} (addressed : parseUnitId req.path = some id)
    (handshake : IsHandshake req) :
    Outcome F server req around (handleSecureHandshake F server id req around).1 := by
  unfold handleSecureHandshake
  split
  · exact .unchanged
  · rename_i identity held
    split
    · exact .unchanged
    · rename_i init named
      split
      · exact .unchanged
      · rename_i resp session answered
        exact .established addressed handshake ⟨identity, init, resp, held, named, answered⟩

theorem outcome_apiResponse :
    Outcome F server req around (apiResponse F server req around).1 := by
  unfold apiResponse
  split
  · exact .unchanged
  · split
    · exact .unchanged
    · rename_i id addressed
      split
      · rename_i handshake
        exact outcome_handleSecureHandshake addressed handshake
      · rename_i plain
        exact outcome_unitRoute addressed plain

omit [UnitTransport T] [Recorder R] in
theorem assignUnit_fst (args id : Json F) (fleet : Fleet T R) :
    (McpServer.assignUnit args id fleet).1 = fleet ∨ ∃ unitId operator,
      (McpServer.assignUnit args id fleet).1 = (fleet.assign unitId operator).1 := by
  unfold McpServer.assignUnit
  split
  · rename_i unitId operator _ _
    refine .inr ⟨unitId, operator, ?_⟩
    rcases fleet.assign unitId operator with ⟨after, failure | success⟩
    · rfl
    · rfl
  · exact .inl rfl

omit [Recorder R] in
theorem changeMode_fst (name : String) (args id : Json F) (fleet : Fleet T R)
    (clock : Nat → UInt64) :
    (McpServer.changeMode name args id fleet clock).1 = fleet ∨ ∃ unitId,
      (McpServer.changeMode name args id fleet clock).1 =
        (if name = "engage_autonomy" then fleet.engageAutonomy unitId clock
        else fleet.takeManualControl unitId clock).1 := by
  unfold McpServer.changeMode
  split
  · exact .inl rfl
  · rename_i unitId _
    refine .inr ⟨unitId, ?_⟩
    dsimp only
    rcases (if name = "engage_autonomy" then fleet.engageAutonomy unitId clock
      else fleet.takeManualControl unitId clock) with ⟨after, failure | success⟩
    · rfl
    · rfl

/-- Running a tool changes nothing or makes the call of the tool. -/
theorem runTool_fst (name : String) (args id : Json F) (fleet : Fleet T R)
    (clock : Nat → UInt64) :
    (McpServer.runTool name args id fleet clock).1 = fleet ∨
      ∃ call : Call R, ToolRuns name call ∧
        (McpServer.runTool name args id fleet clock).1 = (call.perform fleet clock).1 := by
  unfold McpServer.runTool
  split
  · exact .inl rfl
  split
  · rename_i named
    subst named
    rcases assignUnit_fst args id fleet with kept | ⟨unitId, operator, made⟩
    · exact .inl kept
    · exact .inr ⟨.assign unitId operator, .assign, made⟩
  split
  · rename_i named
    rcases changeMode_fst name args id fleet clock with kept | ⟨unitId, made⟩
    · exact .inl kept
    · rcases named with rfl | rfl
      · exact .inr ⟨.engageAutonomy unitId, .engage, made⟩
      · exact .inr ⟨.takeManualControl unitId, .take, made⟩
  · exact .inl rfl

/-- A request to the MCP server changes nothing or calls the tool it names. -/
theorem handle_fst (json : Json F) (fleet : Fleet T R)
    (auth : Option (ZeroTrustBroker × Principal)) (clock : Nat → UInt64) :
    (McpServer.handle json fleet auth clock).1 = fleet ∨
      (json.get "method").bind Json.asStr = some "tools/call" ∧ ∃ args id : Json F,
        (McpServer.handle json fleet auth clock).1 =
          (McpServer.callTool (McpServer.toolName json) args fleet id auth clock).1 := by
  simp only [McpServer.handle]
  split
  · exact .inl rfl
  split
  · exact .inl rfl
  split
  · rename_i method
    refine .inr ⟨?_, _, _, rfl⟩
    cases named : (json.get "method").bind Json.asStr with
    | none =>
        rw [named] at method
        exact absurd method (by decide)
    | some text =>
        rw [named] at method
        exact congrArg some method
  · exact .inl rfl

omit [UnitTransport T] [Recorder R] in
/-- The MCP endpoint goes on without a gate, or with a principal of the gate. -/
theorem mcpAuth_eq_ok {auth : Option (ZeroTrustBroker × Principal)}
    (passed : server.mcpAuth req = .ok auth) :
    (server.authz = none ∧ auth = none) ∨ ∃ gate principal, server.authz = some gate ∧
      auth = some (gate, principal) ∧ authenticateRequest p.ed gate req = .ok principal := by
  unfold mcpAuth at passed
  split at passed
  · rename_i absent
    cases passed
    exact .inl ⟨absent, rfl⟩
  · rename_i gate installed
    split at passed
    · rename_i principal accepted
      cases passed
      exact .inr ⟨gate, principal, installed, rfl, accepted⟩
    · split at passed
      · cases passed
      · cases passed

/-- A tool called with a principal is refused, or the principal may use it. -/
theorem callTool_fst (name : String) (args id : Json F) (fleet : Fleet T R)
    (auth : Option (ZeroTrustBroker × Principal)) (clock : Nat → UInt64) :
    (McpServer.callTool name args fleet id auth clock).1 = fleet ∨
      (∀ gate principal, auth = some (gate, principal) →
        gate.authorizeTool principal name = true) ∧
      (McpServer.callTool name args fleet id auth clock).1 =
        (McpServer.runTool name args id fleet clock).1 := by
  cases auth with
  | none => exact .inr ⟨nofun, rfl⟩
  | some pair =>
      obtain ⟨gate, principal⟩ := pair
      by_cases authorized : gate.authorizeTool principal name = true
      · refine .inr ⟨?_, by simp only [McpServer.callTool, authorized, if_true]⟩
        intro other caller same
        cases same
        exact authorized
      · exact .inl (by simp only [McpServer.callTool, authorized, Bool.false_eq_true, if_false])

theorem outcome_mcpRoute (posted : req.method = .post ∧ req.path = "/mcp") :
    Outcome F server req around (mcpRoute F server req around.clock).1 := by
  unfold mcpRoute
  split
  · exact .unchanged
  · rename_i json parsed
    split
    · exact .unchanged
    · rename_i auth passed
      dsimp only
      rcases handle_fst json server.fleet auth around.clock with kept | ⟨method, args, id, called⟩
      · rw [kept]
        exact .unchanged
      rw [called]
      rcases callTool_fst (McpServer.toolName json) args id server.fleet auth around.clock with
        kept | ⟨authorized, ran⟩
      · rw [kept]
        exact .unchanged
      rw [ran]
      rcases runTool_fst (McpServer.toolName json) args id server.fleet around.clock with
        kept | ⟨call, runs, made⟩
      · rw [kept]
        exact .unchanged
      rw [made]
      refine .dispatched (.tool ⟨posted.1, posted.2, parsed, method⟩ runs) ?_
      intro gate installed
      rcases mcpAuth_eq_ok passed with ⟨absent, -⟩ | ⟨other, principal, held, rfl, accepted⟩
      · cases absent.symm.trans installed
      · cases held.symm.trans installed
        exact (admits_iff_authorizeTool accepted _).mpr (authorized _ principal rfl)

/-- A request about a unit is a handshake or an action of the unit. -/
theorem handleRequest_addressed (page : String) {id : UInt64}
    (addressed : parseUnitId req.path = some id) :
    handleRequest F page server req around =
      if IsHandshake req then handleSecureHandshake F server id req around
      else unitRoute F server id req around.clock := by
  have root : parseUnitId "/" = none := by decide +kernel
  have mcp : parseUnitId "/mcp" = none := by decide +kernel
  have health : parseUnitId "/api/health" = none := by decide +kernel
  have notRoot := path_ne_of_parseUnitId addressed root
  have notMcp := path_ne_of_parseUnitId addressed mcp
  have notHealth := path_ne_of_parseUnitId addressed health
  simp only [handleRequest, notRoot, notMcp, and_false, if_false, apiResponse, notHealth, addressed]

/-- What any request can do. -/
theorem outcome_handleRequest (page : String) :
    Outcome F server req around (handleRequest F page server req around).1 := by
  unfold handleRequest
  split
  · exact .unchanged
  split
  · rename_i posted
    exact outcome_mcpRoute posted
  · exact outcome_apiResponse

end FleetServer

end Teleop.Cloud
