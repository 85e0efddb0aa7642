import Teleop.Cloud.Dispatch
import Teleop.Sec.Symbolic

/-!
# Soundness of the fleet gate

With a gate, a request whose caller is not authorized for the tool or route it names leaves
the whole fleet as it was.  Of the attestation a request carries, the answer depends on the
unit, the key and whether the signature verifies; the role claimed inside is not looked at.
-/

namespace Teleop.Cloud

open Teleop.Lib Teleop.Sec

section Spec

variable (F : Type) [JsonNumber F] (ed : Ed25519) [SignatureBytes ed.Signature]

/-- The tool whose permission a privileged route needs. -/
def routeTool (action : String) : Option String :=
  if action = "assign" then some "assign_unit"
  else if action = "engage_autonomy" then some "engage_autonomy"
  else if action = "take_manual_control" then some "take_manual_control"
  else if action = "command" then some "send_control"
  else none

/-- The tool a request asks for, by its path or by its JSON-RPC body. -/
def requestedTool (req : Request) : Option String :=
  if req.method ≠ .post then none
  else if req.path = "/mcp" then
    match (Json.parse req.body : Except String (Json F)) with
    | .error _ => none
    | .ok json =>
        if (json.get "method").bind Json.asStr = some "tools/call" then
          some (McpServer.toolName json)
        else none
  else (unitAction req.path).bind routeTool

/-- The request carries a genuine attestation, and the role enrolled for its unit holds the
permission of the requested tool. -/
def Authorized (gate : ZeroTrustBroker) (req : Request) : Prop :=
  ∃ (attestation : Attestation ed) (tool : String) (perm : Permission),
    extractAttestation req = some attestation ∧ gate.Genuine attestation ∧
    requestedTool F req = some tool ∧ dispatchPermission tool = some perm ∧
    gate.Holds attestation.unitId perm

end Spec

section Soundness

variable {F : Type} [JsonNumber F] {R : Type}

theorem requestedTool_of_route {req : Request} {action : String} {id : UInt64}
    (route : OnRoute req action id) : requestedTool F req = routeTool action := by
  obtain ⟨posted, acted, addressed, -⟩ := route
  have mcp : parseUnitId "/mcp" = none := by decide +kernel
  have elsewhere := path_ne_of_parseUnitId addressed mcp
  simp [requestedTool, posted, elsewhere, acted]

/-- Whatever a request asks for, it asks for through its requested tool. -/
theorem requestedTool_of_asks {req : Request} {tool : String} {call : Call R}
    (asks : Asks F req tool call) : requestedTool F req = some tool := by
  cases asks with
  | assignRoute route _ => exact requestedTool_of_route route
  | engageRoute route => exact requestedTool_of_route route
  | takeRoute route => exact requestedTool_of_route route
  | commandRoute route _ => exact requestedTool_of_route route
  | tool asked _ =>
      obtain ⟨posted, path, parsed, method⟩ := asked
      simp [requestedTool, posted, path, parsed, method]

end Soundness

namespace FleetServer

variable {F : Type} [JsonNumber F] {T R : Type} {p : Primitives} [SignatureBytes p.ed.Signature]

section Headers

variable {server : FleetServer T R p} {req : Request} {headers : List (String × String)}

/-- The answer depends on the headers by the principal they authenticate. -/
theorem handleRequest_congr [UnitTransport T] [Recorder R] (page : String)
    (around : Surroundings p)
    (same : ∀ gate, server.authz = some gate →
      authenticateRequest p.ed gate { req with headers } = authenticateRequest p.ed gate req) :
    handleRequest F page server { req with headers } around =
      handleRequest F page server req around := by
  have auth : ∀ tool, server.requireAuth { req with headers } tool =
      server.requireAuth req tool := by
    intro tool
    unfold requireAuth
    cases installed : server.authz with
    | none => rfl
    | some gate => simp only [same gate installed]
  have tools : server.mcpAuth { req with headers } = server.mcpAuth req := by
    unfold mcpAuth
    cases installed : server.authz with
    | none => rfl
    | some gate => simp only [same gate installed]
  simp only [handleRequest, mcpRoute, tools, apiResponse, unitRoute, gated, auth]
  rfl

end Headers

/-- Soundness of the gate, for every request text. -/
theorem gate_sound [UnitTransport T] [Recorder R] (page : String)
    {server : FleetServer (Observed T) R p} {gate : ZeroTrustBroker}
    (installed : server.authz = some gate) (req : Request) (around : Surroundings p) :
    (¬ Authorized F p.ed gate req →
      (handleRequest F page server req around).1.fleet = server.fleet) ∧
    ∀ (headers : List (String × String)) (attestation other : Attestation p.ed),
      extractAttestation req = some attestation →
      extractAttestation { req with headers } = some other →
      other.unitId = attestation.unitId → other.signingPub = attestation.signingPub →
      other.verify = attestation.verify →
      handleRequest F page server { req with headers } around =
        handleRequest F page server req around := by
  constructor
  · intro unauthorized
    have outcome : Outcome F server req around _ := outcome_handleRequest page
    generalize (handleRequest F page server req around).1 = after at outcome ⊢
    cases outcome with
    | unchanged => rfl
    | established => rfl
    | dispatched asks admitted =>
        obtain ⟨perm, needed, attestation, extracted, genuine, holds⟩ := admitted gate installed
        exact absurd ⟨attestation, _, perm, extracted, genuine, requestedTool_of_asks asks, needed,
          holds⟩ unauthorized
  · intro headers attestation other carried replaced unitId signingPub verified
    apply handleRequest_congr
    intro held here
    cases installed.symm.trans here
    simp only [authenticateRequest, carried, replaced]
    rw [ZeroTrustBroker.authenticate_congr gate unitId signingPub verified]

end FleetServer

section Instance

open Sec.Symbolic

/-- A signature whose key repeats one byte, as the byte and the signed message. -/
def packSignature (signature : Vector UInt8 32 × List UInt8) : Vector UInt8 64 :=
  .ofFn fun i => (signature.1.toList.headD 0 :: signature.2).getD i 0

def unpackSignature (bytes : Vector UInt8 64) : Vector UInt8 32 × List UInt8 :=
  (Vector.replicate 32 bytes[0], (bytes.toList.drop 1).take 41)

theorem unpackSignature_packSignature (seed : UInt8) {message : List UInt8}
    (width : message.length = 41) :
    unpackSignature (packSignature (Vector.replicate 32 seed, message)) =
      (Vector.replicate 32 seed, message) := by
  apply Prod.ext
  · simp [unpackSignature, packSignature]
  · apply List.ext_getElem
    · simp [unpackSignature, width]
    · intro i before after
      simp only at after
      simp [unpackSignature, packSignature, after]

instance : SignatureBytes Symbolic.primitives.ed.Signature where
  toBytes := packSignature
  fromBytes := unpackSignature

/-- What the holder of a signing key attests about a unit and a role. -/
def attests (unitId : UInt64) (role : Role) (seed : UInt8) : Attestation primitives.ed :=
  .sign (identity unitId role seed) (Vector.replicate 32 11)

/-- The headers of a bearer of an attestation. -/
def bearer (attestation : Attestation primitives.ed) : List (String × String) :=
  [("authorization", SCHEME ++ hexEncode attestation.toBytes)]

/-- Unit 1 is enrolled as an agent with the byte 7, unit 2 as an observer with the byte 9. -/
def agentAndObserver : ZeroTrustBroker :=
  .withTrust
    ((TrustStore.empty.enroll 1 (Vector.replicate 32 7) .aiAgent).enroll 2
      (Vector.replicate 32 9) .observer)
    ((TrustStore.paired_empty.enroll _ _ _).enroll _ _ _)

/-- A gated server with unit 1 on its fleet. -/
def gatedServer : FleetServer (Observed NullTransport) NullRecorder primitives :=
  let server : FleetServer (Observed NullTransport) NullRecorder primitives :=
    .new ⟨⟨⟩, []⟩
  let fleet := (server.fleet.registerUnit 1 ⟨.v4 0x7F000001, 5000⟩ ⟨0⟩ fun _ => 1).1
  { server with fleet }.withSecurity agentAndObserver (identity 99 .admin 3)

/-- Working sources of time and randomness. -/
def surroundings : Surroundings primitives where
  clock _ := 2
  eph := some (Vector.replicate 32 5 : Vector UInt8 32)
  salt := some (Vector.replicate 4 0)

/-- A request about unit 1 with an empty body. -/
def postTo (action : String) (headers : List (String × String)) : Request where
  method := .post
  path := "/api/units/1/" ++ action
  query := ""
  headers := headers
  body := []

theorem fromBytes_toBytes_sig (unitId : UInt64) (role : Role) (seed : UInt8) :
    SignatureBytes.fromBytes (SignatureBytes.toBytes (attests unitId role seed).sig) =
      (attests unitId role seed).sig :=
  unpackSignature_packSignature seed (by simp [Attestation.signedMessage])

/-- The holder of a key, whatever role it attests, is known by the attestation it carries. -/
theorem extractAttestation_postTo (action : String) (unitId : UInt64) (role : Role)
    (seed : UInt8) :
    extractAttestation (postTo action (bearer (attests unitId role seed))) =
      some (attests unitId role seed) :=
  extractAttestation_of_bearer (fromBytes_toBytes_sig unitId role seed) rfl

/-- Unit 2 claims to be an administrator and is refused; unit 1 gains nothing by the claim. -/
theorem gate_sound_claimedAdmin :
    (FleetServer.handleRequest ℚ "" gatedServer
        (postTo "engage_autonomy" (bearer (attests 2 .admin 9))) surroundings).1.fleet =
      gatedServer.fleet ∧
    FleetServer.handleRequest ℚ "" gatedServer
        (postTo "engage_autonomy" (bearer (attests 1 .admin 7))) surroundings =
      FleetServer.handleRequest ℚ "" gatedServer
        (postTo "engage_autonomy" (bearer (attests 1 .aiAgent 7))) surroundings := by
  have observer := extractAttestation_postTo "engage_autonomy" 2 .admin 9
  have agent := extractAttestation_postTo "engage_autonomy" 1 .aiAgent 7
  have admin := extractAttestation_postTo "engage_autonomy" 1 .admin 7
  have installed : gatedServer.authz = some agentAndObserver := rfl
  refine ⟨(FleetServer.gate_sound "" installed _ surroundings).1 ?_, ?_⟩
  · rintro ⟨attestation, tool, perm, extracted, -, requested, needed, role, held, holds⟩
    cases observer.symm.trans extracted
    have named : requestedTool ℚ (postTo "engage_autonomy" (bearer (attests 2 .admin 9))) =
        some "engage_autonomy" := by decide +kernel
    cases named.symm.trans requested
    have permission : dispatchPermission "engage_autonomy" = some .engageAutonomy := by decide
    cases permission.symm.trans needed
    have enrolled : agentAndObserver.trust.roles (attests 2 .admin 9).unitId = some .observer := by
      decide +kernel
    cases enrolled.symm.trans held
    exact absurd holds (by decide)
  · apply (FleetServer.gate_sound "" installed (postTo "engage_autonomy"
      (bearer (attests 1 .aiAgent 7))) surroundings).2 (bearer (attests 1 .admin 7)) _ _ agent admin
    · rfl
    · rfl
    · rw [attests, attests, Attestation.verify_sign, Attestation.verify_sign]

end Instance

end Teleop.Cloud
