import Teleop.Cloud.Gate
import Teleop.Lib.TransitionSystem

/-!
# Integrity of the session map

The unit of a handshake comes from the path and the peer of the session from the body, and
the trust store is asked about neither.  The sessions stay with their units in the runs in
which no handshake is answered for anyone but the enrolled holder of its unit.
-/

namespace Teleop.Cloud

open Teleop.Lib Teleop.Sec

section Spec

/-- The attestation names the unit and verifies under the key enrolled for it. -/
def GenuineFor {ed : Ed25519} (gate : ZeroTrustBroker) (id : UInt64)
    (attestation : Attestation ed) : Prop :=
  attestation.unitId = id ∧ gate.Genuine attestation

variable (F : Type) [JsonNumber F] {p : Primitives} [SignatureBytes p.ed.Signature]

/-- The first message a request posts to the handshake of a unit. -/
structure PostsHandshake (req : Request) (id : UInt64) (init : HandshakeInit p) : Prop where
  addressed : parseUnitId req.path = some id
  handshake : IsHandshake req
  message : handshakeInitFromJson p (bodyOf F req) = some init

/-- The request posts a handshake that verifies under the key it carries itself, but is not a
genuine one for the unit, and the random source works. -/
def Impersonates (gate : ZeroTrustBroker) (req : Request) (around : Surroundings p) : Prop :=
  ∃ (id : UInt64) (init : HandshakeInit p), PostsHandshake F req id init ∧
    init.attestation.verify = true ∧ around.eph.isSome ∧ around.salt.isSome ∧
    ¬ GenuineFor gate id init.attestation

end Spec

theorem suites_ne_nil {F : Type} [JsonNumber F] {p : Primitives} [SignatureBytes p.ed.Signature]
    {json : Json F} {init : HandshakeInit p} (read : handshakeInitFromJson p json = some init) :
    init.suites ≠ [] := by
  unfold handshakeInitFromJson at read
  split at read
  · cases read
  · dsimp only at read
    split at read
    · cases read
    · rename_i nonempty
      cases read
      exact nonempty

namespace FleetServer

variable {F : Type} [JsonNumber F] {T R : Type} {p : Primitives} [SignatureBytes p.ed.Signature]

variable (F) in
/-- The request posts a handshake for the unit that is answered and leaves a session. -/
structure Agreed (req : Request) (around : Surroundings p) (id : UInt64) (init : HandshakeInit p)
    (session : SecureSession) : Prop where
  posted : PostsHandshake F req id init
  verified : init.attestation.verify = true
  eph : around.eph.isSome
  salt : around.salt.isSome
  keyed : ∃ own chosen, Keyed own init.attestation chosen session

/-- Without impersonation an answered handshake is genuine for its unit. -/
theorem Agreed.genuine {gate : ZeroTrustBroker} {req : Request} {around : Surroundings p}
    {id : UInt64} {init : HandshakeInit p} {session : SecureSession}
    (agreed : Agreed F req around id init session) (honest : ¬ Impersonates F gate req around) :
    GenuineFor gate id init.attestation := by
  by_contra forged
  exact honest ⟨id, init, agreed.posted, agreed.verified, agreed.eph, agreed.salt, forged⟩

variable [UnitTransport T] [Recorder R]

/-- A request changes the session of a unit only by a handshake for it that is answered. -/
theorem session_handleRequest (page : String) (server : FleetServer T R p) (req : Request)
    (around : Surroundings p) (id : UInt64) :
    (handleRequest F page server req around).1.session id = server.session id ∨
      ∃ init session, Agreed F req around id init session ∧
        (handleRequest F page server req around).1.session id = some session := by
  have outcome : Outcome F server req around _ := outcome_handleRequest page
  generalize (handleRequest F page server req around).1 = after at outcome ⊢
  cases outcome with
  | unchanged => exact .inl rfl
  | dispatched => exact .inl rfl
  | established addressed handshake establishes =>
      rename_i other session
      obtain ⟨identity, init, resp, -, message, answered⟩ := establishes
      by_cases same : id = other
      · subst same
        obtain ⟨verified, eph, salt, -⟩ :=
          exists_respondHandshake_iff.mp ⟨resp, session, answered⟩
        obtain ⟨-, own, -, -, -, keyed⟩ := respondHandshake_eq_ok answered
        refine .inr ⟨init, session, ⟨⟨addressed, handshake, message⟩, verified, eph, salt,
          own, _, keyed⟩, ?_⟩
        exact AList.lookup_insert _
      · exact .inl (AList.lookup_insert_ne same)

/-- A server with an identity answers every handshake that verifies, whoever it is from. -/
theorem session_of_postsHandshake (page : String) {server : FleetServer T R p} {req : Request}
    {around : Surroundings p} {id : UInt64} {init : HandshakeInit p}
    (secured : server.identity.isSome) (posts : PostsHandshake F req id init)
    (verified : init.attestation.verify = true) (eph : around.eph.isSome)
    (salt : around.salt.isSome) :
    ∃ session, Agreed F req around id init session ∧
      (handleRequest F page server req around).1.session id = some session := by
  obtain ⟨identity, held⟩ := Option.isSome_iff_exists.mp secured
  obtain ⟨suite, common⟩ := CipherSuite.exists_negotiate_all (suites_ne_nil posts.message)
  have negotiated := Option.isSome_iff_exists.mpr ⟨suite, common⟩
  have answerable : ∃ resp session, respondHandshake identity init CipherSuite.all around.eph
      around.salt = .ok (resp, session) :=
    exists_respondHandshake_iff.mpr ⟨verified, eph, salt, negotiated⟩
  obtain ⟨resp, session, answered⟩ := answerable
  obtain ⟨-, own, -, -, -, keyed⟩ := respondHandshake_eq_ok answered
  refine ⟨session, ⟨posts, verified, eph, salt, own, _, keyed⟩, ?_⟩
  -- the route runs before the gate, and compares the id of the path with nothing
  rw [handleRequest_addressed page posts.addressed, if_pos posts.handshake]
  simp only [handleSecureHandshake, held, posts.message, answered]
  exact AList.lookup_insert _

/-- The gate and an identity are installed. -/
def Secured (gate : ZeroTrustBroker) (server : FleetServer T R p) : Prop :=
  server.authz = some gate ∧ server.identity.isSome

/-- Requests leave the gate and the identity. -/
theorem secured_handleRequest (page : String) {gate : ZeroTrustBroker}
    {server : FleetServer T R p} (secured : server.Secured gate) (req : Request)
    (around : Surroundings p) : (handleRequest F page server req around).1.Secured gate := by
  have outcome : Outcome F server req around _ := outcome_handleRequest page
  generalize (handleRequest F page server req around).1 = after at outcome ⊢
  cases outcome with
  | unchanged => exact secured
  | established => exact secured
  | dispatched => exact secured

variable (F T R p) in
/-- A secured server without sessions, and one request after another. -/
def requests (page : String) (gate : ZeroTrustBroker) :
    TransitionSystem (FleetServer T R p) (Request × Surroundings p) :=
  .ofNext (fun server => server.Secured gate ∧ server.sessions = ∅)
    fun server action => some (handleRequest F page server action.1 action.2).1

variable (F T R p) in
/-- The requests that impersonate nobody. -/
def honestRequests (page : String) (gate : ZeroTrustBroker) :
    TransitionSystem (FleetServer T R p) (Request × Surroundings p) :=
  (requests F T R p page gate).restrict fun _ action => ¬ Impersonates F gate action.1 action.2

/-- A run goes on with any request. -/
theorem reachable_request {page : String} {gate : ZeroTrustBroker} {server : FleetServer T R p}
    (reached : (requests F T R p page gate).Reachable server) (req : Request)
    (around : Surroundings p) :
    (requests F T R p page gate).Reachable (handleRequest F page server req around).1 := by
  have stepped : (requests F T R p page gate).step server (req, around) _ := rfl
  exact reached.step stepped

/-- A run without impersonation goes on with a request that impersonates nobody. -/
theorem reachable_honestRequest {page : String} {gate : ZeroTrustBroker}
    {server : FleetServer T R p} (reached : (honestRequests F T R p page gate).Reachable server)
    {req : Request} {around : Surroundings p} (honest : ¬ Impersonates F gate req around) :
    (honestRequests F T R p page gate).Reachable (handleRequest F page server req around).1 := by
  have stepped : (honestRequests F T R p page gate).step server (req, around) _ := ⟨honest, rfl⟩
  exact reached.step stepped

/-- Every session names its unit and was agreed with a genuine attestation of the unit. -/
def SessionsBound (gate : ZeroTrustBroker) (server : FleetServer T R p) : Prop :=
  ∀ id session, server.session id = some session → session.peerId = id ∧
    ∃ (own : p.x.StaticSecret) (attestation : Attestation p.ed) (chosen : CipherSuite),
      GenuineFor gate id attestation ∧ Keyed own attestation chosen session

/-- A request that impersonates nobody keeps the sessions bound. -/
theorem sessionsBound_handleRequest (page : String) {gate : ZeroTrustBroker}
    {server : FleetServer T R p} (bound : server.SessionsBound gate) {req : Request}
    {around : Surroundings p} (honest : ¬ Impersonates F gate req around) :
    (handleRequest F page server req around).1.SessionsBound gate := by
  intro id session stored
  rcases session_handleRequest (F := F) page server req around id with
    kept | ⟨init, agreed, made, left⟩
  · exact bound id session (kept.symm.trans stored)
  · cases left.symm.trans stored
    have genuine := made.genuine honest
    obtain ⟨own, chosen, keyed⟩ := made.keyed
    exact ⟨keyed.peerId.trans genuine.1, own, init.attestation, chosen, genuine, keyed⟩

/-- Integrity of the session map, in the runs without impersonation: a session is always that
of its unit, and a request without a genuine handshake for a unit leaves its entry.  An
impersonation, after such a run, takes the entry over. -/
theorem session_integrity (page : String) {gate : ZeroTrustBroker} {server : FleetServer T R p}
    (reached : (honestRequests F T R p page gate).Reachable server) :
    server.SessionsBound gate ∧
    ∀ (req : Request) (around : Surroundings p),
      (¬ Impersonates F gate req around → ∀ id,
        (handleRequest F page server req around).1.session id = server.session id ∨
          ∃ init : HandshakeInit p, PostsHandshake F req id init ∧
            GenuineFor gate id init.attestation) ∧
      (Impersonates F gate req around → ∃ id init session, Agreed F req around id init session ∧
        ¬ GenuineFor gate id init.attestation ∧
        (handleRequest F page server req around).1.session id = some session) := by
  have invariant : server.Secured gate ∧ server.SessionsBound gate := by
    apply reached.invariant (P := fun server => server.Secured gate ∧ server.SessionsBound gate)
    · rintro state ⟨secured, empty⟩
      refine ⟨secured, ?_⟩
      intro id session stored
      rw [FleetServer.session, empty] at stored
      cases stored
    · rintro state ⟨req, around⟩ target ⟨secured, bound⟩ ⟨honest, stepped⟩
      cases stepped
      exact ⟨secured_handleRequest page secured req around,
        sessionsBound_handleRequest page bound honest⟩
  refine ⟨invariant.2, fun req around => ⟨?_, ?_⟩⟩
  · intro honest id
    rcases session_handleRequest (F := F) page server req around id with
      kept | ⟨init, session, made, -⟩
    · exact .inl kept
    · exact .inr ⟨init, made.posted, made.genuine honest⟩
  · rintro ⟨id, init, posts, verified, eph, salt, forged⟩
    obtain ⟨session, made, left⟩ :=
      session_of_postsHandshake page invariant.1.2 posts verified eph salt
    exact ⟨id, init, session, made, forged, left⟩

end FleetServer

section Instance

open Sec.Symbolic

/-- The holder of an attestation posts it to the handshake of unit 1. -/
def handshakeWith (attestation : Attestation primitives.ed) : Request :=
  { postTo "secure/handshake" [] with
    body := utf8 (Json.fieldText "attestation" (hexEncode attestation.toBytes)) }

/-- The first message with an attestation and all suites. -/
def offers (attestation : Attestation primitives.ed) : HandshakeInit primitives :=
  ⟨attestation, CipherSuite.all⟩

/-- Whoever holds a key posts a well-formed handshake to unit 1. -/
theorem postsHandshake_handshakeWith (unitId : UInt64) (role : Role) (seed : UInt8) :
    PostsHandshake ℚ (handshakeWith (attests unitId role seed)) 1
      (offers (attests unitId role seed)) := by
  have path : (handshakeWith (attests unitId role seed)).path =
      "/api/units/1/secure/handshake" := rfl
  have body : bodyOf ℚ (handshakeWith (attests unitId role seed)) =
      .obj [("attestation", .str (hexEncode (attests unitId role seed).toBytes))] := by
    have plain : ∀ c ∈ "attestation".toList, JsonParser.Plain c := by
      have each : "attestation".toList.all (JsonParser.Plain ·) = true := by decide +kernel
      intro c member
      exact of_decide_eq_true (List.all_eq_true.mp each c member)
    rw [bodyOf, handshakeWith, Json.parse_fieldText plain (plain_hexEncode _)]
    rfl
  refine ⟨?_, ⟨?_, rfl⟩, ?_⟩
  · rw [path]
    decide +kernel
  · rw [path]
    decide +kernel
  · have read := attestationFromHex_hexEncode (fromBytes_toBytes_sig unitId role seed)
    simp [body, handshakeInitFromJson, Json.get, Json.asStr, suitesFromJson, read, offers,
      CipherSuite.all]

theorem secured_gatedServer : gatedServer.Secured agentAndObserver ∧ gatedServer.sessions = ∅ :=
  ⟨⟨rfl, rfl⟩, rfl⟩

/-- What the holder of an attestation leaves of the server. -/
def afterHandshake (attestation : Attestation primitives.ed) :
    FleetServer (Observed NullTransport) NullRecorder primitives :=
  (FleetServer.handleRequest ℚ "" gatedServer (handshakeWith attestation) surroundings).1

theorem reachable_afterHandshake (attestation : Attestation primitives.ed) :
    (FleetServer.requests ℚ _ _ _ "" agentAndObserver).Reachable (afterHandshake attestation) :=
  FleetServer.reachable_request (.of_initial secured_gatedServer) _ _

theorem reachable_afterHonest {attestation : Attestation primitives.ed}
    (honest : ¬ Impersonates ℚ agentAndObserver (handshakeWith attestation) surroundings) :
    (FleetServer.honestRequests ℚ _ _ _ "" agentAndObserver).Reachable
      (afterHandshake attestation) :=
  FleetServer.reachable_honestRequest (.of_initial secured_gatedServer) honest

/-- The session it leaves is with the unit of the attestation. -/
theorem session_afterHandshake (unitId : UInt64) (role : Role) (seed : UInt8) :
    ∃ session, (afterHandshake (attests unitId role seed)).session 1 = some session ∧
      session.peerId = unitId := by
  have verified : (attests unitId role seed).verify = true := Attestation.verify_sign _ _
  have eph : surroundings.eph.isSome := rfl
  have salt : surroundings.salt.isSome := rfl
  obtain ⟨session, made, left⟩ := FleetServer.session_of_postsHandshake ""
    secured_gatedServer.1.2 (postsHandshake_handshakeWith unitId role seed) verified eph salt
  obtain ⟨own, chosen, keyed⟩ := made.keyed
  exact ⟨session, left, keyed.peerId⟩

/-- The handshake of unit 1 for itself leaves its session, and the sessions bound. -/
theorem sessionsBound_agent :
    (∃ session, (afterHandshake (attests 1 .aiAgent 7)).session 1 = some session ∧
      session.peerId = 1) ∧
    (afterHandshake (attests 1 .aiAgent 7)).SessionsBound agentAndObserver := by
  have verified : (attests 1 .aiAgent 7).verify = true := Attestation.verify_sign _ _
  have enrolled : agentAndObserver.trust.keys 1 = some (attests 1 .aiAgent 7).signingPub := by
    decide +kernel
  have honest : ¬ Impersonates ℚ agentAndObserver (handshakeWith (attests 1 .aiAgent 7))
      surroundings := by
    rintro ⟨id, init, posts, -, -, -, forged⟩
    have own := postsHandshake_handshakeWith 1 .aiAgent 7
    cases posts.addressed.symm.trans own.addressed
    cases posts.message.symm.trans own.message
    exact forged ⟨rfl, enrolled, verified⟩
  exact ⟨session_afterHandshake 1 .aiAgent 7,
    (FleetServer.session_integrity "" (reachable_afterHonest honest)).1⟩

/-- The handshake of unit 2 at the address of unit 1 leaves a session with unit 2 for unit 1. -/
theorem observer_takes_session :
    ∃ server, (FleetServer.requests ℚ (Observed NullTransport) NullRecorder primitives ""
        agentAndObserver).Reachable server ∧
      ∃ session, server.session 1 = some session ∧ session.peerId = 2 :=
  ⟨_, reachable_afterHandshake (attests 2 .observer 9), session_afterHandshake 2 .observer 9⟩

end Instance

end Teleop.Cloud
