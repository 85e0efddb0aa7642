import Teleop.Sec.Symbolic

/-!
# Authentication of the peer of a session

The handshake verifies an attestation against the key in it.  A session is therefore
authenticated exactly if that key is the one enrolled for the unit the attestation names,
and an adversary with any signing key of its own can take the place of any unit.
-/

namespace Teleop.Sec.Network

open Teleop.Lib SignatureScheme

variable {p : Primitives}

/-- The key enrolled for the peer of the session, which is not one of the adversary, signed the
unit id and role the session names and the ephemeral key its own key was agreed with. -/
def Authenticated (fleet : Fleet p) (state : State p) (established : Established p) : Prop :=
  ∃ enrolled, ¬ fleet.owned enrolled ∧
    fleet.store.keys established.session.peerId =
      some (p.ed.asBytes (p.ed.verifyingKey enrolled)) ∧
    (enrolled, established.statement) ∈ state.signed ∧
    established.peer.sig = p.ed.sign enrolled established.statement ∧
    established.session.crypto.key =
      p.expand HKDF_INFO (p.x.diffieHellman established.eph established.peer.ephPub)

/-- The trust store holds the key in the attestation for the unit that it names. -/
def Enrolled (fleet : Fleet p) (attestation : Attestation p.ed) : Prop :=
  fleet.store.keys attestation.unitId = some attestation.signingPub

/-- The attestation that is handed to a call carries the enrolled key. -/
def PresentsEnrolled (fleet : Fleet p) (_state : State p) : Action p → Prop
  | .respond _ init _ _ _ => Enrolled fleet init.attestation
  | .finish _ resp _ => Enrolled fleet resp.attestation
  | .begin _ _ _ | .forge _ _ => True

/-- A sound session is authenticated exactly if the key it accepted is enrolled. -/
theorem authenticated_iff_enrolled {fleet : Fleet p} {state : State p}
    {established : Established p} (sound : Sound state.signed established) :
    Authenticated fleet state established ↔ Enrolled fleet established.peer := by
  obtain ⟨signer, embedded, made, signed⟩ := sound.backed
  unfold Authenticated Enrolled
  rw [sound.statement_eq, sound.keyed.peerId, sound.keyed.key, embedded]
  constructor
  · rintro ⟨enrolled, -, held, -, sameSignature, -⟩
    rw [made] at sameSignature
    obtain ⟨rfl, -⟩ := p.ed.sign_injective sameSignature
    exact held
  · intro held
    refine ⟨signer, ?_, held, signed, made, rfl⟩
    intro owned
    exact fleet.owned_unenrolled owned held

theorem enrolled_of_establishes {fleet : Fleet p} {state : State p} {action : Action p}
    {established : Established p} (presents : PresentsEnrolled fleet state action)
    (establishes : Establishes state action established) :
    Enrolled fleet established.peer := by
  cases establishes with
  | respond verified signs keyed => exact presents
  | finish held verified keyed => exact presents

/-- In a run in which only attestations with enrolled keys are handed to the calls, every
accepted key is enrolled. -/
theorem enrolled_of_reachable {fleet : Fleet p} {state : State p}
    (reached : ((handshakes fleet).restrict (PresentsEnrolled fleet)).Reachable state) :
    ∀ established ∈ state.sessions, Enrolled fleet established.peer := by
  apply reached.invariant (P := fun state => ∀ established ∈ state.sessions,
    Enrolled fleet established.peer)
  · rintro state rfl established member
    cases member
  · rintro state action target enrolled ⟨presents, -, stepped⟩
    refine forall_sessions_of_next (P := fun established => Enrolled fleet established.peer)
      stepped enrolled ?_
    intro established establishes
    exact enrolled_of_establishes presents establishes

/-- Authentication of every session in the runs in which calls are handed enrolled keys only;
and in any run, of exactly the sessions whose accepted key is enrolled. -/
theorem authenticates_iff_enrolled (fleet : Fleet p) :
    (∀ state, ((handshakes fleet).restrict (PresentsEnrolled fleet)).Reachable state →
      ∀ established ∈ state.sessions, Authenticated fleet state established) ∧
    (∀ state, (handshakes fleet).Reachable state → ∀ established ∈ state.sessions,
      (Authenticated fleet state established ↔ Enrolled fleet established.peer)) := by
  have exactly : ∀ state, (handshakes fleet).Reachable state →
      ∀ established ∈ state.sessions,
        (Authenticated fleet state established ↔ Enrolled fleet established.peer) := by
    intro state reached established member
    exact authenticated_iff_enrolled (sound_of_reachable reached established member)
  refine ⟨?_, exactly⟩
  intro state reached established member
  exact (exactly state reached.of_restrict established member).mpr
    (enrolled_of_reachable reached established member)

/-- The undisturbed exchange of two enrolled units authenticates both sessions. -/
theorem authenticates_exchange : ∀ established ∈
    (Symbolic.exchange.afterFinish .aes256Gcm).sessions,
      Authenticated Symbolic.twoUnits (Symbolic.exchange.afterFinish .aes256Gcm) established := by
  apply (authenticates_iff_enrolled Symbolic.twoUnits).1
  exact Symbolic.exchange.reachable .aes256Gcm Symbolic.initiator_honest
    Symbolic.responder_honest trivial rfl rfl

/-- A first message with an attestation the adversary signed itself. -/
def impostor (signer : p.ed.SigningKey) (unitId : UInt64) (role : Role)
    (ephPub : Vector UInt8 32) : HandshakeInit p where
  attestation :=
    { unitId, role, ephPub
      signingPub := p.ed.asBytes (p.ed.verifyingKey signer)
      sig := p.ed.sign signer (Attestation.signedMessage unitId role ephPub) }
  suites := CipherSuite.all

theorem verify_impostor (signer : p.ed.SigningKey) (unitId : UInt64) (role : Role)
    (ephPub : Vector UInt8 32) :
    (impostor signer unitId role ephPub).attestation.verify = true := by
  apply Attestation.verify_eq_true.mpr
  refine ⟨p.ed.verifyingKey signer, ?_, SignatureScheme.verify_sign _ _⟩
  exact p.ed.fromBytes_asBytes _

/-- An adversary with a signing key of its own gets a session under any unit id and role from
any honest responder. -/
theorem reachable_impersonation (fleet : Fleet p) {signer : p.ed.SigningKey}
    {identity : DeviceIdentity p.ed} (owned : fleet.owned signer)
    (honest : ¬ fleet.owned identity.signing) (unitId : UInt64) (role : Role)
    (ephPub : Vector UInt8 32) (own : p.x.StaticSecret) (salt : Vector UInt8 4) :
    ∃ state, (handshakes fleet).Reachable state ∧ ∃ established ∈ state.sessions,
      established.session.peerId = unitId ∧ established.session.peerRole = role ∧
        ¬ Authenticated fleet state established := by
  have common : CipherSuite.negotiate CipherSuite.all
      (impostor signer unitId role ephPub).suites = some .aes256Gcm := rfl
  have answered := respondHandshake_of_verify identity own salt
    (verify_impostor signer unitId role ephPub) common
  have forges : (handshakes fleet).step ⟨[], [], []⟩
      (.forge signer (Attestation.signedMessage unitId role ephPub)) _ := ⟨owned, rfl⟩
  have responds : (handshakes fleet).step
      ⟨[(signer, Attestation.signedMessage unitId role ephPub)], [], []⟩
      (.respond identity (impostor signer unitId role ephPub) CipherSuite.all (some own)
        (some salt)) _ :=
    ⟨⟨honest, .of_mem List.mem_cons_self⟩, next_respond _ answered⟩
  have reached := ((TransitionSystem.Reachable.of_initial rfl).step forges).step responds
  refine ⟨_, reached, _, List.mem_cons_self, rfl, rfl, ?_⟩
  intro authenticated
  have sound := sound_of_reachable reached _ List.mem_cons_self
  have enrolled := (authenticated_iff_enrolled sound).mp authenticated
  exact fleet.owned_unenrolled owned enrolled

/-- The adversary, whose key is enrolled for nobody, is taken for unit 1 as an admin. -/
theorem impostor_taken_for_unit : ∃ state, (handshakes Symbolic.twoUnits).Reachable state ∧
    ∃ established ∈ state.sessions, established.session.peerId = 1 ∧
      established.session.peerRole = .admin ∧
        ¬ Authenticated Symbolic.twoUnits state established :=
  reachable_impersonation Symbolic.twoUnits rfl Symbolic.responder_honest 1 .admin
    (Vector.replicate 32 1) (Vector.replicate 32 5 : Vector UInt8 32) (Vector.replicate 4 0)

end Teleop.Sec.Network
