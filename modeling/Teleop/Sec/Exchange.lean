import Teleop.Sec.Network

/-!
# A handshake between two honest units

The run in which the two messages of an initiator and a responder arrive with the
attestations they were sent with.  The suite travels beside the attestation, so the reply
is delivered under any suite.
-/

namespace Teleop.Sec.Network

open Teleop.Lib SignatureScheme

variable {p : Primitives}

/-- Two honest units, what each brings to a handshake and what the random source gives them. -/
structure Exchange (p : Primitives) where
  initiator : DeviceIdentity p.ed
  responder : DeviceIdentity p.ed
  offered : List CipherSuite
  accepted : List CipherSuite
  initiatorEph : p.x.StaticSecret
  responderEph : p.x.StaticSecret
  salt : Vector UInt8 4
  /-- The suite the responder picks. -/
  chosen : CipherSuite
  negotiated : CipherSuite.negotiate accepted offered = some chosen

namespace Exchange

variable (exchange : Exchange p)

def init : HandshakeInit p where
  attestation := Attestation.sign exchange.initiator (p.x.publicKey exchange.initiatorEph)
  suites := exchange.offered

/-- The reply as it is delivered. -/
def resp (suite : CipherSuite) : HandshakeResp p where
  attestation := Attestation.sign exchange.responder (p.x.publicKey exchange.responderEph)
  suite := suite

def begins : Action p :=
  .begin exchange.initiator exchange.offered (some exchange.initiatorEph)

def responds : Action p :=
  .respond exchange.responder exchange.init exchange.accepted (some exchange.responderEph)
    (some exchange.salt)

def finishes (delivered : CipherSuite) : Action p :=
  .finish 0 (exchange.resp delivered) (some exchange.salt)

/-- The box one side derives. -/
def crypto (own : p.x.StaticSecret) (peerPub : Vector UInt8 32) (suite : CipherSuite) :
    CryptoBox :=
  ⟨suite, p.expand HKDF_INFO (p.x.diffieHellman own peerPub), 0, exchange.salt⟩

/-- What the responder holds. -/
def answered : Established p where
  side := .responder
  eph := exchange.responderEph
  init := exchange.init
  resp := exchange.resp exchange.chosen
  session :=
    ⟨exchange.initiator.unitId, exchange.initiator.role,
      exchange.crypto exchange.responderEph (p.x.publicKey exchange.initiatorEph)
        exchange.chosen,
      exchange.chosen⟩

/-- What the initiator holds after the reply has arrived under some suite. -/
def finished (delivered : CipherSuite) : Established p where
  side := .initiator
  eph := exchange.initiatorEph
  init := exchange.init
  resp := exchange.resp delivered
  session :=
    ⟨exchange.responder.unitId, exchange.responder.role,
      exchange.crypto exchange.initiatorEph (p.x.publicKey exchange.responderEph) delivered,
      delivered⟩

def afterBegin : State p where
  signed := [(exchange.initiator.signing, Attestation.signedMessage exchange.initiator.unitId
    exchange.initiator.role (p.x.publicKey exchange.initiatorEph))]
  begun := [⟨exchange.initiator, exchange.init, ⟨exchange.initiatorEph⟩⟩]
  sessions := []

def afterRespond : State p where
  signed := (exchange.responder.signing, Attestation.signedMessage exchange.responder.unitId
    exchange.responder.role (p.x.publicKey exchange.responderEph)) :: exchange.afterBegin.signed
  begun := exchange.afterBegin.begun
  sessions := [exchange.answered]

def afterFinish (delivered : CipherSuite) : State p where
  signed := exchange.afterRespond.signed
  begun := []
  sessions := [exchange.finished delivered, exchange.answered]

theorem next_begins : next ⟨[], [], []⟩ exchange.begins = some exchange.afterBegin := rfl

theorem next_responds :
    next exchange.afterBegin exchange.responds = some exchange.afterRespond := by
  have ran : respondHandshake exchange.responder exchange.init exchange.accepted
      (some exchange.responderEph) (some exchange.salt) =
        .ok (exchange.resp exchange.chosen, exchange.answered.session) :=
    respondHandshake_of_verify exchange.responder exchange.responderEph exchange.salt
      (Attestation.verify_sign exchange.initiator _) exchange.negotiated
  exact next_respond exchange.afterBegin ran

theorem next_finishes (delivered : CipherSuite) :
    next exchange.afterRespond (exchange.finishes delivered) =
      some (exchange.afterFinish delivered) := by
  have ran : finishHandshake exchange.initiator ⟨exchange.initiatorEph⟩
      (exchange.resp delivered) (some exchange.salt) =
        .ok (exchange.finished delivered).session :=
    finishHandshake_of_verify exchange.initiator ⟨exchange.initiatorEph⟩ exchange.salt
      (Attestation.verify_sign exchange.responder _)
  have held : exchange.afterRespond.begun[0]? =
      some ⟨exchange.initiator, exchange.init, ⟨exchange.initiatorEph⟩⟩ := rfl
  exact next_finish held ran

theorem fresh_begins : Fresh ⟨[], [], []⟩ exchange.begins :=
  fun _ _ _ _ _ => List.not_mem_nil

/-- Only the first message has been signed when the responder draws its secret. -/
theorem fresh_responds (different :
      p.x.publicKey exchange.responderEph ≠ p.x.publicKey exchange.initiatorEph) :
    Fresh exchange.afterBegin exchange.responds := by
  rintro own drawn signer unitId role signed
  cases drawn
  have same := (Prod.mk.inj (List.mem_singleton.mp signed)).2
  obtain ⟨-, -, samePub⟩ := Attestation.signedMessage_injective same
  exact different samePub

/-- The exchange is a run, under any condition that its three steps meet. -/
theorem reachable {fleet : Fleet p} {condition : State p → Action p → Prop}
    (delivered : CipherSuite)
    (initiatorHonest : ¬ fleet.owned exchange.initiator.signing)
    (responderHonest : ¬ fleet.owned exchange.responder.signing)
    (meetsBegin : condition ⟨[], [], []⟩ exchange.begins)
    (meetsRespond : condition exchange.afterBegin exchange.responds)
    (meetsFinish : condition exchange.afterRespond (exchange.finishes delivered)) :
    ((handshakes fleet).restrict condition).Reachable (exchange.afterFinish delivered) := by
  have start : ((handshakes fleet).restrict condition).Reachable ⟨[], [], []⟩ :=
    .of_initial rfl
  have began := start.step ⟨meetsBegin, initiatorHonest, exchange.next_begins⟩
  have answered := began.step
    ⟨meetsRespond, ⟨responderHonest, .of_mem List.mem_cons_self⟩, exchange.next_responds⟩
  exact answered.step ⟨meetsFinish, .of_mem List.mem_cons_self, exchange.next_finishes delivered⟩

/-- When the reply arrives as it was sent, each side opens what the other seals. -/
theorem opens :
    (exchange.finished exchange.chosen).session.Opens p exchange.answered.session ∧
      exchange.answered.session.Opens p (exchange.finished exchange.chosen).session := by
  have sameKey : (exchange.finished exchange.chosen).session.crypto.key =
      exchange.answered.session.crypto.key :=
    congrArg (p.expand HKDF_INFO) (p.x.diffieHellman_comm _ _)
  exact ⟨SecureSession.opens_of_same rfl sameKey, SecureSession.opens_of_same rfl sameKey.symm⟩

end Exchange

end Teleop.Sec.Network
