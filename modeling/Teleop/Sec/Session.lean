import Teleop.Sec.Cipher

/-!
# Session establishment

The two-message handshake: each side signs a fresh ephemeral key, verifies the attestation
of the other and derives the session key from the two ephemeral keys.  What the random
source returns to a call is an argument of the call.
-/

namespace Teleop.Sec

open Teleop.Lib

/-- Ephemeral key agreement. -/
structure X25519 where
  StaticSecret : Type
  publicKey : StaticSecret → Vector UInt8 32
  diffieHellman : StaticSecret → Vector UInt8 32 → Vector UInt8 32
  diffieHellman_comm : ∀ own peer,
    diffieHellman own (publicKey peer) = diffieHellman peer (publicKey own)

/-- The cryptography the handshake is built from.  `expand info shared` is the 32-byte
HKDF-SHA256 expansion of a shared secret. -/
structure Primitives where
  ed : Ed25519
  x : X25519
  aead : Aead
  expand : List UInt8 → Vector UInt8 32 → Vector UInt8 32

/-- First handshake message. -/
structure HandshakeInit (p : Primitives) where
  attestation : Attestation p.ed
  suites : List CipherSuite

/-- Second handshake message. -/
structure HandshakeResp (p : Primitives) where
  attestation : Attestation p.ed
  suite : CipherSuite

/-- The initiator keeps its ephemeral key and nothing else. -/
structure PendingHandshake (p : Primitives) where
  eph : p.x.StaticSecret

structure SecureSession where
  peerId : UInt64
  peerRole : Role
  crypto : CryptoBox
  suite : CipherSuite

namespace SecureSession

variable (p : Primitives)

/-- `SecureSession::seal`. -/
def sealPlaintext (session : SecureSession) (plaintext aad : List UInt8) :
    Except SecError (List UInt8) × SecureSession :=
  let (envelope, crypto) := session.crypto.sealToVec p.aead plaintext aad
  (envelope, { session with crypto })

/-- `SecureSession::open`. -/
def openEnvelope (session : SecureSession) (envelope aad out : List UInt8) :
    Except SecError (Nat × List UInt8) :=
  session.crypto.openInto p.aead envelope aad out

end SecureSession

/-- Binds derived keys to this protocol version. -/
def HKDF_INFO : List UInt8 := "tpt-teleop-sec-v1".toUTF8.toList

variable {p : Primitives}

def generateEph (eph : Option p.x.StaticSecret) :
    Except SecError (p.x.StaticSecret × Vector UInt8 32) :=
  match eph with
  | none => .error .keyGen
  | some eph => .ok (eph, p.x.publicKey eph)

def deriveShared (ourEph : p.x.StaticSecret) (peerPub : Vector UInt8 32) : Vector UInt8 32 :=
  p.x.diffieHellman ourEph peerPub

def deriveKey (p : Primitives) (shared : Vector UInt8 32) (suite : CipherSuite)
    (salt : Option (Vector UInt8 4)) : Except SecError CryptoBox :=
  CryptoBox.fromKdf suite (p.expand HKDF_INFO shared) salt

/-- The initiator's first message and the state needed to finish. -/
def beginHandshake (identity : DeviceIdentity p.ed) (suites : List CipherSuite)
    (eph : Option p.x.StaticSecret) :
    Except SecError (HandshakeInit p × PendingHandshake p) :=
  match generateEph eph with
  | .error failure => .error failure
  | .ok (eph, ephPub) => .ok (⟨Attestation.sign identity ephPub, suites⟩, ⟨eph⟩)

/-- Verifies the initiator, derives the shared key and returns the reply with the session. -/
def respondHandshake (identity : DeviceIdentity p.ed) (init : HandshakeInit p)
    (ourSuites : List CipherSuite) (eph : Option p.x.StaticSecret)
    (salt : Option (Vector UInt8 4)) : Except SecError (HandshakeResp p × SecureSession) :=
  if init.attestation.verify = false then .error .attestationFailed
  else
    match generateEph eph with
    | .error failure => .error failure
    | .ok (eph, ephPub) =>
        let shared := deriveShared eph init.attestation.ephPub
        match CipherSuite.negotiate ourSuites init.suites with
        | none => .error (.handshake "no common cipher suite")
        | some suite =>
            match deriveKey p shared suite salt with
            | .error failure => .error failure
            | .ok crypto =>
                .ok (⟨Attestation.sign identity ephPub, suite⟩,
                  ⟨init.attestation.unitId, init.attestation.role, crypto, suite⟩)

/-- Verifies the responder and finalizes the session. -/
def finishHandshake (_identity : DeviceIdentity p.ed) (pending : PendingHandshake p)
    (resp : HandshakeResp p) (salt : Option (Vector UInt8 4)) :
    Except SecError SecureSession :=
  if resp.attestation.verify = false then .error .attestationFailed
  else
    let shared := deriveShared pending.eph resp.attestation.ephPub
    match deriveKey p shared resp.suite salt with
    | .error failure => .error failure
    | .ok crypto =>
        .ok ⟨resp.attestation.unitId, resp.attestation.role, crypto, resp.suite⟩

/-- A session that names the peer of an attestation, with the key agreed between an ephemeral
secret and the ephemeral key of the attestation, under one suite. -/
structure Keyed (own : p.x.StaticSecret) (peer : Attestation p.ed) (chosen : CipherSuite)
    (session : SecureSession) : Prop where
  peerId : session.peerId = peer.unitId
  peerRole : session.peerRole = peer.role
  suite : session.suite = chosen
  cryptoSuite : session.crypto.suite = chosen
  key : session.crypto.key = p.expand HKDF_INFO (p.x.diffieHellman own peer.ephPub)

theorem keyed_of_deriveKey {own : p.x.StaticSecret} {peer : Attestation p.ed}
    {chosen : CipherSuite} {salt : Option (Vector UInt8 4)} {crypto : CryptoBox}
    (derived : deriveKey p (deriveShared own peer.ephPub) chosen salt = .ok crypto) :
    Keyed own peer chosen ⟨peer.unitId, peer.role, crypto, chosen⟩ := by
  obtain ⟨cryptoSuite, key⟩ := CryptoBox.fromKdf_eq_ok derived
  exact ⟨rfl, rfl, rfl, cryptoSuite, key⟩

/-- A begun handshake sends the signed public key of the ephemeral secret it keeps. -/
theorem beginHandshake_eq_ok {identity : DeviceIdentity p.ed} {suites : List CipherSuite}
    {eph : Option p.x.StaticSecret} {init : HandshakeInit p} {pending : PendingHandshake p}
    (began : beginHandshake identity suites eph = .ok (init, pending)) :
    eph = some pending.eph ∧
      init = ⟨Attestation.sign identity (p.x.publicKey pending.eph), suites⟩ := by
  cases eph with
  | none => cases began
  | some eph =>
      cases began
      exact ⟨rfl, rfl⟩

/-- An answered handshake verified the attestation it answers, and keyed the session with it. -/
theorem respondHandshake_eq_ok {identity : DeviceIdentity p.ed} {init : HandshakeInit p}
    {ourSuites : List CipherSuite} {eph : Option p.x.StaticSecret}
    {salt : Option (Vector UInt8 4)} {resp : HandshakeResp p} {session : SecureSession}
    (answered : respondHandshake identity init ourSuites eph salt = .ok (resp, session)) :
    init.attestation.verify = true ∧ ∃ own, eph = some own ∧
      resp.attestation = Attestation.sign identity (p.x.publicKey own) ∧
      CipherSuite.negotiate ourSuites init.suites = some resp.suite ∧
      Keyed own init.attestation resp.suite session := by
  unfold respondHandshake at answered
  split at answered
  · cases answered
  · rename_i verified
    cases eph with
    | none => cases answered
    | some own =>
        simp only [generateEph] at answered
        cases negotiated : CipherSuite.negotiate ourSuites init.suites with
        | none =>
            rw [negotiated] at answered
            cases answered
        | some chosen =>
            simp only [negotiated] at answered
            split at answered
            · cases answered
            · rename_i crypto derived
              cases answered
              exact ⟨by simpa using verified, own, rfl, rfl, rfl, keyed_of_deriveKey derived⟩

/-- A first message is answered exactly if its attestation verifies, the random source works and
there is a common suite. -/
theorem exists_respondHandshake_iff {identity : DeviceIdentity p.ed} {init : HandshakeInit p}
    {ourSuites : List CipherSuite} {eph : Option p.x.StaticSecret}
    {salt : Option (Vector UInt8 4)} :
    (∃ resp session, respondHandshake identity init ourSuites eph salt = .ok (resp, session)) ↔
      init.attestation.verify = true ∧ eph.isSome ∧ salt.isSome ∧
        (CipherSuite.negotiate ourSuites init.suites).isSome := by
  unfold respondHandshake
  cases verified : init.attestation.verify with
  | false => simp
  | true =>
      cases eph with
      | none => simp [generateEph]
      | some own =>
          cases CipherSuite.negotiate ourSuites init.suites with
          | none => simp [generateEph]
          | some chosen => cases salt <;> simp [generateEph, deriveKey, CryptoBox.fromKdf]

/-- A finished handshake verified the attestation of the reply, and keyed the session with it
under the suite the reply names. -/
theorem finishHandshake_eq_ok {identity : DeviceIdentity p.ed} {pending : PendingHandshake p}
    {resp : HandshakeResp p} {salt : Option (Vector UInt8 4)} {session : SecureSession}
    (finished : finishHandshake identity pending resp salt = .ok session) :
    resp.attestation.verify = true ∧
      Keyed pending.eph resp.attestation resp.suite session := by
  unfold finishHandshake at finished
  split at finished
  · cases finished
  · rename_i verified
    simp only at finished
    split at finished
    · cases finished
    · rename_i crypto derived
      cases finished
      exact ⟨by simpa using verified, keyed_of_deriveKey derived⟩

/-- A verified first message with a common suite is answered, if the random source works. -/
theorem respondHandshake_of_verify (identity : DeviceIdentity p.ed) {init : HandshakeInit p}
    {ourSuites : List CipherSuite} {chosen : CipherSuite} (own : p.x.StaticSecret)
    (salt : Vector UInt8 4) (verified : init.attestation.verify = true)
    (negotiated : CipherSuite.negotiate ourSuites init.suites = some chosen) :
    respondHandshake identity init ourSuites (some own) (some salt) =
      .ok (⟨Attestation.sign identity (p.x.publicKey own), chosen⟩,
        ⟨init.attestation.unitId, init.attestation.role,
          ⟨chosen, p.expand HKDF_INFO (p.x.diffieHellman own init.attestation.ephPub), 0, salt⟩,
          chosen⟩) := by
  simp only [respondHandshake, verified, Bool.true_eq_false, if_false, generateEph, negotiated,
    deriveKey, deriveShared, CryptoBox.fromKdf]

/-- A verified reply finishes the handshake, if the random source works. -/
theorem finishHandshake_of_verify (identity : DeviceIdentity p.ed) (pending : PendingHandshake p)
    {resp : HandshakeResp p} (salt : Vector UInt8 4)
    (verified : resp.attestation.verify = true) :
    finishHandshake identity pending resp (some salt) =
      .ok ⟨resp.attestation.unitId, resp.attestation.role,
        ⟨resp.suite, p.expand HKDF_INFO (p.x.diffieHellman pending.eph resp.attestation.ephPub),
          0, salt⟩,
        resp.suite⟩ := by
  simp only [finishHandshake, verified, Bool.true_eq_false, if_false, deriveKey, deriveShared,
    CryptoBox.fromKdf]

/-- `session.Opens other`: what `other` seals, whatever its nonce counter, `session` opens. -/
def SecureSession.Opens (p : Primitives) (session other : SecureSession) : Prop :=
  ∀ ctr plaintext aad envelope out, plaintext.length ≤ out.length →
    (SecureSession.sealPlaintext p { other with crypto := { other.crypto with ctr } }
      plaintext aad).1 = .ok envelope →
    session.openEnvelope p envelope aad out =
      .ok (plaintext.length, plaintext ++ out.drop plaintext.length)

/-- Two sessions keyed with each other's ephemeral keys hold the same key. -/
theorem Keyed.key_eq {own other : p.x.StaticSecret} {peer self : Attestation p.ed}
    {chosen picked : CipherSuite} {session mirror : SecureSession}
    (keyed : Keyed own peer chosen session) (mirrored : Keyed other self picked mirror)
    (theirs : peer.ephPub = p.x.publicKey other) (ours : self.ephPub = p.x.publicKey own) :
    session.crypto.key = mirror.crypto.key := by
  rw [keyed.key, mirrored.key, theirs, ours, p.x.diffieHellman_comm]

theorem SecureSession.opens_of_same {session other : SecureSession}
    (sameSuite : session.crypto.suite = other.crypto.suite)
    (sameKey : session.crypto.key = other.crypto.key) : session.Opens p other := by
  intro ctr plaintext aad envelope out room ran
  have ranBox : (CryptoBox.sealToVec p.aead { other.crypto with ctr } plaintext aad).1 =
      .ok envelope := ran
  apply CryptoBox.openInto_sealToVec _ _ room ranBox
  · exact sameSuite
  · exact sameKey

end Teleop.Sec
