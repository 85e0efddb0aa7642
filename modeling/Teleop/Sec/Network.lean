import Teleop.Lib.TransitionSystem
import Teleop.Sec.Session

/-!
# Handshakes over a network the adversary controls

Honest units call the handshake functions in any order; every message they receive is put
together by the adversary, who sees all signatures made so far and makes its own with
signing keys that are not enrolled.
-/

namespace Teleop.Sec

open Teleop.Lib SignatureScheme

/-- The enrolled keys and the signing keys of the adversary, none of which is enrolled. -/
structure Fleet (p : Primitives) where
  store : TrustStore
  owned : p.ed.SigningKey → Prop
  owned_unenrolled : ∀ {key unitId}, owned key →
    store.keys unitId ≠ some (p.ed.asBytes (p.ed.verifyingKey key))

namespace Network

inductive Side where
  | initiator
  | responder
  deriving DecidableEq, Repr

/-- A handshake an honest unit has begun. -/
structure Begun (p : Primitives) where
  identity : DeviceIdentity p.ed
  init : HandshakeInit p
  pending : PendingHandshake p

/-- A call that returned a session: the ephemeral secret it used and the two messages as they
were sent and received at its end. -/
structure Established (p : Primitives) where
  side : Side
  eph : p.x.StaticSecret
  init : HandshakeInit p
  resp : HandshakeResp p
  session : SecureSession

/-- The attestation the call accepted. -/
def Established.peer {p : Primitives} (established : Established p) : Attestation p.ed :=
  match established.side with
  | .initiator => established.resp.attestation
  | .responder => established.init.attestation

/-- The attestation the call's own unit has sent. -/
def Established.own {p : Primitives} (established : Established p) : Attestation p.ed :=
  match established.side with
  | .initiator => established.init.attestation
  | .responder => established.resp.attestation

/-- What the session says its peer has stated. -/
def Established.statement {p : Primitives} (established : Established p) : List UInt8 :=
  Attestation.signedMessage established.session.peerId established.session.peerRole
    established.peer.ephPub

structure State (p : Primitives) where
  signed : p.ed.Log
  begun : List (Begun p)
  sessions : List (Established p)

inductive Action (p : Primitives) where
  | begin (identity : DeviceIdentity p.ed) (suites : List CipherSuite)
      (eph : Option p.x.StaticSecret)
  | respond (identity : DeviceIdentity p.ed) (init : HandshakeInit p)
      (ourSuites : List CipherSuite) (eph : Option p.x.StaticSecret)
      (salt : Option (Vector UInt8 4))
  | finish (index : Nat) (resp : HandshakeResp p) (salt : Option (Vector UInt8 4))
  | forge (signer : p.ed.SigningKey) (message : List UInt8)

variable {p : Primitives}

/-- An attestation is a signature of its statement under the key of its sender. -/
def State.attested (state : State p) (identity : DeviceIdentity p.ed)
    (attestation : Attestation p.ed) : p.ed.Log :=
  (identity.signing,
    Attestation.signedMessage identity.unitId identity.role attestation.ephPub) :: state.signed

/-- A failed call changes nothing but that `finish_handshake` has consumed the pending state. -/
def next (state : State p) : Action p → Option (State p)
  | .begin identity suites eph =>
      match beginHandshake identity suites eph with
      | .error _ => some state
      | .ok (init, pending) => some
          { state with
            signed := state.attested identity init.attestation
            begun := state.begun ++ [⟨identity, init, pending⟩] }
  | .respond identity init ourSuites eph salt =>
      match respondHandshake identity init ourSuites eph salt, eph with
      | .ok (resp, session), some own => some
          { state with
            signed := state.attested identity resp.attestation
            sessions := ⟨.responder, own, init, resp, session⟩ :: state.sessions }
      | _, _ => some state
  | .finish index resp salt =>
      match state.begun[index]? with
      | none => none
      | some begun =>
          match finishHandshake begun.identity begun.pending resp salt with
          | .error _ => some { state with begun := state.begun.eraseIdx index }
          | .ok session => some
              { state with
                begun := state.begun.eraseIdx index
                sessions :=
                  ⟨.initiator, begun.pending.eph, begun.init, resp, session⟩ :: state.sessions }
  | .forge signer message => some { state with signed := (signer, message) :: state.signed }

theorem next_respond (state : State p) {identity : DeviceIdentity p.ed} {init : HandshakeInit p}
    {ourSuites : List CipherSuite} {own : p.x.StaticSecret} {salt : Option (Vector UInt8 4)}
    {resp : HandshakeResp p} {session : SecureSession}
    (answered : respondHandshake identity init ourSuites (some own) salt = .ok (resp, session)) :
    next state (.respond identity init ourSuites (some own) salt) = some
      { state with
        signed := state.attested identity resp.attestation
        sessions := ⟨.responder, own, init, resp, session⟩ :: state.sessions } := by
  simp only [next, answered]

theorem next_finish {state : State p} {index : Nat} {begun : Begun p} {resp : HandshakeResp p}
    {salt : Option (Vector UInt8 4)} {session : SecureSession}
    (held : state.begun[index]? = some begun)
    (finished : finishHandshake begun.identity begun.pending resp salt = .ok session) :
    next state (.finish index resp salt) = some
      { state with
        begun := state.begun.eraseIdx index
        sessions :=
          ⟨.initiator, begun.pending.eph, begun.init, resp, session⟩ :: state.sessions } := by
  simp only [next, held, finished]

/-- Honest units call with their own identity and receive what can be assembled from the
signatures made so far. -/
def Allowed (fleet : Fleet p) (state : State p) : Action p → Prop
  | .begin identity _ _ => ¬ fleet.owned identity.signing
  | .respond identity init _ _ _ =>
      ¬ fleet.owned identity.signing ∧ Assembles state.signed init.attestation.sig
  | .finish _ resp _ => Assembles state.signed resp.attestation.sig
  | .forge signer _ => fleet.owned signer

def handshakes (fleet : Fleet p) : TransitionSystem (State p) (Action p) :=
  (TransitionSystem.ofNext (· = ⟨[], [], []⟩) next).restrict (Allowed fleet)

/-- The random source does not return a secret whose public key has been signed before. -/
def Fresh (state : State p) : Action p → Prop
  | .begin _ _ eph | .respond _ _ _ eph _ => ∀ own, eph = some own → ∀ signer unitId role,
      (signer, Attestation.signedMessage unitId role (p.x.publicKey own)) ∉ state.signed
  | .finish _ _ _ | .forge _ _ => True

/-- What a call that returns a session has checked and done. -/
inductive Establishes (state : State p) : Action p → Established p → Prop
  | respond {identity : DeviceIdentity p.ed} {init : HandshakeInit p}
      {ourSuites : List CipherSuite} {own : p.x.StaticSecret} {salt : Option (Vector UInt8 4)}
      {resp : HandshakeResp p} {session : SecureSession} :
      init.attestation.verify = true →
      resp.attestation = Attestation.sign identity (p.x.publicKey own) →
      Keyed own init.attestation resp.suite session →
      Establishes state (.respond identity init ourSuites (some own) salt)
        ⟨.responder, own, init, resp, session⟩
  | finish {index : Nat} {begun : Begun p} {resp : HandshakeResp p}
      {salt : Option (Vector UInt8 4)} {session : SecureSession} :
      state.begun[index]? = some begun →
      resp.attestation.verify = true →
      Keyed begun.pending.eph resp.attestation resp.suite session →
      Establishes state (.finish index resp salt)
        ⟨.initiator, begun.pending.eph, begun.init, resp, session⟩

/-- What a step does: a failed call, a message signed and sent, a session or a forgery. -/
inductive Steps (state : State p) : Action p → State p → Prop
  | failed {action : Action p} : Steps state action state
  | began {identity : DeviceIdentity p.ed} {suites : List CipherSuite}
      {own : p.x.StaticSecret} :
      Steps state (.begin identity suites (some own))
        { state with
          signed := state.attested identity (Attestation.sign identity (p.x.publicKey own))
          begun := state.begun ++
            [⟨identity, ⟨Attestation.sign identity (p.x.publicKey own), suites⟩, ⟨own⟩⟩] }
  | responded {identity : DeviceIdentity p.ed} {init : HandshakeInit p}
      {ourSuites : List CipherSuite} {own : p.x.StaticSecret} {salt : Option (Vector UInt8 4)}
      {resp : HandshakeResp p} {session : SecureSession} :
      Establishes state (.respond identity init ourSuites (some own) salt)
        ⟨.responder, own, init, resp, session⟩ →
      Steps state (.respond identity init ourSuites (some own) salt)
        { state with
          signed := state.attested identity resp.attestation
          sessions := ⟨.responder, own, init, resp, session⟩ :: state.sessions }
  | abandoned {index : Nat} {resp : HandshakeResp p} {salt : Option (Vector UInt8 4)} :
      Steps state (.finish index resp salt) { state with begun := state.begun.eraseIdx index }
  | finished {index : Nat} {begun : Begun p} {resp : HandshakeResp p}
      {salt : Option (Vector UInt8 4)} {session : SecureSession} :
      Establishes state (.finish index resp salt)
        ⟨.initiator, begun.pending.eph, begun.init, resp, session⟩ →
      Steps state (.finish index resp salt)
        { state with
          begun := state.begun.eraseIdx index
          sessions :=
            ⟨.initiator, begun.pending.eph, begun.init, resp, session⟩ :: state.sessions }
  | forged {signer : p.ed.SigningKey} {message : List UInt8} :
      Steps state (.forge signer message)
        { state with signed := (signer, message) :: state.signed }

theorem steps_of_next {state target : State p} {action : Action p}
    (stepped : next state action = some target) : Steps state action target := by
  cases action with
  | begin identity suites eph =>
      simp only [next] at stepped
      split at stepped <;> cases stepped
      · exact .failed
      · rename_i init pending began
        obtain ⟨rfl, rfl⟩ := beginHandshake_eq_ok began
        exact .began
  | respond identity init ourSuites eph salt =>
      simp only [next] at stepped
      split at stepped <;> cases stepped
      · rename_i resp session own answered
        obtain ⟨verified, secret, same, signs, -, keyed⟩ := respondHandshake_eq_ok answered
        cases same
        exact .responded (.respond verified signs keyed)
      · exact .failed
  | finish index resp salt =>
      simp only [next] at stepped
      split at stepped
      · cases stepped
      · rename_i begun held
        split at stepped <;> cases stepped
        · exact .abandoned
        · rename_i session finished
          obtain ⟨verified, keyed⟩ := finishHandshake_eq_ok finished
          exact .finished (.finish held verified keyed)
  | forge signer message =>
      cases stepped
      exact .forged

theorem signed_subset_of_next {state target : State p} {action : Action p}
    (stepped : next state action = some target) : state.signed ⊆ target.signed := by
  cases steps_of_next stepped with
  | failed | abandoned | finished => exact List.Subset.refl _
  | began | responded | forged => exact List.subset_cons_self _ _

/-- A step leaves the sessions as they are, or a call has established one more. -/
theorem sessions_of_next {state target : State p} {action : Action p}
    (stepped : next state action = some target) :
    target.sessions = state.sessions ∨
      ∃ established, Establishes state action established ∧
        target.sessions = established :: state.sessions := by
  cases steps_of_next stepped with
  | failed | began | abandoned | forged => exact .inl rfl
  | responded establishes | finished establishes => exact .inr ⟨_, establishes, rfl⟩

/-- What held of every session and holds of one that is established holds after the step. -/
theorem forall_sessions_of_next {P : Established p → Prop} {state target : State p}
    {action : Action p} (stepped : next state action = some target)
    (before : ∀ established ∈ state.sessions, P established)
    (added : ∀ established, Establishes state action established → P established) :
    ∀ established ∈ target.sessions, P established := by
  rcases sessions_of_next stepped with same | ⟨one, establishes, grown⟩
  · rw [same]
    exact before
  · rw [grown]
    exact List.forall_mem_cons.mpr ⟨added one establishes, before⟩

/-- The key an attestation carries has signed its statement. -/
def Backed (log : p.ed.Log) (attestation : Attestation p.ed) : Prop :=
  ∃ signer, attestation.signingPub = p.ed.asBytes (p.ed.verifyingKey signer) ∧
    attestation.sig = p.ed.sign signer
      (Attestation.signedMessage attestation.unitId attestation.role attestation.ephPub) ∧
    (signer, Attestation.signedMessage attestation.unitId attestation.role attestation.ephPub) ∈
      log

/-- An established session is keyed with an attestation that the key in it has signed. -/
structure Sound (log : p.ed.Log) (established : Established p) : Prop where
  keyed : Keyed established.eph established.peer established.resp.suite established.session
  backed : Backed log established.peer

theorem Sound.statement_eq {log : p.ed.Log} {established : Established p}
    (sound : Sound log established) :
    established.statement = Attestation.signedMessage established.peer.unitId
      established.peer.role established.peer.ephPub := by
  rw [Established.statement, sound.keyed.peerId, sound.keyed.peerRole]

theorem backed_of_verify {log : p.ed.Log} {attestation : Attestation p.ed}
    (assembled : Assembles log attestation.sig) (verified : attestation.verify = true) :
    Backed log attestation := by
  obtain ⟨peerKey, parsed, accepted⟩ := Attestation.verify_eq_true.mp verified
  obtain ⟨signer, rfl, made, signed⟩ := assembled.mem_of_verify accepted
  exact ⟨signer, (p.ed.asBytes_of_fromBytes parsed).symm, made, signed⟩

theorem Backed.verify {log : p.ed.Log} {attestation : Attestation p.ed}
    (backed : Backed log attestation) : attestation.verify = true := by
  obtain ⟨signer, embedded, made, -⟩ := backed
  apply Attestation.verify_eq_true.mpr
  refine ⟨p.ed.verifyingKey signer, ?_, ?_⟩
  · rw [embedded, p.ed.fromBytes_asBytes]
  · rw [made]
    exact verify_sign _ _

theorem Sound.mono {log longer : p.ed.Log} {established : Established p}
    (sound : Sound log established) (grown : log ⊆ longer) : Sound longer established := by
  obtain ⟨signer, embedded, made, signed⟩ := sound.backed
  exact ⟨sound.keyed, signer, embedded, made, grown signed⟩

theorem sound_of_establishes {fleet : Fleet p} {state : State p} {action : Action p}
    {established : Established p} (allowed : Allowed fleet state action)
    (establishes : Establishes state action established) : Sound state.signed established := by
  cases establishes with
  | respond verified signs keyed => exact ⟨keyed, backed_of_verify allowed.2 verified⟩
  | finish held verified keyed => exact ⟨keyed, backed_of_verify allowed verified⟩

/-- In every run, every session that was returned is sound. -/
theorem sound_of_reachable {fleet : Fleet p} {state : State p}
    (reached : (handshakes fleet).Reachable state) :
    ∀ established ∈ state.sessions, Sound state.signed established := by
  apply reached.invariant (P := fun state => ∀ established ∈ state.sessions,
    Sound state.signed established)
  · rintro state rfl established member
    cases member
  · rintro state action target sound ⟨allowed, stepped⟩
    have grown := signed_subset_of_next stepped
    refine forall_sessions_of_next (P := Sound target.signed) stepped ?_ ?_
    · intro established member
      exact (sound established member).mono grown
    · intro established establishes
      exact (sound_of_establishes allowed establishes).mono grown

end Network

end Teleop.Sec
