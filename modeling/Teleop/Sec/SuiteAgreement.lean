import Teleop.Sec.Symbolic

/-!
# Agreement on the cipher suite

The suites travel beside the signed statement, and the initiator keeps nothing of its
offer.  Whatever suite a reply names is the suite of the initiator's session: the two ends
agree exactly as long as replies arrive with the suite they were sent with.
-/

namespace Teleop.Sec.Network

open Teleop.Lib SignatureScheme

variable {p : Primitives}

/-- Two ends that have completed on each other's ephemeral keys. -/
structure Mutual (finished answered : Established p) : Prop where
  initiator : finished.side = .initiator
  responder : answered.side = .responder
  responderEph : finished.peer.ephPub = p.x.publicKey answered.eph
  initiatorEph : answered.peer.ephPub = p.x.publicKey finished.eph

/-- Every finished session has a suite that was offered; two ends that have completed on each
other's ephemeral keys hold the same suite, and each opens what the other seals. -/
structure Agrees (state : State p) : Prop where
  offered : ∀ finished ∈ state.sessions, finished.side = .initiator →
    finished.session.suite ∈ finished.init.suites
  same : ∀ finished ∈ state.sessions, ∀ answered ∈ state.sessions, Mutual finished answered →
    finished.session.suite = answered.session.suite ∧
      finished.session.Opens p answered.session ∧ answered.session.Opens p finished.session

/-- The replies that were accepted named an offered suite and the one their responder sent. -/
structure RepliesKept (state : State p) : Prop where
  offered : ∀ finished ∈ state.sessions, finished.side = .initiator →
    finished.resp.suite ∈ finished.init.suites
  same : ∀ finished ∈ state.sessions, ∀ answered ∈ state.sessions, Mutual finished answered →
    finished.resp.suite = answered.resp.suite

/-- The reply that is handed to `finish_handshake` names an offered suite, and the suite that
any responder to this initiator with the ephemeral key of the reply has sent. -/
def KeepsReply (state : State p) : Action p → Prop
  | .finish index resp _ => ∀ begun, state.begun[index]? = some begun →
      resp.suite ∈ begun.init.suites ∧
        ∀ answered ∈ state.sessions, answered.side = .responder →
          resp.attestation.ephPub = p.x.publicKey answered.eph →
          answered.peer.ephPub = p.x.publicKey begun.pending.eph →
          resp.suite = answered.resp.suite
  | .begin _ _ _ | .respond _ _ _ _ _ | .forge _ _ => True

/-- The suite of a session is the one in the reply, so the ends agree exactly if the replies
were kept. -/
theorem agrees_iff_repliesKept {state : State p}
    (sound : ∀ established ∈ state.sessions, Sound state.signed established) :
    Agrees state ↔ RepliesKept state := by
  have suite : ∀ established ∈ state.sessions,
      established.session.suite = established.resp.suite :=
    fun established member => (sound established member).keyed.suite
  constructor
  · intro agrees
    constructor
    · intro finished member initiator
      rw [← suite finished member]
      exact agrees.offered finished member initiator
    · intro finished member answered other mutually
      rw [← suite finished member, ← suite answered other]
      exact (agrees.same finished member answered other mutually).1
  · intro kept
    constructor
    · intro finished member initiator
      rw [suite finished member]
      exact kept.offered finished member initiator
    · intro finished member answered other mutually
      have sameSuite := kept.same finished member answered other mutually
      have ours := (sound finished member).keyed
      have theirs := (sound answered other).keyed
      have sameCrypto : finished.session.crypto.suite = answered.session.crypto.suite := by
        rw [ours.cryptoSuite, theirs.cryptoSuite, sameSuite]
      have sameKey := ours.key_eq theirs mutually.responderEph mutually.initiatorEph
      refine ⟨?_, SecureSession.opens_of_same sameCrypto sameKey,
        SecureSession.opens_of_same sameCrypto.symm sameKey.symm⟩
      rw [suite finished member, suite answered other, sameSuite]

/-- No session that exists has accepted the ephemeral key of a secret drawn afresh. -/
theorem not_mutual_of_fresh {state : State p} {identity : DeviceIdentity p.ed}
    {init : HandshakeInit p} {ourSuites : List CipherSuite} {own : p.x.StaticSecret}
    {salt : Option (Vector UInt8 4)} {finished answered : Established p}
    (fresh : Fresh state (.respond identity init ourSuites (some own) salt))
    (sound : Sound state.signed finished) (drawn : answered.eph = own) :
    ¬ Mutual finished answered := by
  intro mutually
  obtain ⟨signer, -, -, signed⟩ := sound.backed
  rw [mutually.responderEph, drawn] at signed
  exact fresh own rfl signer _ _ signed

/-- A step with a fresh secret and a kept reply keeps the replies kept. -/
theorem RepliesKept.step {state target : State p} {action : Action p}
    (kept : RepliesKept state)
    (sound : ∀ established ∈ state.sessions, Sound state.signed established)
    (fresh : Fresh state action) (keeps : KeepsReply state action)
    (stepped : next state action = some target) : RepliesKept target := by
  rcases sessions_of_next stepped with same | ⟨added, establishes, grown⟩
  · constructor
    · rw [same]
      exact kept.offered
    · rw [same]
      exact kept.same
  · cases establishes with
    | respond verified signs keyed =>
        constructor
        · rw [grown]
          intro finished member initiator
          rcases List.mem_cons.mp member with rfl | member
          · cases initiator
          · exact kept.offered finished member initiator
        · rw [grown]
          intro finished member answered other mutually
          rcases List.mem_cons.mp member with rfl | member
          · cases mutually.initiator
          · rcases List.mem_cons.mp other with rfl | other
            · exact absurd mutually (not_mutual_of_fresh fresh (sound finished member) rfl)
            · exact kept.same finished member answered other mutually
    | finish held verified keyed =>
        obtain ⟨offered, sent⟩ := keeps _ held
        constructor
        · rw [grown]
          intro finished member initiator
          rcases List.mem_cons.mp member with rfl | member
          · exact offered
          · exact kept.offered finished member initiator
        · rw [grown]
          intro finished member answered other mutually
          rcases List.mem_cons.mp other with rfl | other
          · cases mutually.responder
          · rcases List.mem_cons.mp member with rfl | member
            · exact sent answered other mutually.responder mutually.responderEph
                mutually.initiatorEph
            · exact kept.same finished member answered other mutually

theorem repliesKept_of_reachable {fleet : Fleet p} {state : State p}
    (reached : ((handshakes fleet).restrict fun state action =>
      Fresh state action ∧ KeepsReply state action).Reachable state) : RepliesKept state := by
  apply reached.invariant_of_reachable (P := RepliesKept)
  · rintro state rfl
    constructor
    · intro finished member
      cases member
    · intro finished member
      cases member
  · rintro state action target before kept ⟨⟨fresh, keeps⟩, -, stepped⟩
    exact kept.step (sound_of_reachable before.of_restrict) fresh keeps stepped

/-- A call that returns a session for a reply that was not kept leaves ends that disagree. -/
theorem keepsReply_of_agrees {fleet : Fleet p} {state target : State p} {action : Action p}
    (reached : (handshakes fleet).Reachable target)
    (stepped : next state action = some target)
    (returned : target.sessions ≠ state.sessions) (agrees : Agrees target) :
    KeepsReply state action := by
  have kept := (agrees_iff_repliesKept (sound_of_reachable reached)).mp agrees
  rcases sessions_of_next stepped with same | ⟨added, establishes, grown⟩
  · exact absurd same returned
  · cases establishes with
    | respond verified signs keyed => trivial
    | finish held verified keyed =>
        have here := kept.offered
        rw [grown] at here
        intro begun other
        cases held.symm.trans other
        refine ⟨here _ List.mem_cons_self rfl, ?_⟩
        intro answered member responder responderEph initiatorEph
        have pair := kept.same
        rw [grown] at pair
        exact pair _ List.mem_cons_self answered (List.mem_cons_of_mem _ member)
          ⟨rfl, responder, responderEph, initiatorEph⟩

/-- The two ends agree in every run in which secrets are fresh and replies are kept, and no
longer after a step that accepts a reply that was not kept. -/
theorem agrees_iff_keepsReply (fleet : Fleet p) :
    (∀ state, ((handshakes fleet).restrict fun state action =>
      Fresh state action ∧ KeepsReply state action).Reachable state → Agrees state) ∧
    (∀ state action target, (handshakes fleet).Reachable state →
      (handshakes fleet).step state action target → target.sessions ≠ state.sessions →
      Agrees target → KeepsReply state action) := by
  constructor
  · intro state reached
    exact (agrees_iff_repliesKept (sound_of_reachable reached.of_restrict)).mpr
      (repliesKept_of_reachable reached)
  · intro state action target reached step returned agrees
    exact keepsReply_of_agrees (reached.step step) step.2 returned agrees

/-- The reply of the exchange is kept when it arrives as it was sent. -/
theorem keepsReply_exchange (exchange : Exchange p) :
    KeepsReply exchange.afterRespond (exchange.finishes exchange.chosen) := by
  rintro begun held
  cases held
  refine ⟨(CipherSuite.mem_of_negotiate exchange.negotiated).2, ?_⟩
  intro answered member _ _ _
  cases List.mem_singleton.mp member
  rfl

/-- In the undisturbed exchange the two ends agree. -/
theorem agrees_exchange : Agrees (Symbolic.exchange.afterFinish .aes256Gcm) := by
  apply (agrees_iff_keepsReply Symbolic.twoUnits).1
  exact Symbolic.exchange.reachable .aes256Gcm Symbolic.initiator_honest
    Symbolic.responder_honest ⟨Symbolic.exchange.fresh_begins, trivial⟩
    ⟨Symbolic.exchange.fresh_responds Symbolic.responderEph_fresh, trivial⟩
    ⟨trivial, keepsReply_exchange Symbolic.exchange⟩

/-- A reply altered to a suite that was never offered is accepted, and the two ends hold
different suites. -/
theorem altered_reply_accepted :
    ∃ state, ((handshakes Symbolic.twoUnits).restrict Fresh).Reachable state ∧
      ∃ finished ∈ state.sessions, ∃ answered ∈ state.sessions, Mutual finished answered ∧
        finished.session.suite ∉ finished.init.suites ∧
        finished.session.suite ≠ answered.session.suite := by
  refine ⟨Symbolic.exchange.afterFinish .chaCha20Poly1305, ?_,
    Symbolic.exchange.finished .chaCha20Poly1305, List.mem_cons_self,
    Symbolic.exchange.answered, List.mem_cons_of_mem _ List.mem_cons_self,
    ⟨rfl, rfl, rfl, rfl⟩, ?_, ?_⟩
  · exact Symbolic.exchange.reachable .chaCha20Poly1305 Symbolic.initiator_honest
      Symbolic.responder_honest Symbolic.exchange.fresh_begins
      (Symbolic.exchange.fresh_responds Symbolic.responderEph_fresh) trivial
  · decide
  · decide

end Teleop.Sec.Network
