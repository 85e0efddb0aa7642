import Teleop.Lib.TransitionSystem
import Teleop.Link.MuxRoundTrip
import Teleop.Sec.PathAgreement

/-!
# Origin of decrypted traffic

The two ends of a session send sealed datagrams, and an adversary decides what arrives and
where.  Both directions share one key and one pair of AAD domains, so an envelope comes from
one of the two ends in the domain it is opened in, and the receiver cannot tell which.
-/

namespace Teleop.Sec

open Teleop.Core Teleop.Lib Teleop.Link Teleop.Ring

def Network.Side.other : Network.Side → Network.Side
  | .initiator => .responder
  | .responder => .initiator

namespace Origin

open Network (Side)

/-- A successful seal: who sealed what, in which AAD domain. -/
structure Sealed where
  side : Side
  aad : List UInt8
  plaintext : List UInt8
  envelope : List UInt8

/-- A block that was pushed, with the envelope it was opened from. -/
structure Pushed (N : Nat) where
  side : Side
  aad : List UInt8
  envelope : List UInt8
  block : SecureBlock N

/-- Both ends of a session.  What was sealed and what was pushed is recorded beside them. -/
structure State (N : Nat) where
  mux : Side → SecureMux
  ring : Side → SpscRing (SecureBlock N)
  seals : List Sealed
  pushes : List (Pushed N)

inductive Action where
  | control (side : Side) (cmd : Command)
  | telemetry (side : Side) (pkt : TelemetryPacket UInt32)
  | raw (side : Side) (plaintext : List UInt8)
  | receive (side : Side) (datagram : Option (List UInt8 × SocketAddr))
  | event (side : Side) (envelope : List UInt8) (inner : UInt8)
  | pop (side : Side)

variable (p : Primitives) (archive : Archive Command 56)
  (packets : Archive (TelemetryPacket UInt32) 56) {N : Nat}

/-- What one end seals for the network.  The datagram itself is the adversary's to deliver. -/
def State.send (state : State N) (side : Side) (plaintext aad : List UInt8)
    (sent : SecureMux → Except SendError (List UInt8) × SecureMux) : State N :=
  { state with
    mux := Function.update state.mux side (sent (state.mux side)).2
    seals := match ((state.mux side).session.sealPlaintext p plaintext aad).1 with
      | .ok envelope => ⟨side, aad, plaintext, envelope⟩ :: state.seals
      | .error _ => state.seals }

/-- One end's ring after a receive call, with the blocks that are new in it. -/
def State.arrive (state : State N) (side : Side) (aad envelope : List UInt8)
    (ring : SpscRing (SecureBlock N)) : State N :=
  { state with
    ring := Function.update state.ring side ring
    pushes := (ring.items.drop (state.ring side).items.length).map
      (⟨side, aad, envelope, ·⟩) ++ state.pushes }

/-- The envelope and the inner tag of a datagram, if it carries any. -/
def arrived : Option (List UInt8 × SocketAddr) → Option (List UInt8 × UInt8)
  | none => none
  | some (bytes, source) =>
      match recvFrame archive packets.access bytes source with
      | .ok (.secure envelope _ inner) => some (envelope, inner)
      | _ => none

def next (state : State N) : Action → State N
  | .control side cmd =>
      state.send p side (archive.serialize cmd) AAD_CONTROL (·.sendSecureControl p archive cmd)
  | .telemetry side pkt =>
      state.send p side (packets.serialize pkt) AAD_TELEMETRY (·.sendSecureTelemetry p packets pkt)
  | .raw side plaintext =>
      state.send p side plaintext AAD_CONTROL (·.sendSecureRaw p plaintext)
  | .receive side datagram =>
      let (envelope, inner) := (arrived archive packets datagram).getD ([], 0)
      state.arrive side (aadFor inner) envelope
        ((state.mux side).recvDecrypt p archive packets.access datagram (state.ring side)).2
  | .event side envelope inner =>
      state.arrive side (aadFor inner) envelope
        (decryptEventIntoRing p.aead (state.mux side).session.crypto envelope inner
          (state.ring side)).2
  | .pop side =>
      match (state.ring side).pop with
      | none => state
      | some (_, ring) => { state with ring := Function.update state.ring side ring }

/-- The AEAD is ideal: an envelope opens only if it was sealed in that domain. -/
def Genuine (state : State N) (side : Side) (envelope aad : List UInt8) : Prop :=
  ((state.mux side).session.crypto.plaintextOf p.aead envelope aad).isSome →
    ∃ entry ∈ state.seals, entry.envelope = envelope ∧ entry.aad = aad

/-- The adversary delivers anything, anywhere, that it can have. -/
def Allowed (state : State N) : Action → Prop
  | .receive side datagram => ∀ envelope inner,
      arrived archive packets datagram = some (envelope, inner) →
        Genuine p state side envelope (aadFor inner)
  | .event side envelope inner => Genuine p state side envelope (aadFor inner)
  | .control _ _ | .telemetry _ _ | .raw _ _ | .pop _ => True

/-- Both ends have derived one key; nothing is sealed and nothing has arrived. -/
structure Start (state : State N) : Prop where
  derived : ∃ suite kdf, ∀ side, ∃ salt,
    CryptoBox.fromKdf suite kdf (some salt) = .ok (state.mux side).session.crypto
  empty : ∀ side, (state.ring side).items = []
  unsealed : state.seals = []
  unpushed : state.pushes = []

def channel (N : Nat) : TransitionSystem (State N) Action where
  initial := Start
  step state action target := Allowed p archive packets state action ∧
    next p archive packets state action = target

/-- A pushed block comes from a seal of some end in the domain it was opened in. -/
def From (seals : List Sealed) (push : Pushed N) (side : Side) : Prop :=
  ∃ entry ∈ seals, entry.side = side ∧ entry.aad = push.aad ∧
    entry.envelope = push.envelope ∧ push.block.Holds entry.plaintext

/-- One key at both ends, every recorded seal opens to its plaintext, and every block that
was pushed was sealed by an end of the session. -/
structure Invariant (state : State N) : Prop where
  sameKey : ∀ side other,
    (state.mux side).session.crypto.SameKey (state.mux other).session.crypto
  opens : ∀ entry ∈ state.seals, ∀ side,
    (state.mux side).session.crypto.plaintextOf p.aead entry.envelope entry.aad =
      some entry.plaintext
  origin : ∀ push ∈ state.pushes, ∃ side, From state.seals push side
  recorded : ∀ side, ∀ block ∈ (state.ring side).items,
    ∃ push ∈ state.pushes, push.side = side ∧ push.block = block

variable {p archive packets}

/-- Sealing moves the counter and nothing else. -/
theorem sealToVec_sameKey (aead : Aead) (box : CryptoBox) (plaintext aad : List UInt8) :
    box.SameKey (box.sealToVec aead plaintext aad).2 := by
  have moved : (box.sealToVec aead plaintext aad).2 =
      (box.sealed aead (.toVec plaintext aad)).2 := rfl
  rcases CryptoBox.draws aead box (.toVec plaintext aad) with idle | ⟨drawn, -⟩
  · rw [moved, idle]
    exact ⟨rfl, rfl⟩
  · rw [moved, drawn]
    exact ⟨rfl, rfl⟩

theorem crypto_sendSealed (mux : SecureMux) (plaintext aad : List UInt8) (inner : UInt8) :
    (mux.sendSealed p plaintext aad inner).2.session.crypto =
      (mux.session.crypto.sealToVec p.aead plaintext aad).2 := by
  unfold SecureMux.sendSealed SecureSession.sealPlaintext
  cases mux.session.crypto.sealToVec p.aead plaintext aad with
  | mk result next =>
      cases result with
      | error failure => rfl
      | ok envelope => cases written : writeSecureFrame envelope inner <;> simp [written]

variable {sent : SecureMux → Except SendError (List UInt8) × SecureMux}

/-- Every end keeps the key it had. -/
theorem sameKey_send (state : State N) (sender : Side) {plaintext aad : List UInt8}
    (seals : ∀ mux, (sent mux).2.session.crypto =
      (mux.session.crypto.sealToVec p.aead plaintext aad).2) (side : Side) :
    (state.mux side).session.crypto.SameKey
      ((state.send p sender plaintext aad sent).mux side).session.crypto := by
  by_cases same : side = sender
  · subst same
    simp only [State.send, Function.update_self, seals]
    exact sealToVec_sameKey p.aead _ plaintext aad
  · simp only [State.send, Function.update_of_ne same]
    exact ⟨rfl, rfl⟩

theorem From.mono {seals more : List Sealed} (grown : seals ⊆ more) {push : Pushed N}
    {side : Side} (origin : From seals push side) : From more push side := by
  obtain ⟨entry, member, rest⟩ := origin
  exact ⟨entry, grown member, rest⟩

variable (sent) in
/-- Sealing adds at most one seal, which its end opens to the plaintext. -/
theorem seals_send (state : State N) (sender : Side) (plaintext aad : List UInt8) :
    (state.send p sender plaintext aad sent).seals = state.seals ∨
      ∃ envelope, (state.send p sender plaintext aad sent).seals =
          ⟨sender, aad, plaintext, envelope⟩ :: state.seals ∧
        ((state.mux sender).session.crypto.sealToVec p.aead plaintext aad).1 = .ok envelope := by
  have result : ((state.mux sender).session.sealPlaintext p plaintext aad).1 =
      ((state.mux sender).session.crypto.sealToVec p.aead plaintext aad).1 := rfl
  cases ran : ((state.mux sender).session.crypto.sealToVec p.aead plaintext aad).1 with
  | error failure =>
      left
      simp [State.send, result, ran]
  | ok envelope =>
      right
      exact ⟨envelope, by simp [State.send, result, ran], rfl⟩

theorem invariant_send {state : State N} (invariant : Invariant p state) (sender : Side)
    {plaintext aad : List UInt8} (seals : ∀ mux, (sent mux).2.session.crypto =
      (mux.session.crypto.sealToVec p.aead plaintext aad).2) :
    Invariant p (state.send p sender plaintext aad sent) := by
  have kept := sameKey_send state sender seals
  have opened : ∀ {entry : Sealed}, (∀ side, (state.mux side).session.crypto.plaintextOf p.aead
      entry.envelope entry.aad = some entry.plaintext) → ∀ side,
      ((state.send p sender plaintext aad sent).mux side).session.crypto.plaintextOf p.aead
        entry.envelope entry.aad = some entry.plaintext := by
    intro entry before side
    rw [(kept side).plaintextOf_eq]
    exact before side
  have sameKey : ∀ side other,
      ((state.send p sender plaintext aad sent).mux side).session.crypto.SameKey
        ((state.send p sender plaintext aad sent).mux other).session.crypto := by
    intro side other
    exact ((kept side).symm.trans (invariant.sameKey side other)).trans (kept other)
  rcases seals_send (p := p) sent state sender plaintext aad with same | ⟨envelope, grown, ran⟩
  · refine ⟨sameKey, ?_, ?_, invariant.recorded⟩
    · rw [same]
      intro entry member
      exact opened (invariant.opens entry member)
    · rw [same]
      exact invariant.origin
  · refine ⟨sameKey, ?_, ?_, invariant.recorded⟩
    · rw [grown]
      intro entry member
      apply opened
      rcases List.mem_cons.mp member with rfl | member
      · intro side
        exact plaintextOf_of_sealToVec (invariant.sameKey sender side) ran
      · exact invariant.opens entry member
    · rw [grown]
      intro push member
      obtain ⟨side, origin⟩ := invariant.origin push member
      exact ⟨side, origin.mono (List.subset_cons_self _ _)⟩

/-- A receiving call leaves the ring alone or appends one block, whose envelope it opened. -/
theorem items_of_decryptIntoRing (exact : p.aead.Exact) (box : CryptoBox)
    (envelope aad : List UInt8) (ring : SpscRing (SecureBlock N)) :
    (decryptIntoRing p.aead box envelope aad ring).2 = ring ∨ ∃ plaintext block,
      box.plaintextOf p.aead envelope aad = some plaintext ∧ block.Holds plaintext ∧
        (decryptIntoRing p.aead box envelope aad ring).2.items = ring.items ++ [block] := by
  rcases decryptIntoRing_cases exact box envelope aad ring with
    ⟨-, ran⟩ | ⟨-, ran⟩ | ⟨-, ran⟩ | ⟨plaintext, block, pushed, -, opened, holds, ran, items⟩
  · exact .inl (congrArg Prod.snd ran)
  · exact .inl (congrArg Prod.snd ran)
  · exact .inl (congrArg Prod.snd ran)
  · refine .inr ⟨plaintext, block, opened, holds, ?_⟩
    rw [ran]
    exact items

theorem invariant_idle {state : State N} (invariant : Invariant p state) (side : Side)
    (aad envelope : List UInt8) :
    Invariant p (state.arrive side aad envelope (state.ring side)) := by
  simp only [State.arrive, Function.update_eq_self, List.drop_length, List.map_nil,
    List.nil_append]
  exact invariant

theorem invariant_arrive (exact : p.aead.Exact) {state : State N}
    (invariant : Invariant p state) {side : Side} {envelope aad : List UInt8}
    (genuine : Genuine p state side envelope aad) :
    Invariant p (state.arrive side aad envelope
      (decryptIntoRing p.aead (state.mux side).session.crypto envelope aad
        (state.ring side)).2) := by
  rcases items_of_decryptIntoRing exact (state.mux side).session.crypto envelope aad
    (state.ring side) with same | ⟨plaintext, block, opened, holds, items⟩
  · rw [same]
    exact invariant_idle invariant side aad envelope
  · obtain ⟨entry, member, rfl, rfl⟩ := genuine (by simp [opened])
    have same : plaintext = entry.plaintext := by
      have again := invariant.opens entry member side
      rw [opened] at again
      exact Option.some.inj again
    refine ⟨invariant.sameKey, invariant.opens, ?_, ?_⟩
    · simp only [State.arrive, items, List.drop_left, List.map_cons, List.map_nil,
        List.singleton_append]
      intro push pushed
      rcases List.mem_cons.mp pushed with rfl | pushed
      · exact ⟨entry.side, entry, member, rfl, rfl, rfl, same ▸ holds⟩
      · exact invariant.origin push pushed
    · intro other present inside
      simp only [State.arrive, items, List.drop_left, List.map_cons, List.map_nil,
        List.singleton_append] at inside ⊢
      by_cases here : other = side
      · subst here
        rw [Function.update_self, items, List.mem_append, List.mem_singleton] at inside
        rcases inside with inside | rfl
        · obtain ⟨push, pushed, rest⟩ := invariant.recorded other present inside
          exact ⟨push, List.mem_cons_of_mem _ pushed, rest⟩
        · exact ⟨_, List.mem_cons_self, rfl, rfl⟩
      · rw [Function.update_of_ne here] at inside
        obtain ⟨push, pushed, rest⟩ := invariant.recorded other present inside
        exact ⟨push, List.mem_cons_of_mem _ pushed, rest⟩

theorem invariant_pop {state : State N} (invariant : Invariant p state) (side : Side) :
    Invariant p (next p archive packets state (.pop side)) := by
  simp only [next]
  split
  · exact invariant
  · rename_i value ring popped
    refine ⟨invariant.sameKey, invariant.opens, invariant.origin, ?_⟩
    intro other block inside
    dsimp only at inside ⊢
    by_cases here : other = side
    · subst here
      rw [Function.update_self] at inside
      apply invariant.recorded
      rw [SpscRing.items_of_pop popped]
      exact List.mem_cons_of_mem _ inside
    · rw [Function.update_of_ne here] at inside
      exact invariant.recorded other block inside

/-- A receive call does what opening the envelope of the datagram does, if it carries one. -/
theorem recvDecrypt_ring (p : Primitives) (archive : Archive Command 56)
    (packets : Archive (TelemetryPacket UInt32) 56) (mux : SecureMux)
    (datagram : Option (List UInt8 × SocketAddr)) (ring : SpscRing (SecureBlock N)) :
    (arrived archive packets datagram = none ∧
        (mux.recvDecrypt p archive packets.access datagram ring).2 = ring) ∨
      ∃ envelope inner, arrived archive packets datagram = some (envelope, inner) ∧
        (mux.recvDecrypt p archive packets.access datagram ring).2 =
          (decryptIntoRing p.aead mux.session.crypto envelope (aadFor inner) ring).2 := by
  cases datagram with
  | none => exact .inl ⟨rfl, rfl⟩
  | some datagram =>
      obtain ⟨bytes, source⟩ := datagram
      cases received : recvFrame archive packets.access bytes source with
      | error failure => exact .inl (by simp [arrived, SecureMux.recvDecrypt, received])
      | ok inbound =>
          cases inbound with
          | secure envelope sender inner =>
              refine .inr ⟨envelope, inner, by simp [arrived, received], ?_⟩
              simp only [SecureMux.recvDecrypt, received]
              cases decryptIntoRing p.aead mux.session.crypto envelope (aadFor inner) ring with
              | mk result next => cases result <;> rfl
          | control | telemetry | ice | mesh | ack =>
              exact .inl (by simp [arrived, SecureMux.recvDecrypt, received])

theorem invariant_step (exact : p.aead.Exact) {state target : State N} {action : Action}
    (invariant : Invariant p state)
    (stepped : (channel p archive packets N).step state action target) : Invariant p target := by
  obtain ⟨allowed, rfl⟩ := stepped
  cases action with
  | control side cmd =>
      exact invariant_send invariant side fun mux => crypto_sendSealed mux _ _ _
  | telemetry side pkt =>
      exact invariant_send invariant side fun mux => crypto_sendSealed mux _ _ _
  | raw side plaintext =>
      exact invariant_send invariant side fun mux => crypto_sendSealed mux _ _ _
  | receive side datagram =>
      simp only [next]
      rcases recvDecrypt_ring p archive packets (state.mux side) datagram (state.ring side) with
        ⟨empty, same⟩ | ⟨envelope, inner, carried, same⟩
      · rw [same]
        exact invariant_idle invariant side _ _
      · rw [same, carried]
        exact invariant_arrive exact invariant (allowed envelope inner carried)
  | event side envelope inner => exact invariant_arrive exact invariant allowed
  | pop side => exact invariant_pop invariant side

theorem invariant_start {state : State N} (start : Start state) : Invariant p state := by
  obtain ⟨suite, kdf, derived⟩ := start.derived
  refine ⟨?_, ?_, ?_, ?_⟩
  · intro side other
    obtain ⟨salt, here⟩ := derived side
    obtain ⟨mark, there⟩ := derived other
    obtain ⟨suites, keys⟩ := CryptoBox.fromKdf_eq_ok here
    obtain ⟨suites', keys'⟩ := CryptoBox.fromKdf_eq_ok there
    exact ⟨suites'.trans suites.symm, keys'.trans keys.symm⟩
  · simp [start.unsealed]
  · simp [start.unpushed]
  · simp [start.empty]

theorem invariant_of_reachable (exact : p.aead.Exact) {state : State N}
    (reached : (channel p archive packets N).Reachable state) : Invariant p state :=
  reached.invariant (fun _ start => invariant_start start)
    fun _ _ _ invariant stepped => invariant_step exact invariant stepped

/-- Every block in a ring was pushed by its end, and what was pushed was sealed in the same
domain by the peer, or the receiver's own envelope came back to it. -/
theorem sealed_by_peer_or_reflected (exact : p.aead.Exact) {state : State N}
    (reached : (channel p archive packets N).Reachable state) :
    (∀ push ∈ state.pushes,
      From state.seals push push.side.other ∨ From state.seals push push.side) ∧
    (∀ push ∈ state.pushes, (∀ entry ∈ state.seals, entry.side = push.side →
      entry.aad = push.aad → entry.envelope ≠ push.envelope) →
        From state.seals push push.side.other) ∧
    ∀ side, ∀ block ∈ (state.ring side).items,
      ∃ push ∈ state.pushes, push.side = side ∧ push.block = block := by
  have invariant := invariant_of_reachable exact reached
  have either : ∀ push ∈ state.pushes,
      From state.seals push push.side.other ∨ From state.seals push push.side := by
    intro push pushed
    obtain ⟨side, origin⟩ := invariant.origin push pushed
    cases side <;> cases own : push.side
    · exact .inr origin
    · exact .inl origin
    · exact .inl origin
    · exact .inr origin
  refine ⟨either, ?_, invariant.recorded⟩
  intro push pushed foreign
  rcases either push pushed with peer | ⟨entry, member, own, domain, same, -⟩
  · exact peer
  · exact absurd same (foreign entry member own domain)

/-- Two ends with one key, different salts and empty rings. -/
def twoEnds : State 32 where
  mux
    | .initiator => ⟨⟨2, .admin, Symbolic.markedBox, .aes256Gcm⟩⟩
    | .responder =>
        ⟨⟨1, .operator, { Symbolic.markedBox with salt := Vector.replicate 4 8 }, .aes256Gcm⟩⟩
  ring _ := ⟨8, [], Nat.zero_le 8⟩
  seals := []
  pushes := []

/-- What the initiator seals first. -/
def firstEnvelope : List UInt8 :=
  ((Symbolic.markedBox.sealToVec Symbolic.markedAead [1, 2, 3] AAD_CONTROL).1.toOption).getD []

/-- The envelope reaches the peer and is then handed back to its own sender. -/
def reflection : List Action :=
  [.raw .initiator [1, 2, 3], .event .responder firstEnvelope SecureInner.CONTROL,
    .event .initiator firstEnvelope SecureInner.CONTROL]

def reflected : State 32 :=
  reflection.foldl (next Symbolic.markedPrimitives .command .telemetry) twoEnds

theorem start_twoEnds : Start twoEnds where
  derived := by
    refine ⟨.aes256Gcm, Vector.replicate 32 1, ?_⟩
    intro side
    cases side <;> exact ⟨_, rfl⟩
  empty := fun _ => rfl
  unsealed := rfl
  unpushed := rfl

theorem firstEnvelope_sealed :
    (Symbolic.markedBox.sealToVec Symbolic.markedAead [1, 2, 3] AAD_CONTROL).1 =
      .ok firstEnvelope := by
  obtain ⟨envelope, ran⟩ := sealToVec_of_encrypts (Symbolic.markedAead_encrypts 20)
    Symbolic.markedBox [1, 2, 3] AAD_CONTROL (by decide) (by decide)
  simp [firstEnvelope, ran, Except.toOption]

/-- The seals once the initiator has sealed its first plaintext. -/
theorem seals_first : (twoEnds.send Symbolic.markedPrimitives .initiator [1, 2, 3] AAD_CONTROL
    (·.sendSecureRaw Symbolic.markedPrimitives [1, 2, 3])).seals =
      [⟨.initiator, AAD_CONTROL, [1, 2, 3], firstEnvelope⟩] := by
  have result : ((twoEnds.mux .initiator).session.sealPlaintext Symbolic.markedPrimitives
      [1, 2, 3] AAD_CONTROL).1 = .ok firstEnvelope := firstEnvelope_sealed
  simp only [State.send, result]
  rfl

theorem reachable_reflected : (channel Symbolic.markedPrimitives .command .telemetry
    32).Reachable reflected := by
  have genuine : ∀ {state : State 32} {side : Side},
      state.seals = [⟨.initiator, AAD_CONTROL, [1, 2, 3], firstEnvelope⟩] →
        Genuine Symbolic.markedPrimitives state side firstEnvelope
          (aadFor SecureInner.CONTROL) := by
    intro state side sealed opened
    refine ⟨⟨.initiator, AAD_CONTROL, [1, 2, 3], firstEnvelope⟩, ?_, rfl, by decide⟩
    rw [sealed]
    exact List.mem_singleton_self _
  refine ⟨twoEnds, reflection, start_twoEnds, ?_⟩
  exact .cons ⟨trivial, rfl⟩ (.cons ⟨genuine seals_first, rfl⟩
    (.cons ⟨genuine seals_first, rfl⟩ (.nil _)))

/-- What the initiator alone has sealed is pushed to its own ring. -/
theorem own_envelope_accepted : ¬ ∀ state, (channel Symbolic.markedPrimitives .command .telemetry
    32).Reachable state →
      ∀ push ∈ state.pushes, From state.seals push push.side.other := by
  intro peers
  have sides : reflected.pushes.map Pushed.side = [.initiator, .responder] := by
    decide +kernel
  obtain ⟨push, pushed, own⟩ := List.mem_map.mp
    (show Side.initiator ∈ reflected.pushes.map Pushed.side by rw [sides]; decide)
  obtain ⟨entry, member, sealer, -⟩ := peers reflected reachable_reflected push pushed
  have only : reflected.seals = [⟨.initiator, AAD_CONTROL, [1, 2, 3], firstEnvelope⟩] :=
    seals_first
  rw [only, List.mem_singleton] at member
  rw [own, member] at sealer
  cases sealer

theorem sealed_by_peer_or_reflected_twoEnds : reflected.pushes.length = 2 ∧
    ∀ push ∈ reflected.pushes,
      From reflected.seals push push.side.other ∨ From reflected.seals push push.side :=
  ⟨by decide +kernel,
    (sealed_by_peer_or_reflected Symbolic.markedAead_exact reachable_reflected).1⟩

end Origin

end Teleop.Sec
