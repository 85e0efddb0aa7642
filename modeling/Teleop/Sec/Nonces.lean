import Teleop.Lib.Numbering
import Teleop.Sec.Symbolic

/-!
# Nonces of the two ends of a session

Both ends of a session seal under one key.  A nonce is the counter of the box that draws
it followed by the salt of that box, so the two salts alone keep the ends apart.
-/

namespace Teleop.Sec

open Teleop.Lib Teleop.Lib.Numbering

namespace CryptoBox

/-- A call that seals, into a buffer of the caller or into a fresh vector. -/
inductive SealCall where
  | into (plaintext aad out : List UInt8)
  | toVec (plaintext aad : List UInt8)

/-- The envelope of one call, if it produced one, and the box after the call. -/
def sealed (aead : Aead) (box : CryptoBox) : SealCall → Option (List UInt8) × CryptoBox
  | .into plaintext aad out =>
      let (result, next) := box.sealInto aead plaintext aad out
      (result.toOption.map fun (n, written) => written.take n, next)
  | .toVec plaintext aad =>
      let (result, next) := box.sealToVec aead plaintext aad
      (result.toOption, next)

/-- The first bytes of an envelope. -/
def nonceOf (envelope : List UInt8) : List UInt8 := envelope.take NONCE_LEN

def nonce (counter : UInt64) (salt : Vector UInt8 4) : List UInt8 :=
  leBytes 8 counter.toNat ++ salt.toList

/-- The box after one nonce has been drawn. -/
def advanced (box : CryptoBox) : CryptoBox := { box with ctr := box.ctr + 1 }

/-- A nonce determines the counter it was drawn at and the salt. -/
theorem nonce_injective {counter other : UInt64} {salt mark : Vector UInt8 4}
    (same : nonce counter salt = nonce other mark) : counter = other ∧ salt = mark := by
  unfold nonce at same
  obtain ⟨counters, salts⟩ := List.append_inj same (by simp)
  refine ⟨?_, Vector.toList_inj.mp salts⟩
  have values := congrArg ofLe counters
  simp only [ofLe_leBytes] at values
  apply UInt64.toNat_inj.mp
  rwa [Nat.mod_eq_of_lt (by simpa using counter.toNat_lt),
    Nat.mod_eq_of_lt (by simpa using other.toNat_lt)] at values

variable {aead : Aead}

/-- A call on a buffer that is too small leaves the box alone; any other draws one nonce,
which its envelope begins with. -/
theorem sealInto_cases (aead : Aead) (box : CryptoBox) (plaintext aad out : List UInt8) :
    box.sealInto aead plaintext aad out = (.error .bufferTooSmall, box) ∨
      ((box.sealInto aead plaintext aad out).2 = box.advanced ∧
        ∀ n written, (box.sealInto aead plaintext aad out).1 = .ok (n, written) →
          nonceOf (written.take n) = nonce box.ctr box.salt) := by
  unfold sealInto
  dsimp only
  split
  · exact .inl rfl
  · right
    cases encrypted : aead.encrypt box.suite box.key box.nextNonce.1 aad plaintext with
    | none =>
        refine ⟨rfl, ?_⟩
        intro n written returned
        cases returned
    | some pair =>
        obtain ⟨ciphertext, tag⟩ := pair
        refine ⟨rfl, ?_⟩
        intro n written returned
        simp only [Except.ok.injEq, Prod.mk.injEq] at returned
        obtain ⟨rfl, rfl⟩ := returned
        have begins : NONCE_LEN ≤ NONCE_LEN + plaintext.length + TAG_LEN := by omega
        unfold nonceOf
        rw [List.take_take, Nat.min_eq_left begins, List.append_assoc, List.append_assoc]
        exact List.take_left' (length_nextNonce box)

theorem sealed_toVec (box : CryptoBox) (plaintext aad : List UInt8) :
    box.sealed aead (.toVec plaintext aad) = box.sealed aead (.into plaintext aad
      (List.replicate (NONCE_LEN + plaintext.length + TAG_LEN) 0)) := by
  unfold sealed sealToVec
  dsimp only
  split <;> rename_i ran <;> rw [ran] <;> rfl

/-- What one call does: nothing, or it draws one nonce. -/
def Draws (aead : Aead) (box : CryptoBox) (call : SealCall) : Prop :=
  box.sealed aead call = (none, box) ∨
    ((box.sealed aead call).2 = box.advanced ∧
      ∀ envelope, (box.sealed aead call).1 = some envelope →
        nonceOf envelope = nonce box.ctr box.salt)

theorem draws_into (aead : Aead) (box : CryptoBox) (plaintext aad out : List UInt8) :
    box.Draws aead (.into plaintext aad out) := by
  unfold Draws sealed
  dsimp only
  rcases sealInto_cases aead box plaintext aad out with refused | ⟨moved, begins⟩
  · rw [refused]
    exact .inl rfl
  · refine .inr ⟨moved, ?_⟩
    intro envelope returned
    cases result : (box.sealInto aead plaintext aad out).1 with
    | error failure => simp [result, Except.toOption] at returned
    | ok pair =>
        simp only [result, Except.toOption, Option.map_some, Option.some.injEq] at returned
        subst returned
        exact begins _ _ result

theorem draws (aead : Aead) (box : CryptoBox) (call : SealCall) : box.Draws aead call := by
  cases call with
  | into plaintext aad out => exact draws_into aead box plaintext aad out
  | toVec plaintext aad =>
      unfold Draws
      rw [sealed_toVec]
      exact draws_into aead box plaintext aad _

end CryptoBox

/-- Every plaintext of at most `bound` bytes is encrypted, under any associated data that
short. -/
def Aead.Encrypts (aead : Aead) (bound : Nat) : Prop :=
  ∀ suite key nonce aad plaintext, plaintext.length ≤ bound → aad.length ≤ bound →
    (aead.encrypt suite key nonce aad plaintext).isSome

namespace Session

open CryptoBox Network

variable {aead : Aead}

/-- The envelopes the two ends seal, in the order of their calls. -/
def envelopes (aead : Aead) : (Side → CryptoBox) → List (Side × SealCall) → List (List UInt8)
  | _, [] => []
  | boxes, (side, call) :: rest =>
      let (envelope, next) := (boxes side).sealed aead call
      envelope.toList ++ envelopes aead (Function.update boxes side next) rest

/-- The calls of one end. -/
def callsOf (side : Side) (calls : List (Side × SealCall)) : Nat :=
  (calls.map Prod.fst).count side

/-- The nonces of a run are among the labels the two ends number their draws with: a call
takes the next label, gives no envelope for it, or takes none. -/
theorem envelopes_sublist (aead : Aead) (boxes : Side → CryptoBox) (drawn : Side → Nat)
    (counted : ∀ side, (boxes side).ctr = UInt64.ofNat (drawn side))
    (calls : List (Side × SealCall)) :
    ∃ run, run.Sublist (calls.map Prod.fst) ∧
      ((envelopes aead boxes calls).map nonceOf).Sublist
        ((labels (fun side => (boxes side).salt) drawn run).map fun label =>
          nonce (UInt64.ofNat label.1) label.2) := by
  induction calls generalizing boxes drawn with
  | nil => exact ⟨[], List.Sublist.refl _, List.Sublist.refl _⟩
  | cons call rest inductionHypothesis =>
      obtain ⟨side, call⟩ := call
      simp only [envelopes, List.map_cons, List.map_append]
      rcases draws aead (boxes side) call with idle | ⟨moved, begins⟩
      · obtain ⟨run, among, nonces⟩ := inductionHypothesis boxes drawn counted
        refine ⟨run, among.cons _, ?_⟩
        simpa [idle] using nonces
      · obtain ⟨run, among, nonces⟩ := inductionHypothesis
          (Function.update boxes side (boxes side).advanced)
          (Function.update drawn side (drawn side + 1)) (by
            intro other
            by_cases same : other = side
            · subst same
              simp [advanced, counted]
            · simp [Function.update_of_ne same, counted])
        have salts : (fun other => (Function.update boxes side (boxes side).advanced other).salt) =
            fun other => (boxes other).salt := by
          funext other
          by_cases same : other = side
          · subst same
            simp [advanced]
          · simp [Function.update_of_ne same]
        rw [salts] at nonces
        refine ⟨side :: run, among.cons_cons _, ?_⟩
        rw [moved]
        simp only [labels, List.map_cons]
        cases returned : ((boxes side).sealed aead call).1 with
        | none => exact nonces.cons _
        | some envelope =>
            simp only [Option.toList_some, List.map_cons, List.map_nil, List.singleton_append]
            rw [begins envelope returned, counted]
            exact nonces.cons_cons _

/-- Sealing a short plaintext into a vector gives an envelope. -/
theorem sealed_toVec_isSome {bound : Nat} (encrypts : aead.Encrypts bound) (box : CryptoBox)
    (plaintext aad : List UInt8) (short : plaintext.length ≤ bound)
    (shortAad : aad.length ≤ bound) :
    (box.sealed aead (.toVec plaintext aad)).1.isSome := by
  obtain ⟨⟨ciphertext, tag⟩, encrypted⟩ := Option.isSome_iff_exists.mp
    (encrypts box.suite box.key box.nextNonce.1 aad plaintext short shortAad)
  simp [sealed, sealToVec, sealInto, encrypted, Except.toOption]

/-- Two ends with one salt draw one nonce, each at its first call. -/
theorem not_nodup_of_same_salt (encrypts : aead.Encrypts 0) {boxes : Side → CryptoBox}
    (fresh : ∀ side, (boxes side).ctr = 0)
    (same : (boxes .initiator).salt = (boxes .responder).salt) :
    ¬ ((envelopes aead boxes
      [(.initiator, .toVec [] []), (.responder, .toVec [] [])]).map nonceOf).Nodup := by
  have drawn : ∀ side, ∃ envelope, ((boxes side).sealed aead (.toVec [] [])).1 = some envelope ∧
      nonceOf envelope = nonce 0 (boxes .responder).salt := by
    intro side
    obtain ⟨envelope, returned⟩ := Option.isSome_iff_exists.mp
      (sealed_toVec_isSome encrypts (boxes side) [] [] (Nat.le_refl 0) (Nat.le_refl 0))
    refine ⟨envelope, returned, ?_⟩
    rcases draws aead (boxes side) (.toVec [] []) with idle | ⟨-, begins⟩
    · simp [idle] at returned
    · rw [begins envelope returned, fresh]
      cases side with
      | initiator => rw [same]
      | responder => rfl
  obtain ⟨first, returned, begins⟩ := drawn .initiator
  obtain ⟨second, returned', begins'⟩ := drawn .responder
  simp [envelopes, returned, returned', begins, begins', Function.update]

/-- Two ends with different salts never seal two envelopes with one nonce, as long as
neither counter turns over. -/
theorem nodup_of_salts {boxes : Side → CryptoBox} (fresh : ∀ side, (boxes side).ctr = 0)
    (distinct : (boxes .initiator).salt ≠ (boxes .responder).salt)
    {calls : List (Side × SealCall)} (few : ∀ side, callsOf side calls < 2 ^ 64) :
    ((envelopes aead boxes calls).map nonceOf).Nodup := by
  obtain ⟨run, among, nonces⟩ := envelopes_sublist aead boxes (fun _ => 0)
    (fun side => fresh side) calls
  apply nonces.nodup
  have marks : Function.Injective fun side => (boxes side).salt := by
    intro side other same
    cases side <;> cases other
    · rfl
    · exact absurd same distinct
    · exact absurd same.symm distinct
    · rfl
  apply (nodup_labels marks (fun _ => 0) run).map_on
  intro label member other otherMember same
  have small : ∀ {label : Nat × Vector UInt8 4},
      label ∈ labels (fun side => (boxes side).salt) (fun _ => 0) run → label.1 < 2 ^ 64 := by
    intro label member
    obtain ⟨side, -, -, high⟩ := mem_labels member
    have fewer := among.count_le side
    have bounded := few side
    unfold callsOf at bounded
    omega
  obtain ⟨counters, salts⟩ := nonce_injective same
  apply Prod.ext _ salts
  have values := congrArg UInt64.toNat counters
  rwa [UInt64.toNat_ofNat_of_lt' (small member), UInt64.toNat_ofNat_of_lt' (small otherMember)]
    at values

/-- One key never meets one nonce twice, in any interleaving of the two ends of a session,
exactly when the random salts of the two ends differ. -/
theorem nonces_nodup_iff (encrypts : aead.Encrypts 0) {kdf : Vector UInt8 32}
    {suites : Side → CipherSuite} {salts : Side → Vector UInt8 4} {boxes : Side → CryptoBox}
    (derived : ∀ side, fromKdf (suites side) kdf (some (salts side)) = .ok (boxes side)) :
    (∀ calls : List (Side × SealCall), (∀ side, callsOf side calls < 2 ^ 64) →
      ((envelopes aead boxes calls).map nonceOf).Nodup) ↔
      salts .initiator ≠ salts .responder := by
  have fresh : ∀ side, (boxes side).ctr = 0 := by
    intro side
    rw [← Except.ok.inj (derived side)]
  have salted : ∀ side, (boxes side).salt = salts side := by
    intro side
    rw [← Except.ok.inj (derived side)]
  constructor
  · intro unique same
    apply not_nodup_of_same_salt encrypts fresh (by rw [salted, salted, same])
    apply unique
    intro side
    exact Nat.lt_of_le_of_lt List.count_le_length (by decide)
  · intro distinct calls few
    exact nodup_of_salts fresh (by rwa [salted, salted]) few

/-- A short run of both ends: each seals twice, in turns. -/
def turns : List (Side × SealCall) :=
  [(.initiator, .toVec [1] []), (.responder, .toVec [2] []),
    (.initiator, .into [3] [] (List.replicate 40 0)), (.responder, .toVec [4] [])]

/-- With one salt at both ends the key sees a nonce twice. -/
theorem nonces_repeat : ¬ ∀ (kdf : Vector UInt8 32) (salts : Side → Vector UInt8 4)
    (boxes : Side → CryptoBox),
    (∀ side, fromKdf .aes256Gcm kdf (some (salts side)) = .ok (boxes side)) →
      ∀ calls : List (Side × SealCall), (∀ side, callsOf side calls < 2 ^ 64) →
        ((envelopes Symbolic.aead boxes calls).map nonceOf).Nodup := by
  intro unique
  have nodup := unique (Vector.replicate 32 1) (fun _ => Vector.replicate 4 7)
    (fun _ => ⟨.aes256Gcm, Vector.replicate 32 1, 0, Vector.replicate 4 7⟩) (fun _ => rfl)
    turns (by intro side; cases side <;> decide)
  revert nodup
  decide

/-- Two boxes of one key whose salts differ. -/
def saltedBoxes (side : Side) : CryptoBox :=
  ⟨.aes256Gcm, Vector.replicate 32 1, 0,
    match side with
    | .initiator => Vector.replicate 4 7
    | .responder => Vector.replicate 4 8⟩

theorem nonces_nodup_turns :
    ((envelopes Symbolic.aead saltedBoxes turns).map nonceOf).Nodup := by
  have encrypts : Symbolic.aead.Encrypts 0 := by
    intro suite key nonce aad plaintext short shortAad
    rfl
  have derived : ∀ side, fromKdf .aes256Gcm (Vector.replicate 32 1)
      (some (saltedBoxes side).salt) = .ok (saltedBoxes side) := by
    intro side
    rfl
  refine (nonces_nodup_iff encrypts derived).mpr (by decide) turns ?_
  intro side
  cases side <;> decide

end Session

end Teleop.Sec
