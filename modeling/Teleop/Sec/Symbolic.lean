import Teleop.Sec.Exchange

/-!
# An instance of the primitives

Primitives that satisfy every law the handshake relies on: a signature is its key and
message, key agreement multiplies bytes, and the tag of a sealed message is a checksum over
everything the AEAD takes.  Over them, a fleet of two units.
-/

namespace Teleop.Sec.Symbolic

open Teleop.Lib

def ed : Ed25519 where
  SigningKey := Vector UInt8 32
  VerifyingKey := Vector UInt8 32
  Signature := Vector UInt8 32 × List UInt8
  verifyingKey := id
  sign signer message := (signer, message)
  verify key message signature := decide (signature = (key, message))
  verify_iff := by simp
  sign_injective := Prod.mk.inj
  asBytes := id
  fromBytes := some
  fromBytes_asBytes _ := rfl
  asBytes_of_fromBytes same := (Option.some.inj same).symm

/-- Bytes under multiplication, with base point 9. -/
def x : X25519 where
  StaticSecret := Vector UInt8 32
  publicKey own := own.map (9 * ·)
  diffieHellman own peer := Vector.ofFn fun i => own[i] * peer[i]
  diffieHellman_comm own peer := by
    apply Vector.ext
    intro i bound
    simp only [Vector.getElem_ofFn, Fin.getElem_fin, Vector.getElem_map]
    rw [UInt8.mul_comm peer[i], UInt8.mul_comm own[i], UInt8.mul_assoc, UInt8.mul_assoc,
      UInt8.mul_comm peer[i]]

def suiteByte : CipherSuite → UInt8
  | .aes256Gcm => 1
  | .chaCha20Poly1305 => 2

def tagOf (suite : CipherSuite) (key : Vector UInt8 32)
    (nonce aad ciphertext : List UInt8) : List UInt8 :=
  leBytes TAG_LEN (ofLe (suiteByte suite :: key.toList ++ nonce ++ aad ++ ciphertext) %
    (2 ^ 127 - 1))

def aead : Aead where
  encrypt suite key nonce aad plaintext := some (plaintext, tagOf suite key nonce aad plaintext)
  decrypt suite key nonce aad ciphertext tag :=
    if tag = tagOf suite key nonce aad ciphertext then some ciphertext else none
  decrypt_encrypt := by
    intro suite key nonce aad plaintext ciphertext tag encrypted
    obtain ⟨rfl, rfl⟩ := Prod.mk.inj (Option.some.inj encrypted)
    exact if_pos rfl
  length_encrypt := by
    intro suite key nonce aad plaintext ciphertext tag encrypted
    obtain ⟨rfl, rfl⟩ := Prod.mk.inj (Option.some.inj encrypted)
    exact ⟨rfl, length_leBytes _ _⟩

/-- A tag that begins with the length of the associated data. -/
def markedTag (suite : CipherSuite) (key : Vector UInt8 32)
    (nonce aad ciphertext : List UInt8) : List UInt8 :=
  .ofNat aad.length ::
    leBytes 15 (ofLe (suiteByte suite :: key.toList ++ nonce ++ aad ++ ciphertext) %
      (2 ^ 107 - 1))

def markedAead : Aead where
  encrypt suite key nonce aad plaintext :=
    some (plaintext, markedTag suite key nonce aad plaintext)
  decrypt suite key nonce aad ciphertext tag :=
    if tag = markedTag suite key nonce aad ciphertext then some ciphertext else none
  decrypt_encrypt := by
    intro suite key nonce aad plaintext ciphertext tag encrypted
    obtain ⟨rfl, rfl⟩ := Prod.mk.inj (Option.some.inj encrypted)
    exact if_pos rfl
  length_encrypt := by
    intro suite key nonce aad plaintext ciphertext tag encrypted
    obtain ⟨rfl, rfl⟩ := Prod.mk.inj (Option.some.inj encrypted)
    exact ⟨rfl, by simp [markedTag, TAG_LEN]⟩

def primitives : Primitives where
  ed := ed
  x := x
  aead := aead
  expand _ shared := shared

/-- The identity whose signing key repeats one byte. -/
def identity (unitId : UInt64) (role : Role) (seed : UInt8) :
    DeviceIdentity primitives.ed where
  unitId := unitId
  role := role
  signing := (Vector.replicate 32 seed : Vector UInt8 32)
  signingPub := Vector.replicate 32 seed
  signingPub_eq := rfl

/-- Units 1 and 2 are enrolled with the bytes 7 and 9; the adversary owns the byte 66. -/
def twoUnits : Fleet primitives where
  store := (TrustStore.empty.enroll 1 (Vector.replicate 32 7) .operator).enroll 2
    (Vector.replicate 32 9) .admin
  owned key := key = (Vector.replicate 32 66 : Vector UInt8 32)
  owned_unenrolled := by
    rintro key unitId rfl held
    have firstByte : ∀ seed : UInt8, Vector.replicate 32 seed = Vector.replicate 32 66 →
        seed = 66 := by
      intro seed same
      simpa using congrArg (fun bytes : Vector UInt8 32 => bytes[0]) same
    simp only [TrustStore.enroll, TrustStore.empty, Function.update_apply] at held
    split at held
    · exact absurd (firstByte 9 (Option.some.inj held)) (by decide)
    · split at held
      · exact absurd (firstByte 7 (Option.some.inj held)) (by decide)
      · cases held

/-- Unit 1 offers one suite, which unit 2 accepts. -/
def exchange : Network.Exchange primitives where
  initiator := identity 1 .operator 7
  responder := identity 2 .admin 9
  offered := [.aes256Gcm]
  accepted := CipherSuite.all
  initiatorEph := (Vector.replicate 32 3 : Vector UInt8 32)
  responderEph := (Vector.replicate 32 5 : Vector UInt8 32)
  salt := Vector.replicate 4 0
  chosen := .aes256Gcm
  negotiated := rfl

theorem initiator_honest : ¬ twoUnits.owned exchange.initiator.signing := by
  intro owned
  have firstByte := congrArg (fun bytes : Vector UInt8 32 => bytes[0]) owned
  exact absurd firstByte (by decide)

theorem responder_honest : ¬ twoUnits.owned exchange.responder.signing := by
  intro owned
  have firstByte := congrArg (fun bytes : Vector UInt8 32 => bytes[0]) owned
  exact absurd firstByte (by decide)

theorem responderEph_fresh : primitives.x.publicKey exchange.responderEph ≠
    primitives.x.publicKey exchange.initiatorEph := by
  intro same
  have firstByte := congrArg (fun bytes : Vector UInt8 32 => bytes[0]) same
  simp [primitives, x, exchange] at firstByte

end Teleop.Sec.Symbolic
