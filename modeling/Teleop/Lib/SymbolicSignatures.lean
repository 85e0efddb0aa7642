import Mathlib.Data.List.Basic

/-!
# Symbolic signatures

A signature scheme without probabilities: a signature verifies exactly under the key that
made it and over the message that was signed.  What has been signed is kept in a log, and
an adversary who sees every message puts in a signature field a signature of the log or
something that is no signature.
-/

namespace Teleop.Lib

universe u v

structure SignatureScheme (Message : Type u) where
  SigningKey : Type v
  VerifyingKey : Type v
  Signature : Type v
  verifyingKey : SigningKey → VerifyingKey
  sign : SigningKey → Message → Signature
  verify : VerifyingKey → Message → Signature → Bool
  /-- Only what the holder of the key signed verifies. -/
  verify_iff : ∀ {key message signature}, verify key message signature = true ↔
    ∃ signer, verifyingKey signer = key ∧ signature = sign signer message
  sign_injective : ∀ {signer other message content},
    sign signer message = sign other content → signer = other ∧ message = content

namespace SignatureScheme

variable {Message : Type u} (scheme : SignatureScheme.{u, v} Message)

/-- Who signed what. -/
abbrev Log := List (scheme.SigningKey × Message)

variable {scheme} {log : scheme.Log}

theorem verify_sign (signer : scheme.SigningKey) (message : Message) :
    scheme.verify (scheme.verifyingKey signer) message (scheme.sign signer message) = true :=
  scheme.verify_iff.mpr ⟨signer, rfl, rfl⟩

/-- What can stand in the signature field of a delivered message. -/
def Assembles (log : scheme.Log) (signature : scheme.Signature) : Prop :=
  ∀ signer message, signature = scheme.sign signer message → (signer, message) ∈ log

theorem Assembles.of_mem {signer : scheme.SigningKey} {message : Message}
    (signed : (signer, message) ∈ log) : Assembles log (scheme.sign signer message) := by
  intro other content same
  obtain ⟨rfl, rfl⟩ := scheme.sign_injective same
  exact signed

/-- A delivered signature that verifies was made by the holder of the key. -/
theorem Assembles.mem_of_verify {key : scheme.VerifyingKey} {message : Message}
    {signature : scheme.Signature} (assembled : Assembles log signature)
    (verified : scheme.verify key message signature = true) :
    ∃ signer, scheme.verifyingKey signer = key ∧ signature = scheme.sign signer message ∧
      (signer, message) ∈ log := by
  obtain ⟨signer, held, made⟩ := scheme.verify_iff.mp verified
  exact ⟨signer, held, made, assembled signer message made⟩

end SignatureScheme

end Teleop.Lib
