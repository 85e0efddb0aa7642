import Mathlib.Logic.Function.Basic
import Teleop.Lib.Bytes
import Teleop.Lib.SymbolicSignatures

/-!
# Device identity and signed attestation

An attestation signs the unit id, the role and the ephemeral agreement key of its
sender.  It is verified against the key it carries itself; the trust store holds the
keys that are enrolled for the units.
-/

namespace Teleop.Sec

open Teleop.Lib

/-- Ed25519 as a symbolic signature scheme over byte strings.  A public key travels as 32
bytes, of which not all are keys. -/
structure Ed25519 extends SignatureScheme.{0, 0} (List UInt8) where
  asBytes : VerifyingKey → Vector UInt8 32
  fromBytes : Vector UInt8 32 → Option VerifyingKey
  fromBytes_asBytes : ∀ key, fromBytes (asBytes key) = some key
  asBytes_of_fromBytes : ∀ {bytes key}, fromBytes bytes = some key → asBytes key = bytes

inductive SecError where
  | crypto
  | keyGen
  | attestationFailed
  | handshake (reason : String)
  | bufferTooSmall
  | ringFull
  | serialize
  | unknownUnit
  deriving DecidableEq, Repr

def SecError.display : SecError → String
  | .crypto => "cryptographic operation failed"
  | .keyGen => "key generation failed"
  | .attestationFailed => "attestation failed"
  | .handshake reason => "handshake failed: " ++ reason
  | .bufferTooSmall => "buffer too small"
  | .ringFull => "ring full"
  | .serialize => "serialize/deserialize failed"
  | .unknownUnit => "unknown unit"

inductive Role where
  | guest
  | observer
  | operator
  | admin
  | aiAgent
  deriving DecidableEq, Repr

def roleByte : Role → UInt8
  | .guest => 0
  | .observer => 1
  | .operator => 2
  | .admin => 3
  | .aiAgent => 4

/-- The signed identity claim of a peer. -/
structure Attestation (ed : Ed25519) where
  unitId : UInt64
  role : Role
  signingPub : Vector UInt8 32
  ephPub : Vector UInt8 32
  sig : ed.Signature

/-- A long-lived signing key with the unit id and role it is declared for; the public key is
that of the signing key. -/
structure DeviceIdentity (ed : Ed25519) where
  unitId : UInt64
  role : Role
  signing : ed.SigningKey
  signingPub : Vector UInt8 32
  signingPub_eq : signingPub = ed.asBytes (ed.verifyingKey signing)

namespace Attestation

variable {ed : Ed25519}

/-- The canonical byte string an attestation signs. -/
def signedMessage (unitId : UInt64) (role : Role) (ephPub : Vector UInt8 32) : List UInt8 :=
  leBytes 8 unitId.toNat ++ roleByte role :: ephPub.toList

def sign (identity : DeviceIdentity ed) (ephPub : Vector UInt8 32) : Attestation ed where
  unitId := identity.unitId
  role := identity.role
  signingPub := identity.signingPub
  ephPub := ephPub
  sig := ed.sign identity.signing (signedMessage identity.unitId identity.role ephPub)

/-- Verifies the signature against the embedded signing public key. -/
def verify (attestation : Attestation ed) : Bool :=
  match ed.fromBytes attestation.signingPub with
  | none => false
  | some peerKey =>
      ed.verify peerKey
        (signedMessage attestation.unitId attestation.role attestation.ephPub) attestation.sig

theorem roleByte_injective {role other : Role} (same : roleByte role = roleByte other) :
    role = other := by
  cases role <;> cases other <;> first | rfl | cases same

/-- The signed bytes determine what was signed. -/
theorem signedMessage_injective {unitId otherId : UInt64} {role otherRole : Role}
    {ephPub otherPub : Vector UInt8 32}
    (same : signedMessage unitId role ephPub = signedMessage otherId otherRole otherPub) :
    unitId = otherId ∧ role = otherRole ∧ ephPub = otherPub := by
  unfold signedMessage at same
  obtain ⟨units, rest⟩ := List.append_inj same (by simp)
  obtain ⟨roles, keys⟩ := List.cons.inj rest
  refine ⟨?_, roleByte_injective roles, Vector.toList_inj.mp keys⟩
  have values := congrArg ofLe units
  rw [ofLe_leBytes, ofLe_leBytes] at values
  rw [← ofNat_toNat_mod_eight unitId, ← ofNat_toNat_mod_eight otherId, values]

/-- An attestation is verified under the key it carries. -/
theorem verify_eq_true {attestation : Attestation ed} :
    attestation.verify = true ↔ ∃ peerKey, ed.fromBytes attestation.signingPub = some peerKey ∧
      ed.verify peerKey
        (signedMessage attestation.unitId attestation.role attestation.ephPub)
        attestation.sig = true := by
  unfold verify
  cases parsed : ed.fromBytes attestation.signingPub with
  | none => simp
  | some peerKey => simp

theorem verify_sign (identity : DeviceIdentity ed) (ephPub : Vector UInt8 32) :
    (sign identity ephPub).verify = true := by
  apply verify_eq_true.mpr
  refine ⟨ed.verifyingKey identity.signing, ?_, SignatureScheme.verify_sign _ _⟩
  rw [sign, identity.signingPub_eq, ed.fromBytes_asBytes]

end Attestation

/-- Enrolled signing keys and roles by unit id. -/
structure TrustStore where
  keys : UInt64 → Option (Vector UInt8 32)
  roles : UInt64 → Option Role

namespace TrustStore

variable {ed : Ed25519}

def empty : TrustStore := ⟨fun _ => none, fun _ => none⟩

def enroll (store : TrustStore) (unitId : UInt64) (signingPub : Vector UInt8 32) (role : Role) :
    TrustStore where
  keys := Function.update store.keys unitId (some signingPub)
  roles := Function.update store.roles unitId (some role)

/-- The signing key must be enrolled for the claimed unit and the signature valid. -/
def verify (store : TrustStore) (attestation : Attestation ed) : Except SecError Role :=
  match store.keys attestation.unitId with
  | none => .error .unknownUnit
  | some enrolled =>
      if enrolled ≠ attestation.signingPub then .error .attestationFailed
      else if attestation.verify = false then .error .attestationFailed
      else .ok ((store.roles attestation.unitId).getD .guest)

/-- The store accepts an attestation that verifies under the key enrolled for its unit. -/
theorem verify_eq_ok_iff {store : TrustStore} {attestation : Attestation ed} :
    (∃ role, store.verify attestation = .ok role) ↔
      store.keys attestation.unitId = some attestation.signingPub ∧
        attestation.verify = true := by
  unfold verify
  constructor
  · rintro ⟨role, accepted⟩
    split at accepted
    · cases accepted
    · rename_i enrolled held
      split at accepted
      · cases accepted
      · rename_i same
        split at accepted
        · cases accepted
        · rename_i verified
          rw [held, Decidable.not_not.mp same]
          exact ⟨rfl, by simpa using verified⟩
  · rintro ⟨held, verified⟩
    simp [held, verified]

end TrustStore

end Teleop.Sec
