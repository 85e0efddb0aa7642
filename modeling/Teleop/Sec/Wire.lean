import Teleop.Sec.Identity

/-!
# Attestations on the wire

The fixed layout of an attestation and the hexadecimal text it travels as.  A signature is
64 bytes; which signature they are is a parameter.
-/

namespace Teleop.Sec

open Teleop.Lib

/-- The 64 bytes of a signature. -/
class SignatureBytes (S : Type) where
  toBytes : S → Vector UInt8 64
  fromBytes : Vector UInt8 64 → S

/-- Inverse of `roleByte`; unknown values map to `guest`. -/
def roleFromByte (b : UInt8) : Role :=
  if b = 0 then .guest
  else if b = 1 then .observer
  else if b = 2 then .operator
  else if b = 3 then .admin
  else if b = 4 then .aiAgent
  else .guest

@[simp] theorem roleFromByte_roleByte (role : Role) : roleFromByte (roleByte role) = role := by
  cases role <;> decide

def ATTESTATION_WIRE_LEN : Nat := 8 + 1 + 32 + 32 + 64

/-- The `width` bytes at an offset. -/
def field (width offset : Nat) (bytes : List UInt8) : Vector UInt8 width :=
  .ofFn fun i => bytes.getD (offset + i) 0

namespace Attestation

variable {ed : Ed25519} [SignatureBytes ed.Signature]

def toBytes (attestation : Attestation ed) : List UInt8 :=
  leBytes 8 attestation.unitId.toNat ++ [roleByte attestation.role] ++
    attestation.signingPub.toList ++ attestation.ephPub.toList ++
    (SignatureBytes.toBytes attestation.sig).toList

/-- Reverses `toBytes` without verifying the signature; bytes past the layout are ignored. -/
def fromBytes (bytes : List UInt8) : Except SecError (Attestation ed) :=
  if bytes.length < ATTESTATION_WIRE_LEN then .error .serialize
  else
    .ok {
      unitId := .ofNat (ofLe (bytes.take 8))
      role := roleFromByte (bytes.getD 8 0)
      signingPub := field 32 9 bytes
      ephPub := field 32 41 bytes
      sig := SignatureBytes.fromBytes (field 64 73 bytes) }

theorem length_toBytes (attestation : Attestation ed) :
    attestation.toBytes.length = ATTESTATION_WIRE_LEN := by
  simp [toBytes, ATTESTATION_WIRE_LEN]

theorem field_append {width : Nat} (before : List UInt8) (value : Vector UInt8 width)
    (after : List UInt8) : field width before.length (before ++ value.toList ++ after) = value := by
  apply Vector.ext
  intro i inside
  have here : before.length + i < (before ++ value.toList).length := by simpa using inside
  simp only [field, Vector.getElem_ofFn]
  rw [List.getD_eq_getElem?_getD, List.getElem?_append_left here,
    List.getElem?_append_right (Nat.le_add_right _ _)]
  simp [inside]

/-- The layout read back, if the bytes of the signature are. -/
theorem fromBytes_toBytes {attestation : Attestation ed}
    (signature : SignatureBytes.fromBytes (SignatureBytes.toBytes attestation.sig) =
      attestation.sig) :
    fromBytes attestation.toBytes = .ok attestation := by
  obtain ⟨unitId, role, signingPub, ephPub, sig⟩ := attestation
  simp only at signature
  have long : ¬ (toBytes ⟨unitId, role, signingPub, ephPub, sig⟩).length < ATTESTATION_WIRE_LEN :=
    by rw [length_toBytes]; exact Nat.lt_irrefl _
  rw [fromBytes, if_neg long]
  have unit : (toBytes ⟨unitId, role, signingPub, ephPub, sig⟩).take 8 =
      leBytes 8 unitId.toNat := by
    simp only [toBytes, List.append_assoc]
    exact List.take_left' (length_leBytes 8 _)
  have claimed : (toBytes ⟨unitId, role, signingPub, ephPub, sig⟩).getD 8 0 = roleByte role := by
    simp [toBytes, List.getD]
  have signer : field 32 9 (toBytes ⟨unitId, role, signingPub, ephPub, sig⟩) = signingPub := by
    have read := field_append (leBytes 8 unitId.toNat ++ [roleByte role]) signingPub
      (ephPub.toList ++ (SignatureBytes.toBytes sig).toList)
    simpa [toBytes] using read
  have agreement : field 32 41 (toBytes ⟨unitId, role, signingPub, ephPub, sig⟩) = ephPub := by
    have read := field_append (leBytes 8 unitId.toNat ++ [roleByte role] ++ signingPub.toList)
      ephPub (SignatureBytes.toBytes sig).toList
    simpa [toBytes] using read
  have signed : field 64 73 (toBytes ⟨unitId, role, signingPub, ephPub, sig⟩) =
      SignatureBytes.toBytes sig := by
    have read := field_append (leBytes 8 unitId.toNat ++ [roleByte role] ++ signingPub.toList ++
      ephPub.toList) (SignatureBytes.toBytes sig) []
    simpa [toBytes] using read
  rw [unit, claimed, signer, agreement, signed, signature, ofLe_leBytes, ofNat_toNat_mod_eight,
    roleFromByte_roleByte]

end Attestation

section Hex

/-- A nibble, upper or lower case. -/
def hexVal (c : UInt8) : Option UInt8 :=
  if 0x30 ≤ c ∧ c ≤ 0x39 then some (c - 0x30)
  else if 0x61 ≤ c ∧ c ≤ 0x66 then some (c - 0x61 + 10)
  else if 0x41 ≤ c ∧ c ≤ 0x46 then some (c - 0x41 + 10)
  else none

/-- Decodes pairs of digits; an odd length is refused before any digit is looked at. -/
def hexDecode : List UInt8 → Option (List UInt8)
  | [] => some []
  | [_] => none
  | high :: low :: rest =>
      match hexVal high, hexVal low, hexDecode rest with
      | some high, some low, some bytes => some (((high <<< 4) ||| low) :: bytes)
      | _, _, _ => none

def hexDigit (nibble : UInt8) : Char :=
  .ofNat (if nibble < 10 then 0x30 + nibble.toNat else 0x61 + (nibble.toNat - 10))

def hexEncode (data : List UInt8) : String :=
  .ofList (data.flatMap fun b : UInt8 => [hexDigit (b >>> 4), hexDigit (b &&& 0x0F)])

/-- A fact about each of the 256 bytes. -/
theorem forall_byte {P : UInt8 → Prop} (each : ∀ n : Fin 256, P (.ofNat n)) (b : UInt8) : P b := by
  have here := each ⟨b.toNat, b.toNat_lt⟩
  rwa [UInt8.ofNat_toNat] at here

theorem utf8EncodeChar_hexDigit (b : UInt8) :
    String.utf8EncodeChar (hexDigit (b >>> 4)) = [.ofNat (hexDigit (b >>> 4)).toNat] ∧
      String.utf8EncodeChar (hexDigit (b &&& 0x0F)) =
        [.ofNat (hexDigit (b &&& 0x0F)).toNat] := by
  revert b
  exact forall_byte (by decide +kernel)

/-- The two digits of a byte, and what they decode to. -/
theorem hexVal_hexDigit (b : UInt8) :
    hexVal (.ofNat (hexDigit (b >>> 4)).toNat) = some (b >>> 4) ∧
      hexVal (.ofNat (hexDigit (b &&& 0x0F)).toNat) = some (b &&& 0x0F) ∧
      ((b >>> 4) <<< 4) ||| (b &&& 0x0F) = b := by
  revert b
  exact forall_byte (by decide +kernel)

/-- A fact about each digit holds all along a text of digits. -/
theorem forall_hexEncode {P : Char → Prop}
    (digits : ∀ b : UInt8, P (hexDigit (b >>> 4)) ∧ P (hexDigit (b &&& 0x0F)))
    (data : List UInt8) : ∀ c ∈ (hexEncode data).toList, P c := by
  intro c member
  simp only [hexEncode, String.toList_ofList, List.mem_flatMap, List.mem_cons,
    List.not_mem_nil, or_false] at member
  obtain ⟨b, -, rfl | rfl⟩ := member
  · exact (digits b).1
  · exact (digits b).2

theorem utf8_hexEncode_cons (b : UInt8) (rest : List UInt8) :
    utf8 (hexEncode (b :: rest)) = .ofNat (hexDigit (b >>> 4)).toNat ::
      .ofNat (hexDigit (b &&& 0x0F)).toNat :: utf8 (hexEncode rest) := by
  obtain ⟨high, low⟩ := utf8EncodeChar_hexDigit b
  simp [utf8, hexEncode, high, low]

theorem length_utf8_hexEncode (data : List UInt8) :
    (utf8 (hexEncode data)).length = 2 * data.length := by
  induction data with
  | nil => rfl
  | cons b rest inductionHypothesis =>
      rw [utf8_hexEncode_cons, List.length_cons, List.length_cons, inductionHypothesis,
        List.length_cons]
      omega

theorem hexDecode_hexEncode (data : List UInt8) :
    hexDecode (utf8 (hexEncode data)) = some data := by
  induction data with
  | nil => rfl
  | cons b rest inductionHypothesis =>
      obtain ⟨highVal, lowVal, joined⟩ := hexVal_hexDigit b
      simp only [utf8_hexEncode_cons, hexDecode, highVal, lowVal, inductionHypothesis, joined]

end Hex

end Teleop.Sec
