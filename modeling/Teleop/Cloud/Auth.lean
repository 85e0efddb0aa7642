import Teleop.Cloud.Http
import Teleop.Lib.Fields
import Teleop.Sec.Rbac
import Teleop.Sec.Session
import Teleop.Sec.Wire

/-!
# Admission to the fleet

The attestation a request carries in its header, the principal it authenticates, and the
messages of the handshake as JSON.
-/

namespace Teleop.Cloud

open Teleop.Lib Teleop.Sec

/-- Scheme prefix of the attestation bearer. -/
def SCHEME : String := "TPT-Attestation "

/-- The `White_Space` property of Unicode. -/
def isWhitespace (c : Char) : Bool :=
  let code := c.toNat
  (0x09 ≤ code && code ≤ 0x0D) || code = 0x20 || code = 0x85 || code = 0xA0 || code = 0x1680 ||
    (0x2000 ≤ code && code ≤ 0x200A) || code = 0x2028 || code = 0x2029 || code = 0x202F ||
    code = 0x205F || code = 0x3000

def trim (text : List Char) : List Char :=
  ((text.dropWhile isWhitespace).reverse.dropWhile isWhitespace).reverse

theorem trim_eq_strip (text : List Char) : trim text = strip isWhitespace text := rfl

/-- What follows a prefix, or the whole text without it. -/
def withoutPrefix (lead text : List Char) : List Char :=
  if lead <+: text then text.drop lead.length else text

theorem dropWhile_of_head {text : List Char} (head : ∀ c ∈ text.head?, isWhitespace c = false) :
    text.dropWhile isWhitespace = text := by
  cases text with
  | nil => rfl
  | cons c rest => simp [head c rfl]

/-- A text with no whitespace at either end is not trimmed. -/
theorem trim_of_ends {text : List Char} (head : ∀ c ∈ text.head?, isWhitespace c = false)
    (last : ∀ c ∈ text.getLast?, isWhitespace c = false) : trim text = text := by
  rw [trim, dropWhile_of_head head, dropWhile_of_head, List.reverse_reverse]
  rwa [List.head?_reverse]

theorem isWhitespace_hexEncode (data : List UInt8) :
    ∀ c ∈ (hexEncode data).toList, isWhitespace c = false := by
  apply forall_hexEncode
  exact forall_byte (by decide +kernel)

/-- The last hexadecimal digit of a text is no whitespace. -/
theorem getLast_hexEncode {data : List UInt8} (nonempty : data ≠ []) (lead : List Char) :
    ∀ c ∈ (lead ++ (hexEncode data).toList).getLast?, isWhitespace c = false := by
  have digits : (hexEncode data).toList ≠ [] := by
    obtain ⟨b, rest, rfl⟩ := List.exists_cons_of_ne_nil nonempty
    simp [hexEncode]
  intro c last
  rw [List.getLast?_append_of_ne_nil _ digits] at last
  exact isWhitespace_hexEncode data c (List.mem_of_getLast? last)

/-- Hexadecimal text stands for itself in a JSON string. -/
theorem plain_hexEncode (data : List UInt8) :
    ∀ c ∈ (hexEncode data).toList, JsonParser.Plain c := by
  apply forall_hexEncode
  exact forall_byte (by decide +kernel)

section Attested

variable {ed : Ed25519} [SignatureBytes ed.Signature]

/-- The hexadecimal text of an attestation. -/
def attestationFromHex (hex : String) : Option (Attestation ed) :=
  match hexDecode (utf8 hex) with
  | none => none
  | some wire => (Attestation.fromBytes wire).toOption

/-- The attestation of a request, in the first of the two headers it has. -/
def extractAttestation (req : Request) : Option (Attestation ed) :=
  let header := req.headers.find? fun header =>
    header.1 = "authorization" || header.1 = "x-tpt-attestation"
  match header with
  | none => none
  | some (_, value) =>
      attestationFromHex (.ofList (withoutPrefix SCHEME.toList (trim value.toList)))

theorem attestationFromHex_hexEncode {attestation : Attestation ed}
    (signature : SignatureBytes.fromBytes (SignatureBytes.toBytes attestation.sig) =
      attestation.sig) :
    attestationFromHex (hexEncode attestation.toBytes) = some attestation := by
  rw [attestationFromHex, hexDecode_hexEncode]
  simp only [Attestation.fromBytes_toBytes signature]
  rfl

/-- A bearer is not trimmed. -/
theorem trim_bearer (attestation : Attestation ed) :
    trim (SCHEME.toList ++ (hexEncode attestation.toBytes).toList) =
      SCHEME.toList ++ (hexEncode attestation.toBytes).toList := by
  have nonempty : attestation.toBytes ≠ [] := by
    intro empty
    have long := attestation.length_toBytes
    rw [empty] at long
    cases long
  apply trim_of_ends _ (getLast_hexEncode nonempty _)
  intro c head
  cases head
  decide

/-- A bearer header carries the attestation it was written from. -/
theorem extractAttestation_of_bearer {req : Request} {name : String} {attestation : Attestation ed}
    (signature : SignatureBytes.fromBytes (SignatureBytes.toBytes attestation.sig) =
      attestation.sig)
    (first : (req.headers.find? fun header =>
      header.1 = "authorization" || header.1 = "x-tpt-attestation") =
        some (name, SCHEME ++ hexEncode attestation.toBytes)) :
    extractAttestation req = some attestation := by
  simp only [extractAttestation, first, String.toList_append, trim_bearer]
  rw [withoutPrefix, if_pos (List.prefix_append _ _), List.drop_left, String.ofList_toList]
  exact attestationFromHex_hexEncode signature

/-- Authenticates a request into a principal, or fails with a status code. -/
def authenticateRequest (ed : Ed25519) [SignatureBytes ed.Signature] (authz : ZeroTrustBroker)
    (req : Request) : Except UInt16 Principal :=
  match (extractAttestation req : Option (Attestation ed)) with
  | none => .error 401
  | some attestation =>
      match authz.authenticate attestation with
      | .error _ => .error 401
      | .ok principal => .ok principal

/-- A request is authenticated by a genuine attestation. -/
theorem authenticateRequest_eq_ok {authz : ZeroTrustBroker} {req : Request}
    {principal : Principal} (accepted : authenticateRequest ed authz req = .ok principal) :
    ∃ attestation : Attestation ed, extractAttestation req = some attestation ∧
      authz.authenticate attestation = .ok principal := by
  unfold authenticateRequest at accepted
  split at accepted
  · cases accepted
  · rename_i attestation extracted
    split at accepted
    · cases accepted
    · rename_i verified authenticated
      cases accepted
      exact ⟨attestation, extracted, authenticated⟩

theorem authenticateRequest_of_genuine {authz : ZeroTrustBroker} {req : Request}
    {attestation : Attestation ed} (extracted : extractAttestation req = some attestation)
    (genuine : authz.Genuine attestation) :
    ∃ principal, authenticateRequest ed authz req = .ok principal ∧
      authz.authenticate attestation = .ok principal := by
  obtain ⟨principal, authenticated⟩ := ZeroTrustBroker.authenticate_of_genuine genuine
  simp [authenticateRequest, extracted, authenticated]

end Attested

section Handshake

variable {F : Type} [JsonNumber F] {p : Primitives} [SignatureBytes p.ed.Signature]

def suiteToU8 : CipherSuite → UInt8
  | .aes256Gcm => 1
  | .chaCha20Poly1305 => 2

def suiteFromU8 (n : UInt8) : Option CipherSuite :=
  if n = 1 then some .aes256Gcm
  else if n = 2 then some .chaCha20Poly1305
  else none

/-- The suites a peer names by their numbers, of which the low byte counts; all without a
list. -/
def suitesFromJson (json : Json F) : List CipherSuite :=
  match (json.get "suites").bind Json.asArray with
  | none => CipherSuite.all
  | some items => items.filterMap fun item => item.asU64.bind fun n => suiteFromU8 n.toUInt8

/-- The first message of a handshake, as the bootstrap endpoint takes it. -/
def handshakeInitFromJson (p : Primitives) [SignatureBytes p.ed.Signature] (json : Json F) :
    Option (HandshakeInit p) :=
  match ((json.get "attestation").bind Json.asStr).bind attestationFromHex with
  | none => none
  | some attestation =>
      let suites := suitesFromJson json
      if suites = [] then none else some ⟨attestation, suites⟩

def handshakeRespToJson (resp : HandshakeResp p) : Json F :=
  .obj [("attestation", .str (hexEncode resp.attestation.toBytes)),
    ("suite", .uint (suiteToU8 resp.suite).toUInt64)]

end Handshake

end Teleop.Cloud
