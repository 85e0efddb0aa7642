import Teleop.Sec.Identity

/-!
# Cipher suites and the session box

Suite negotiation and the sealed envelope, a nonce followed by ciphertext and tag.  The
AEAD primitives are a parameter of which only decryption after encryption is used.
-/

namespace Teleop.Sec

open Teleop.Lib

inductive CipherSuite where
  | aes256Gcm
  | chaCha20Poly1305
  deriving DecidableEq, Repr

namespace CipherSuite

/-- All suites the implementation can negotiate, most-preferred first. -/
def all : List CipherSuite := [aes256Gcm, chaCha20Poly1305]

/-- The first entry of `ours` that is in `theirs`. -/
def negotiate (ours theirs : List CipherSuite) : Option CipherSuite :=
  ours.find? (theirs.contains ·)

theorem mem_of_negotiate {ours theirs : List CipherSuite} {suite : CipherSuite}
    (chosen : negotiate ours theirs = some suite) : suite ∈ ours ∧ suite ∈ theirs := by
  refine ⟨List.mem_of_find?_eq_some chosen, ?_⟩
  have contained := List.find?_some chosen
  exact List.contains_iff_mem.mp contained

/-- Whatever suites the peer names, one of them is among all. -/
theorem exists_negotiate_all {theirs : List CipherSuite} (nonempty : theirs ≠ []) :
    ∃ suite, negotiate all theirs = some suite := by
  obtain ⟨named, member⟩ := List.exists_mem_of_ne_nil theirs nonempty
  apply Option.isSome_iff_exists.mp
  apply List.find?_isSome.mpr
  refine ⟨named, ?_, List.contains_iff_mem.mpr member⟩
  cases named <;> simp [all]

end CipherSuite

def NONCE_LEN : Nat := 12

def TAG_LEN : Nat := 16

/-- The detached AEAD of the two suites.  Encryption fails on a plaintext that is too long. -/
structure Aead where
  encrypt : CipherSuite → Vector UInt8 32 → List UInt8 → List UInt8 → List UInt8 →
    Option (List UInt8 × List UInt8)
  decrypt : CipherSuite → Vector UInt8 32 → List UInt8 → List UInt8 → List UInt8 → List UInt8 →
    Option (List UInt8)
  decrypt_encrypt : ∀ {suite key nonce aad plaintext ciphertext tag},
    encrypt suite key nonce aad plaintext = some (ciphertext, tag) →
      decrypt suite key nonce aad ciphertext tag = some plaintext
  length_encrypt : ∀ {suite key nonce aad plaintext ciphertext tag},
    encrypt suite key nonce aad plaintext = some (ciphertext, tag) →
      ciphertext.length = plaintext.length ∧ tag.length = TAG_LEN

/-- One key, one suite and a nonce counter with a random salt. -/
structure CryptoBox where
  suite : CipherSuite
  key : Vector UInt8 32
  ctr : UInt64
  salt : Vector UInt8 4

namespace CryptoBox

/-- The salt is what the random source returned, if it did. -/
def fromKdf (suite : CipherSuite) (kdf : Vector UInt8 32) (salt : Option (Vector UInt8 4)) :
    Except SecError CryptoBox :=
  match salt with
  | none => .error .keyGen
  | some salt => .ok ⟨suite, kdf, 0, salt⟩

def nextNonce (box : CryptoBox) : List UInt8 × CryptoBox :=
  (leBytes 8 box.ctr.toNat ++ box.salt.toList, { box with ctr := box.ctr + 1 })

/-- Writes the envelope to the front of `out`; the counter has moved on even when the
encryption fails. -/
def sealInto (aead : Aead) (box : CryptoBox) (plaintext aad out : List UInt8) :
    Except SecError (Nat × List UInt8) × CryptoBox :=
  let need := NONCE_LEN + plaintext.length + TAG_LEN
  if out.length < need then (.error .bufferTooSmall, box)
  else
    let (nonce, next) := box.nextNonce
    match aead.encrypt box.suite box.key nonce aad plaintext with
    | none => (.error .crypto, next)
    | some (ciphertext, tag) => (.ok (need, nonce ++ ciphertext ++ tag ++ out.drop need), next)

def sealToVec (aead : Aead) (box : CryptoBox) (plaintext aad : List UInt8) :
    Except SecError (List UInt8) × CryptoBox :=
  let out := List.replicate (NONCE_LEN + plaintext.length + TAG_LEN) 0
  match box.sealInto aead plaintext aad out with
  | (.error failure, next) => (.error failure, next)
  | (.ok (n, written), next) => (.ok (written.take n), next)

/-- Decrypts in place and slides the plaintext to the front of the buffer. -/
def openInPlace (aead : Aead) (box : CryptoBox) (buf aad : List UInt8) :
    Except SecError (Nat × List UInt8) :=
  if buf.length < NONCE_LEN + TAG_LEN then .error .crypto
  else
    let ptLen := buf.length - NONCE_LEN - TAG_LEN
    let nonce := buf.take NONCE_LEN
    let ciphertext := (buf.drop NONCE_LEN).take ptLen
    let tag := (buf.drop NONCE_LEN).drop ptLen
    match aead.decrypt box.suite box.key nonce aad ciphertext tag with
    | none => .error .crypto
    | some plaintext => .ok (ptLen, plaintext ++ (nonce ++ plaintext ++ tag).drop ptLen)

def openInto (aead : Aead) (box : CryptoBox) (sealed aad out : List UInt8) :
    Except SecError (Nat × List UInt8) :=
  if sealed.length < NONCE_LEN + TAG_LEN then .error .crypto
  else
    let ptLen := sealed.length - NONCE_LEN - TAG_LEN
    if out.length < ptLen then .error .bufferTooSmall
    else
      match box.openInPlace aead sealed aad with
      | .error failure => .error failure
      | .ok (n, work) => .ok (n, work.take n ++ out.drop n)

variable {aead : Aead}

/-- A box from a KDF has the key and the suite it was derived for. -/
theorem fromKdf_eq_ok {suite : CipherSuite} {kdf : Vector UInt8 32}
    {salt : Option (Vector UInt8 4)} {box : CryptoBox}
    (derived : fromKdf suite kdf salt = .ok box) : box.suite = suite ∧ box.key = kdf := by
  cases salt with
  | none => cases derived
  | some salt =>
      cases derived
      exact ⟨rfl, rfl⟩

theorem length_nextNonce (box : CryptoBox) : box.nextNonce.1.length = NONCE_LEN := by
  simp [nextNonce, NONCE_LEN]

/-- A sealed envelope is the nonce, the ciphertext and the tag. -/
theorem sealToVec_eq_ok {box : CryptoBox} {plaintext aad sealed : List UInt8}
    (ran : (box.sealToVec aead plaintext aad).1 = .ok sealed) :
    ∃ ciphertext tag,
      aead.encrypt box.suite box.key box.nextNonce.1 aad plaintext = some (ciphertext, tag) ∧
        sealed = box.nextNonce.1 ++ (ciphertext ++ tag) := by
  have room : ¬ (List.replicate (NONCE_LEN + plaintext.length + TAG_LEN) (0 : UInt8)).length <
      NONCE_LEN + plaintext.length + TAG_LEN := by simp
  simp only [sealToVec, sealInto, if_neg room] at ran
  cases encrypted : aead.encrypt box.suite box.key box.nextNonce.1 aad plaintext with
  | none => simp [encrypted] at ran
  | some pair =>
      obtain ⟨ciphertext, tag⟩ := pair
      obtain ⟨sameLength, tagLength⟩ := aead.length_encrypt encrypted
      simp only [encrypted, Except.ok.injEq] at ran
      refine ⟨ciphertext, tag, rfl, ?_⟩
      rw [← ran, List.take_left', List.append_assoc]
      simp only [List.length_append, length_nextNonce, sameLength, tagLength]

/-- What one box seals, a box with the same key and suite opens. -/
theorem openInto_sealToVec {box other : CryptoBox} {plaintext aad sealed out : List UInt8}
    (sameSuite : other.suite = box.suite) (sameKey : other.key = box.key)
    (room : plaintext.length ≤ out.length)
    (ran : (box.sealToVec aead plaintext aad).1 = .ok sealed) :
    other.openInto aead sealed aad out =
      .ok (plaintext.length, plaintext ++ out.drop plaintext.length) := by
  obtain ⟨ciphertext, tag, encrypted, rfl⟩ := sealToVec_eq_ok ran
  obtain ⟨sameLength, tagLength⟩ := aead.length_encrypt encrypted
  have total : (box.nextNonce.1 ++ (ciphertext ++ tag)).length =
      NONCE_LEN + plaintext.length + TAG_LEN := by
    simp only [List.length_append, length_nextNonce, sameLength, tagLength]
    omega
  have long : ¬ (box.nextNonce.1 ++ (ciphertext ++ tag)).length < NONCE_LEN + TAG_LEN := by
    omega
  have ptLen : (box.nextNonce.1 ++ (ciphertext ++ tag)).length - NONCE_LEN - TAG_LEN =
      plaintext.length := by
    omega
  have opened : other.openInPlace aead (box.nextNonce.1 ++ (ciphertext ++ tag)) aad =
      .ok (plaintext.length,
        plaintext ++ (box.nextNonce.1 ++ plaintext ++ tag).drop plaintext.length) := by
    simp only [openInPlace, if_neg long, ptLen, List.take_left' (length_nextNonce box),
      List.drop_left' (length_nextNonce box), List.take_left' sameLength,
      List.drop_left' sameLength, sameSuite, sameKey, aead.decrypt_encrypt encrypted]
  simp only [openInto, if_neg long, ptLen, if_neg (Nat.not_lt.mpr room), opened,
    List.take_left' rfl]

end CryptoBox

end Teleop.Sec
