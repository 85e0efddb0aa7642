import Teleop.Ring.Spsc
import Teleop.Sec.Cipher

/-!
# Decryption into a ring slot

A received envelope is copied into the inline buffer of a block, opened there and pushed.
What each opening path shows its caller is a length and that many bytes.
-/

namespace Teleop.Sec

open Teleop.Ring

/-- A fixed-capacity, inline plaintext block. -/
structure SecureBlock (N : Nat) where
  buf : Vector UInt8 N
  len : UInt32

namespace SecureBlock

variable {N : Nat}

def new : SecureBlock N := ⟨Vector.replicate N 0, 0⟩

def asSlice (block : SecureBlock N) : List UInt8 := block.buf.toList.take block.len.toNat

/-- Copies `bytes` over the front of a buffer. -/
def overwrite (buf : Vector UInt8 N) (bytes : List UInt8) : Vector UInt8 N :=
  Vector.ofFn fun i => bytes.getD i buf[i]

theorem take_overwrite (buf : Vector UInt8 N) {bytes : List UInt8} (fits : bytes.length ≤ N) :
    (overwrite buf bytes).toList.take bytes.length = bytes := by
  apply List.ext_getElem
  · simp [fits]
  · intro i inside small
    simp [overwrite, List.getD_eq_getElem?_getD, small]

end SecureBlock

/-- Capacity of the largest inline block the stack ships by default. -/
def MAX_SECURE_BLOCK : Nat := 256

/-- Opens the envelope inside a fresh block and pushes the block. -/
def decryptIntoRing {N : Nat} (aead : Aead) (box : CryptoBox) (sealed aad : List UInt8)
    (ring : SpscRing (SecureBlock N)) : Except SecError Nat × SpscRing (SecureBlock N) :=
  if sealed.length > N then (.error .bufferTooSmall, ring)
  else
    let buf := SecureBlock.overwrite (SecureBlock.new : SecureBlock N).buf sealed
    match box.openInPlace aead (buf.toList.take sealed.length) aad with
    | .error failure => (.error failure, ring)
    | .ok (pt, work) =>
        match ring.push ⟨SecureBlock.overwrite buf work, .ofNat pt⟩ with
        | .error _ => (.error .ringFull, ring)
        | .ok pushed => (.ok pt, pushed)

namespace CryptoBox

variable (aead : Aead)

/-- What the caller of `openInto` can read: the length and that many bytes of its buffer. -/
def openedInto (box : CryptoBox) (sealed aad out : List UInt8) :
    Except SecError (Nat × List UInt8) :=
  (box.openInto aead sealed aad out).map fun (n, out) => (n, out.take n)

def openedInPlace (box : CryptoBox) (buf aad : List UInt8) : Except SecError (Nat × List UInt8) :=
  (box.openInPlace aead buf aad).map fun (n, buf) => (n, buf.take n)

/-- What the consumer of the ring reads from the block that was pushed. -/
def openedIntoRing {N : Nat} (box : CryptoBox) (sealed aad : List UInt8)
    (ring : SpscRing (SecureBlock N)) : Except SecError (Nat × List UInt8) :=
  match decryptIntoRing aead box sealed aad ring with
  | (.error failure, _) => .error failure
  | (.ok n, pushed) => .ok (n, (pushed.items.getLastD .new).asSlice)

/-- The plaintext of an envelope, if its three parts decrypt under the key of the box. -/
def plaintextOf (box : CryptoBox) (envelope aad : List UInt8) : Option (List UInt8) :=
  if envelope.length < NONCE_LEN + TAG_LEN then none
  else
    let ptLen := envelope.length - NONCE_LEN - TAG_LEN
    aead.decrypt box.suite box.key (envelope.take NONCE_LEN) aad
      ((envelope.drop NONCE_LEN).take ptLen) ((envelope.drop NONCE_LEN).drop ptLen)

/-- What a path that opens an envelope shows for a plaintext or for the lack of one. -/
def shown : Option (List UInt8) → Except SecError (Nat × List UInt8)
  | none => .error .crypto
  | some plaintext => .ok (plaintext.length, plaintext)

end CryptoBox

/-- Decryption accepts nothing but the output of encryption. -/
def Aead.Exact (aead : Aead) : Prop :=
  ∀ {suite key nonce aad ciphertext tag plaintext},
    aead.decrypt suite key nonce aad ciphertext tag = some plaintext →
      aead.encrypt suite key nonce aad plaintext = some (ciphertext, tag)

namespace CryptoBox

variable {aead : Aead}

theorem length_plaintextOf (exact : aead.Exact) {box : CryptoBox}
    {envelope aad plaintext : List UInt8}
    (opened : box.plaintextOf aead envelope aad = some plaintext) :
    NONCE_LEN + TAG_LEN ≤ envelope.length ∧
      plaintext.length = envelope.length - NONCE_LEN - TAG_LEN := by
  unfold plaintextOf at opened
  split at opened
  · cases opened
  · rename_i long
    obtain ⟨sameLength, -⟩ := aead.length_encrypt (exact opened)
    refine ⟨Nat.not_lt.mp long, ?_⟩
    rw [← sameLength, List.length_take, List.length_drop]
    omega

/-- Opening in place leaves the plaintext at the front of the buffer, whose length stays. -/
theorem openInPlace_cases (exact : aead.Exact) (box : CryptoBox) (buf aad : List UInt8) :
    (box.plaintextOf aead buf aad = none ∧ box.openInPlace aead buf aad = .error .crypto) ∨
      ∃ plaintext rest, box.plaintextOf aead buf aad = some plaintext ∧
        box.openInPlace aead buf aad = .ok (plaintext.length, plaintext ++ rest) ∧
        (plaintext ++ rest).length = buf.length := by
  by_cases short : buf.length < NONCE_LEN + TAG_LEN
  · exact .inl ⟨if_pos short, if_pos short⟩
  · cases opened : box.plaintextOf aead buf aad with
    | none =>
        refine .inl ⟨rfl, ?_⟩
        simp only [plaintextOf, if_neg short] at opened
        simp only [openInPlace, if_neg short, opened]
    | some plaintext =>
        obtain ⟨long, length⟩ := length_plaintextOf exact opened
        simp only [plaintextOf, if_neg short] at opened
        refine .inr ⟨plaintext, (buf.take NONCE_LEN ++ plaintext ++
          (buf.drop NONCE_LEN).drop plaintext.length).drop plaintext.length, rfl, ?_, ?_⟩
        · simp only [openInPlace, if_neg short, opened, length]
        · simp only [List.length_append, List.length_drop, List.length_take, length]
          omega

theorem openedInPlace_eq (exact : aead.Exact) (box : CryptoBox) (buf aad : List UInt8) :
    box.openedInPlace aead buf aad = shown (box.plaintextOf aead buf aad) := by
  rcases openInPlace_cases exact box buf aad with ⟨closed, failed⟩ | ⟨plaintext, rest, opened, ran, -⟩
  · simp [openedInPlace, closed, failed, shown, Except.map]
  · simp [openedInPlace, opened, ran, shown, Except.map]

/-- Opening into a buffer that is large enough shows what opening in place shows. -/
theorem openedInto_eq (exact : aead.Exact) (box : CryptoBox) {envelope aad out : List UInt8}
    (room : envelope.length ≤ out.length + NONCE_LEN + TAG_LEN) :
    box.openedInto aead envelope aad out = shown (box.plaintextOf aead envelope aad) := by
  by_cases short : envelope.length < NONCE_LEN + TAG_LEN
  · simp [openedInto, openInto, plaintextOf, if_pos short, shown, Except.map]
  · have large : ¬ out.length < envelope.length - NONCE_LEN - TAG_LEN := by omega
    rcases openInPlace_cases exact box envelope aad with
      ⟨closed, failed⟩ | ⟨plaintext, rest, opened, ran, -⟩
    · simp [openedInto, openInto, short, large, closed, failed, shown, Except.map]
    · simp [openedInto, openInto, short, large, opened, ran, shown, Except.map]

theorem openedInto_of_small (box : CryptoBox) {envelope aad out : List UInt8}
    (small : out.length + NONCE_LEN + TAG_LEN < envelope.length) :
    box.openedInto aead envelope aad out = .error .bufferTooSmall := by
  have long : ¬ envelope.length < NONCE_LEN + TAG_LEN := by omega
  have tight : out.length < envelope.length - NONCE_LEN - TAG_LEN := by omega
  simp [openedInto, openInto, long, tight, Except.map]

end CryptoBox

namespace SecureBlock

variable {N : Nat}

/-- A block keeps the plaintext at the front of its buffer and the low 32 bits of its length. -/
structure Holds (block : SecureBlock N) (plaintext : List UInt8) : Prop where
  front : block.buf.toList.take plaintext.length = plaintext
  fits : plaintext.length ≤ N
  len : block.len = .ofNat plaintext.length

theorem Holds.asSlice_eq {block : SecureBlock N} {plaintext : List UInt8}
    (holds : block.Holds plaintext) :
    block.asSlice = plaintext.take (plaintext.length % 2 ^ 32) := by
  have low : plaintext.length % 2 ^ 32 ≤ plaintext.length := Nat.mod_le _ _
  calc block.asSlice
    _ = block.buf.toList.take (plaintext.length % 2 ^ 32) := by
        rw [asSlice, holds.len, UInt32.toNat_ofNat']
    _ = (block.buf.toList.take plaintext.length).take (plaintext.length % 2 ^ 32) := by
        rw [List.take_take, Nat.min_eq_left low]
    _ = plaintext.take (plaintext.length % 2 ^ 32) := by rw [holds.front]

theorem holds_overwrite (buf : Vector UInt8 N) {plaintext rest : List UInt8}
    (fits : (plaintext ++ rest).length ≤ N) :
    Holds ⟨overwrite buf (plaintext ++ rest), .ofNat plaintext.length⟩ plaintext := by
  have shorter : plaintext.length ≤ (plaintext ++ rest).length := by simp
  refine ⟨?_, Nat.le_trans shorter fits, rfl⟩
  have front := congrArg (List.take plaintext.length) (take_overwrite buf fits)
  rwa [List.take_take, Nat.min_eq_left shorter, List.take_left' rfl] at front

end SecureBlock

variable {aead : Aead} {N : Nat}

/-- The four outcomes of decrypting into a ring.  Only the last one touches the ring. -/
theorem decryptIntoRing_cases (exact : aead.Exact) (box : CryptoBox) (envelope aad : List UInt8)
    (ring : SpscRing (SecureBlock N)) :
    (N < envelope.length ∧
        decryptIntoRing aead box envelope aad ring = (.error .bufferTooSmall, ring)) ∨
      (box.plaintextOf aead envelope aad = none ∧
        decryptIntoRing aead box envelope aad ring = (.error .crypto, ring)) ∨
      (ring.capacity ≤ ring.items.length ∧
        decryptIntoRing aead box envelope aad ring = (.error .ringFull, ring)) ∨
      ∃ plaintext block pushed, envelope.length ≤ N ∧
        box.plaintextOf aead envelope aad = some plaintext ∧ block.Holds plaintext ∧
        decryptIntoRing aead box envelope aad ring = (.ok plaintext.length, pushed) ∧
        pushed.items = ring.items ++ [block] := by
  by_cases long : N < envelope.length
  · exact .inl ⟨long, if_pos long⟩
  · right
    have fits : envelope.length ≤ N := Nat.not_lt.mp long
    have copied := SecureBlock.take_overwrite (SecureBlock.new : SecureBlock N).buf fits
    rcases CryptoBox.openInPlace_cases exact box envelope aad with
      ⟨closed, failed⟩ | ⟨plaintext, rest, opened, ran, sameLength⟩
    · left
      refine ⟨closed, ?_⟩
      simp [decryptIntoRing, long, copied, failed]
    · right
      have workFits : (plaintext ++ rest).length ≤ N := by rwa [sameLength]
      have holds := SecureBlock.holds_overwrite
        (SecureBlock.overwrite (SecureBlock.new : SecureBlock N).buf envelope) workFits
      obtain ⟨block, filled⟩ : ∃ block : SecureBlock N, block =
          ⟨SecureBlock.overwrite (SecureBlock.overwrite SecureBlock.new.buf envelope)
            (plaintext ++ rest), .ofNat plaintext.length⟩ := ⟨_, rfl⟩
      rw [← filled] at holds
      cases result : ring.push block with
      | error refused =>
          left
          refine ⟨SpscRing.full_of_push result, ?_⟩
          simp [decryptIntoRing, long, copied, ran, ← filled, result]
      | ok pushed =>
          right
          refine ⟨plaintext, block, pushed, fits, opened, holds, ?_, SpscRing.items_of_push result⟩
          simp [decryptIntoRing, long, copied, ran, ← filled, result]

end Teleop.Sec
