import Teleop.Sec.Link
import Teleop.Sec.Nonces

/-!
# Agreement of the opening paths

An envelope is opened into a buffer, in place, or inside the block that goes into a ring.
The three paths show one plaintext or all fail, with one exception: a block keeps the length
of its plaintext in 32 bits.
-/

namespace Teleop.Sec

open Teleop.Core Teleop.Lib Teleop.Link Teleop.Ring

/-- No sealed message is accepted under both associated data. -/
def Aead.Separates (aead : Aead) (first second : List UInt8) : Prop :=
  ∀ {suite key nonce ciphertext tag plaintext},
    aead.decrypt suite key nonce first ciphertext tag = some plaintext →
      aead.decrypt suite key nonce second ciphertext tag = none

/-- What the two ends of a session share. -/
structure CryptoBox.SameKey (box other : CryptoBox) : Prop where
  suite : other.suite = box.suite
  key : other.key = box.key

namespace CryptoBox.SameKey

variable {first second third : CryptoBox}

theorem trans (left : first.SameKey second) (right : second.SameKey third) :
    first.SameKey third :=
  ⟨right.suite.trans left.suite, right.key.trans left.key⟩

theorem symm (same : first.SameKey second) : second.SameKey first :=
  ⟨same.suite.symm, same.key.symm⟩

theorem plaintextOf_eq {aead : Aead} (same : first.SameKey second) (envelope aad : List UInt8) :
    second.plaintextOf aead envelope aad = first.plaintextOf aead envelope aad := by
  simp only [CryptoBox.plaintextOf, same.suite, same.key]

end CryptoBox.SameKey

/-- The secure channel with blocks of `N` bytes does what its callers rely on. -/
structure Faithful (p : Primitives) (N : Nat) : Prop where
  /-- Sealing adds 28 bytes, into a vector or into the front of a buffer. -/
  seals : ∀ (box : CryptoBox) {plaintext aad : List UInt8},
    (p.aead.encrypt box.suite box.key box.nextNonce.1 aad plaintext).isSome →
      ∃ envelope, (box.sealToVec p.aead plaintext aad).1 = .ok envelope ∧
        envelope.length = plaintext.length + 28 ∧
        ∀ out, envelope.length ≤ out.length → (box.sealInto p.aead plaintext aad out).1 =
          .ok (envelope.length, envelope ++ out.drop envelope.length)
  /-- All paths show the plaintext that was sealed at the other end. -/
  opens : ∀ {box other : CryptoBox} {plaintext aad envelope : List UInt8}, box.SameKey other →
    (box.sealToVec p.aead plaintext aad).1 = .ok envelope →
      other.openedInPlace p.aead envelope aad = .ok (plaintext.length, plaintext) ∧
      (∀ out, plaintext.length ≤ out.length →
        other.openedInto p.aead envelope aad out = .ok (plaintext.length, plaintext)) ∧
      ∀ ring : SpscRing (SecureBlock N), envelope.length ≤ N →
        ring.items.length < ring.capacity →
          other.openedIntoRing p.aead envelope aad ring = .ok (plaintext.length, plaintext)
  /-- Whatever the bytes are, the paths agree unless a destination is too small or full. -/
  agree : ∀ (box : CryptoBox) (bytes aad out : List UInt8) (ring : SpscRing (SecureBlock N)),
    (box.openedInto p.aead bytes aad out = .error .bufferTooSmall ∨
      box.openedInto p.aead bytes aad out = box.openedInPlace p.aead bytes aad) ∧
    (box.openedIntoRing p.aead bytes aad ring = .error .bufferTooSmall ∨
      box.openedIntoRing p.aead bytes aad ring = .error .ringFull ∨
      box.openedIntoRing p.aead bytes aad ring = box.openedInPlace p.aead bytes aad)
  /-- An envelope opens only in the domain it was sealed in, as an event of the service. -/
  eventDomains : ∀ {box other : CryptoBox} {plaintext envelope : List UInt8} {inner : UInt8}
    {ring : SpscRing (SecureBlock N)} {n : Nat}, box.SameKey other →
    (decryptEventIntoRing p.aead other envelope inner ring).1 = .ok n →
      ((box.sealToVec p.aead plaintext AAD_CONTROL).1 = .ok envelope →
        inner ≠ SecureInner.TELEMETRY) ∧
      ((box.sealToVec p.aead plaintext AAD_TELEMETRY).1 = .ok envelope →
        inner = SecureInner.TELEMETRY)
  /-- The same for a datagram that a secure mux receives. -/
  muxDomains : ∀ {archive : Archive Command 56}
    {telemetry : List UInt8 → Option (TelemetryPacket UInt32)} {box : CryptoBox}
    {mux : SecureMux} {plaintext envelope bytes : List UInt8} {source sender : SocketAddr}
    {inner : UInt8} {ring : SpscRing (SecureBlock N)}, box.SameKey mux.session.crypto →
    recvFrame archive telemetry bytes source = .ok (.secure envelope sender inner) →
    (mux.recvDecrypt p archive telemetry (some (bytes, source)) ring).1 ≠ 0 →
      ((box.sealToVec p.aead plaintext AAD_CONTROL).1 = .ok envelope →
        inner ≠ SecureInner.TELEMETRY) ∧
      ((box.sealToVec p.aead plaintext AAD_TELEMETRY).1 = .ok envelope →
        inner = SecureInner.TELEMETRY)
  /-- A failure leaves the ring alone. -/
  failing : ∀ (box : CryptoBox) {envelope aad : List UInt8} {ring : SpscRing (SecureBlock N)}
    {failure : SecError}, (decryptIntoRing p.aead box envelope aad ring).1 = .error failure →
      (decryptIntoRing p.aead box envelope aad ring).2 = ring

section Sealing

variable {aead : Aead} {box : CryptoBox} {plaintext aad : List UInt8}

/-- Both sealing calls write the same envelope. -/
theorem seals_of_encrypt {ciphertext tag : List UInt8}
    (encrypted : aead.encrypt box.suite box.key box.nextNonce.1 aad plaintext =
      some (ciphertext, tag)) :
    (box.sealToVec aead plaintext aad).1 = .ok (box.nextNonce.1 ++ (ciphertext ++ tag)) ∧
      (box.nextNonce.1 ++ (ciphertext ++ tag)).length = plaintext.length + 28 ∧
      ∀ out : List UInt8, (box.nextNonce.1 ++ (ciphertext ++ tag)).length ≤ out.length →
        (box.sealInto aead plaintext aad out).1 =
          .ok ((box.nextNonce.1 ++ (ciphertext ++ tag)).length,
            box.nextNonce.1 ++ (ciphertext ++ tag) ++
              out.drop (box.nextNonce.1 ++ (ciphertext ++ tag)).length) := by
  obtain ⟨sameLength, tagLength⟩ := aead.length_encrypt encrypted
  have total : (box.nextNonce.1 ++ (ciphertext ++ tag)).length =
      NONCE_LEN + plaintext.length + TAG_LEN := by
    simp only [List.length_append, CryptoBox.length_nextNonce, sameLength, tagLength]
    omega
  refine ⟨?_, ?_, ?_⟩
  · have cut : (box.nextNonce.1 ++ ciphertext ++ tag).take
        (NONCE_LEN + plaintext.length + TAG_LEN) = box.nextNonce.1 ++ (ciphertext ++ tag) := by
      rw [List.append_assoc]
      exact List.take_of_length_le (Nat.le_of_eq total)
    simpa [CryptoBox.sealToVec, CryptoBox.sealInto, encrypted] using cut
  · rw [total]
    simp only [NONCE_LEN, TAG_LEN]
    omega
  · intro out room
    rw [total] at room ⊢
    simp [CryptoBox.sealInto, encrypted, Nat.not_lt.mpr room]

/-- The plaintext of what was sealed under the same key. -/
theorem plaintextOf_sealToVec {other : CryptoBox} {envelope : List UInt8}
    (same : box.SameKey other) (ran : (box.sealToVec aead plaintext aad).1 = .ok envelope)
    (domain : List UInt8) : ∃ nonce ciphertext tag,
      aead.encrypt box.suite box.key nonce aad plaintext = some (ciphertext, tag) ∧
        other.plaintextOf aead envelope domain =
          aead.decrypt box.suite box.key nonce domain ciphertext tag := by
  obtain ⟨ciphertext, tag, encrypted, rfl⟩ := CryptoBox.sealToVec_eq_ok ran
  obtain ⟨sameLength, tagLength⟩ := aead.length_encrypt encrypted
  refine ⟨box.nextNonce.1, ciphertext, tag, encrypted, ?_⟩
  have total : (box.nextNonce.1 ++ (ciphertext ++ tag)).length =
      NONCE_LEN + plaintext.length + TAG_LEN := by
    simp only [List.length_append, CryptoBox.length_nextNonce, sameLength, tagLength]
    omega
  have long : ¬ (box.nextNonce.1 ++ (ciphertext ++ tag)).length < NONCE_LEN + TAG_LEN := by
    omega
  have ptLen : (box.nextNonce.1 ++ (ciphertext ++ tag)).length - NONCE_LEN - TAG_LEN =
      ciphertext.length := by
    omega
  simp only [CryptoBox.plaintextOf, if_neg long, ptLen, same.suite, same.key,
    List.take_left' (CryptoBox.length_nextNonce box),
    List.drop_left' (CryptoBox.length_nextNonce box), List.take_left, List.drop_left]

theorem plaintextOf_of_sealToVec {other : CryptoBox} {envelope : List UInt8}
    (same : box.SameKey other) (ran : (box.sealToVec aead plaintext aad).1 = .ok envelope) :
    other.plaintextOf aead envelope aad = some plaintext := by
  obtain ⟨nonce, ciphertext, tag, encrypted, opened⟩ := plaintextOf_sealToVec same ran aad
  rw [opened, aead.decrypt_encrypt encrypted]

end Sealing

section Opening

variable {p : Primitives} {aead : Aead} {N : Nat}

/-- The ring path shows the plaintext cut to the low 32 bits of its length. -/
theorem openedIntoRing_cases (exact : aead.Exact) (box : CryptoBox) (envelope aad : List UInt8)
    (ring : SpscRing (SecureBlock N)) :
    (N < envelope.length ∧ box.openedIntoRing aead envelope aad ring = .error .bufferTooSmall) ∨
      (ring.capacity ≤ ring.items.length ∧
        box.openedIntoRing aead envelope aad ring = .error .ringFull) ∨
      (box.plaintextOf aead envelope aad = none ∧
        box.openedIntoRing aead envelope aad ring = .error .crypto) ∨
      ∃ plaintext, envelope.length ≤ N ∧
        box.plaintextOf aead envelope aad = some plaintext ∧
        box.openedIntoRing aead envelope aad ring =
          .ok (plaintext.length, plaintext.take (plaintext.length % 2 ^ 32)) := by
  rcases decryptIntoRing_cases exact box envelope aad ring with
    ⟨long, ran⟩ | ⟨closed, ran⟩ | ⟨full, ran⟩ |
      ⟨plaintext, block, pushed, fits, opened, holds, ran, items⟩
  · exact .inl ⟨long, by simp [CryptoBox.openedIntoRing, ran]⟩
  · exact .inr (.inr (.inl ⟨closed, by simp [CryptoBox.openedIntoRing, ran]⟩))
  · exact .inr (.inl ⟨full, by simp [CryptoBox.openedIntoRing, ran]⟩)
  · refine .inr (.inr (.inr ⟨plaintext, fits, opened, ?_⟩))
    simp [CryptoBox.openedIntoRing, ran, items, holds.asSlice_eq]

/-- A block shorter than 4 GiB cuts nothing off. -/
theorem take_of_small (exact : aead.Exact) (small : N < 2 ^ 32 + 28) {box : CryptoBox}
    {envelope aad plaintext : List UInt8} (fits : envelope.length ≤ N)
    (opened : box.plaintextOf aead envelope aad = some plaintext) :
    plaintext.take (plaintext.length % 2 ^ 32) = plaintext := by
  obtain ⟨long, length⟩ := CryptoBox.length_plaintextOf exact opened
  have low : plaintext.length < 2 ^ 32 := by
    simp only [NONCE_LEN, TAG_LEN] at long length
    omega
  rw [Nat.mod_eq_of_lt low, List.take_length]

theorem openedInto_agrees (exact : aead.Exact) (box : CryptoBox) (bytes aad out : List UInt8) :
    box.openedInto aead bytes aad out = .error .bufferTooSmall ∨
      box.openedInto aead bytes aad out = box.openedInPlace aead bytes aad := by
  by_cases room : bytes.length ≤ out.length + NONCE_LEN + TAG_LEN
  · right
    rw [CryptoBox.openedInto_eq exact box room, CryptoBox.openedInPlace_eq exact]
  · left
    exact CryptoBox.openedInto_of_small box (Nat.not_le.mp room)

theorem openedIntoRing_agrees (exact : aead.Exact) (small : N < 2 ^ 32 + 28) (box : CryptoBox)
    (bytes aad : List UInt8) (ring : SpscRing (SecureBlock N)) :
    box.openedIntoRing aead bytes aad ring = .error .bufferTooSmall ∨
      box.openedIntoRing aead bytes aad ring = .error .ringFull ∨
      box.openedIntoRing aead bytes aad ring = box.openedInPlace aead bytes aad := by
  rcases openedIntoRing_cases exact box bytes aad ring with
    ⟨-, ran⟩ | ⟨-, ran⟩ | ⟨closed, ran⟩ | ⟨plaintext, fits, opened, ran⟩
  · exact .inl ran
  · exact .inr (.inl ran)
  · right; right
    rw [ran, CryptoBox.openedInPlace_eq exact, closed, CryptoBox.shown]
  · right; right
    rw [ran, CryptoBox.openedInPlace_eq exact, opened, CryptoBox.shown,
      take_of_small exact small fits opened]

/-- A call that returns a length has decrypted the envelope. -/
theorem plaintextOf_of_decryptIntoRing (exact : aead.Exact) {box : CryptoBox}
    {envelope aad : List UInt8} {ring : SpscRing (SecureBlock N)} {n : Nat}
    (ran : (decryptIntoRing aead box envelope aad ring).1 = .ok n) :
    (box.plaintextOf aead envelope aad).isSome := by
  rcases decryptIntoRing_cases exact box envelope aad ring with
    ⟨-, failed⟩ | ⟨-, failed⟩ | ⟨-, failed⟩ | ⟨plaintext, -, -, -, opened, -⟩
  · simp [failed] at ran
  · simp [failed] at ran
  · simp [failed] at ran
  · simp [opened]

/-- An envelope of one domain is not opened with the associated data of the other. -/
theorem closed_in_other_domain {first second : List UInt8} (separates : aead.Separates first second)
    {box other : CryptoBox} {plaintext envelope : List UInt8} (same : box.SameKey other)
    (ran : (box.sealToVec aead plaintext first).1 = .ok envelope) :
    other.plaintextOf aead envelope second = none := by
  obtain ⟨nonce, ciphertext, tag, encrypted, opened⟩ := plaintextOf_sealToVec same ran second
  rw [opened]
  exact separates (aead.decrypt_encrypt encrypted)

theorem Aead.Separates.symm {first second : List UInt8} (separates : aead.Separates first second) :
    aead.Separates second first := by
  intro suite key nonce ciphertext tag plaintext opened
  cases other : aead.decrypt suite key nonce first ciphertext tag with
  | none => rfl
  | some plaintext' => simp [separates other] at opened

/-- The tag a sealed envelope opens with names the domain it was sealed in. -/
theorem inner_of_opened (separates : aead.Separates AAD_CONTROL AAD_TELEMETRY)
    {box other : CryptoBox} {plaintext envelope : List UInt8} {inner : UInt8}
    (same : box.SameKey other)
    (opened : (other.plaintextOf aead envelope (aadFor inner)).isSome) :
    ((box.sealToVec aead plaintext AAD_CONTROL).1 = .ok envelope →
        inner ≠ SecureInner.TELEMETRY) ∧
      ((box.sealToVec aead plaintext AAD_TELEMETRY).1 = .ok envelope →
        inner = SecureInner.TELEMETRY) := by
  constructor
  · intro control telemetry
    rw [aadFor_eq_telemetry.mpr telemetry, closed_in_other_domain separates same control] at opened
    cases opened
  · intro telemetry
    by_contra control
    rw [aadFor_eq_control.mpr control,
      closed_in_other_domain separates.symm same telemetry] at opened
    cases opened

/-- A secure mux that pushes a block has decrypted the envelope of the datagram. -/
theorem plaintextOf_of_recvDecrypt (exact : p.aead.Exact) {archive : Archive Command 56}
    {telemetry : List UInt8 → Option (TelemetryPacket UInt32)} {mux : SecureMux}
    {envelope bytes : List UInt8} {source sender : SocketAddr} {inner : UInt8}
    {ring : SpscRing (SecureBlock N)}
    (received : recvFrame archive telemetry bytes source = .ok (.secure envelope sender inner))
    (pushed : (mux.recvDecrypt p archive telemetry (some (bytes, source)) ring).1 ≠ 0) :
    (mux.session.crypto.plaintextOf p.aead envelope (aadFor inner)).isSome := by
  simp only [SecureMux.recvDecrypt, received] at pushed
  cases ran : decryptIntoRing p.aead mux.session.crypto envelope (aadFor inner) ring with
  | mk result next =>
      cases result with
      | error failure => simp [ran] at pushed
      | ok n => exact plaintextOf_of_decryptIntoRing exact (congrArg Prod.fst ran)

theorem decryptIntoRing_failing (exact : aead.Exact) (box : CryptoBox)
    {envelope aad : List UInt8} {ring : SpscRing (SecureBlock N)} {failure : SecError}
    (failed : (decryptIntoRing aead box envelope aad ring).1 = .error failure) :
    (decryptIntoRing aead box envelope aad ring).2 = ring := by
  rcases decryptIntoRing_cases exact box envelope aad ring with
    ⟨-, ran⟩ | ⟨-, ran⟩ | ⟨-, ran⟩ | ⟨plaintext, block, pushed, -, -, -, ran, -⟩
  · rw [ran]
  · rw [ran]
  · rw [ran]
  · simp [ran] at failed

end Opening

section Faithfulness

variable {p : Primitives} {N : Nat}

theorem opens_of_small (exact : p.aead.Exact) (small : N < 2 ^ 32 + 28) {box other : CryptoBox}
    {plaintext aad envelope : List UInt8} (same : box.SameKey other)
    (ran : (box.sealToVec p.aead plaintext aad).1 = .ok envelope) :
    other.openedInPlace p.aead envelope aad = .ok (plaintext.length, plaintext) ∧
      (∀ out, plaintext.length ≤ out.length →
        other.openedInto p.aead envelope aad out = .ok (plaintext.length, plaintext)) ∧
      ∀ ring : SpscRing (SecureBlock N), envelope.length ≤ N →
        ring.items.length < ring.capacity →
          other.openedIntoRing p.aead envelope aad ring = .ok (plaintext.length, plaintext) := by
  have opened := plaintextOf_of_sealToVec same ran
  have inPlace : other.openedInPlace p.aead envelope aad = .ok (plaintext.length, plaintext) := by
    rw [CryptoBox.openedInPlace_eq exact, opened, CryptoBox.shown]
  obtain ⟨long, length⟩ := CryptoBox.length_plaintextOf exact opened
  refine ⟨inPlace, ?_, ?_⟩
  · intro out room
    rw [CryptoBox.openedInto_eq exact other (by omega), opened, CryptoBox.shown]
  · intro ring fits room
    rcases openedIntoRing_cases exact other envelope aad ring with
      ⟨large, -⟩ | ⟨full, -⟩ | ⟨closed, -⟩ | ⟨plaintext', -, opened', shown⟩
    · exact absurd fits (Nat.not_le.mpr large)
    · exact absurd room (Nat.not_lt.mpr full)
    · rw [opened] at closed
      cases closed
    · cases opened.symm.trans opened'
      rw [shown, take_of_small exact small fits opened]

/-- A block that can hold 4 GiB shows nothing of a plaintext of that length. -/
theorem openedIntoRing_of_huge (exact : p.aead.Exact) (large : 2 ^ 32 + 28 ≤ N)
    {box other : CryptoBox} {plaintext aad envelope : List UInt8} (same : box.SameKey other)
    (huge : plaintext.length = 2 ^ 32)
    (ran : (box.sealToVec p.aead plaintext aad).1 = .ok envelope)
    (ring : SpscRing (SecureBlock N)) (room : ring.items.length < ring.capacity) :
    other.openedIntoRing p.aead envelope aad ring = .ok (2 ^ 32, []) := by
  have opened := plaintextOf_of_sealToVec same ran
  obtain ⟨long, length⟩ := CryptoBox.length_plaintextOf exact opened
  rcases openedIntoRing_cases exact other envelope aad ring with
    ⟨exceeds, -⟩ | ⟨full, -⟩ | ⟨closed, -⟩ | ⟨plaintext', -, opened', shown⟩
  · simp only [NONCE_LEN, TAG_LEN] at long length
    omega
  · exact absurd room (Nat.not_lt.mpr full)
  · rw [opened] at closed
    cases closed
  · cases opened.symm.trans opened'
    rw [shown, huge, Nat.mod_self, List.take_zero]

theorem sealToVec_of_encrypts {aead : Aead} {bound : Nat} (encrypts : aead.Encrypts bound)
    (box : CryptoBox) (plaintext aad : List UInt8) (short : plaintext.length ≤ bound)
    (shortAad : aad.length ≤ bound) :
    ∃ envelope, (box.sealToVec aead plaintext aad).1 = .ok envelope := by
  obtain ⟨⟨ciphertext, tag⟩, encrypted⟩ := Option.isSome_iff_exists.mp
    (encrypts box.suite box.key box.nextNonce.1 aad plaintext short shortAad)
  exact ⟨_, (seals_of_encrypt encrypted).1⟩

/-- Blocks of 4 GiB and the overhead of an envelope are too large. -/
theorem not_faithful (exact : p.aead.Exact) (encrypts : p.aead.Encrypts (2 ^ 32))
    (large : 2 ^ 32 + 28 ≤ N) : ¬ Faithful p N := by
  intro faithful
  obtain ⟨plaintext, huge⟩ : ∃ plaintext : List UInt8, plaintext.length = 2 ^ 32 :=
    ⟨List.replicate (2 ^ 32) 0, List.length_replicate⟩
  obtain ⟨box⟩ : Nonempty CryptoBox :=
    ⟨⟨.aes256Gcm, Vector.replicate 32 0, 0, Vector.replicate 4 0⟩⟩
  obtain ⟨envelope, ran⟩ :=
    sealToVec_of_encrypts encrypts box plaintext [] (Nat.le_of_eq huge) (Nat.zero_le _)
  obtain ⟨long, length⟩ := CryptoBox.length_plaintextOf exact
    (plaintextOf_of_sealToVec ⟨rfl, rfl⟩ ran)
  obtain ⟨ring, room⟩ : ∃ ring : SpscRing (SecureBlock N), ring.items.length < ring.capacity :=
    ⟨⟨1, [], Nat.zero_le 1⟩, Nat.zero_lt_one⟩
  have fits : envelope.length ≤ N := by
    simp only [NONCE_LEN, TAG_LEN] at long length
    omega
  have kept := (faithful.opens ⟨rfl, rfl⟩ ran).2.2 ring fits room
  rw [openedIntoRing_of_huge exact large ⟨rfl, rfl⟩ huge ran ring room] at kept
  injection kept with same
  have empty : [] = plaintext := congrArg Prod.snd same
  rw [← empty, List.length_nil] at huge
  omega

/-- The three opening paths agree, in every respect, exactly as long as the length of a block
fits its 32-bit field. -/
theorem faithful_iff (exact : p.aead.Exact)
    (separates : p.aead.Separates AAD_CONTROL AAD_TELEMETRY)
    (encrypts : p.aead.Encrypts (2 ^ 32)) : Faithful p N ↔ N < 2 ^ 32 + 28 := by
  constructor
  · intro faithful
    by_contra large
    exact not_faithful exact encrypts (Nat.not_lt.mp large) faithful
  · intro small
    exact {
      seals := by
        intro box plaintext aad encrypted
        obtain ⟨⟨ciphertext, tag⟩, encrypted⟩ := Option.isSome_iff_exists.mp encrypted
        exact ⟨_, seals_of_encrypt encrypted⟩
      opens := opens_of_small exact small
      agree := fun box bytes aad out ring => ⟨openedInto_agrees exact box bytes aad out,
        openedIntoRing_agrees exact small box bytes aad ring⟩
      eventDomains := fun same ran =>
        inner_of_opened separates same (plaintextOf_of_decryptIntoRing exact ran)
      muxDomains := fun same received pushed =>
        inner_of_opened separates same (plaintextOf_of_recvDecrypt exact received pushed)
      failing := fun box => decryptIntoRing_failing exact box }

end Faithfulness

namespace Symbolic

theorem markedAead_exact : markedAead.Exact := by
  intro suite key nonce aad ciphertext tag plaintext opened
  simp only [markedAead] at opened ⊢
  split at opened
  · rename_i same
    cases opened
    rw [same]
  · cases opened

theorem markedAead_encrypts (bound : Nat) : markedAead.Encrypts bound := by
  intro suite key nonce aad plaintext short shortAad
  rfl

theorem markedAead_separates : markedAead.Separates AAD_CONTROL AAD_TELEMETRY := by
  intro suite key nonce ciphertext tag plaintext opened
  simp only [markedAead] at opened ⊢
  split at opened
  · rename_i control
    apply if_neg
    intro telemetry
    have heads := congrArg List.head? (control.symm.trans telemetry)
    revert heads
    simp only [markedTag, List.head?_cons, Option.some.injEq]
    decide
  · cases opened

def markedPrimitives : Primitives := { primitives with aead := markedAead }

def markedBox : CryptoBox := ⟨.aes256Gcm, Vector.replicate 32 1, 0, Vector.replicate 4 7⟩

/-- A plaintext of 2^32 bytes that fits the block is pushed as a block of length 0. -/
theorem huge_plaintext_lost :
    (∃ envelope, (markedBox.sealToVec markedAead (List.replicate (2 ^ 32) 0) []).1 =
        .ok envelope ∧
      markedBox.openedInPlace markedAead envelope [] =
        .ok (2 ^ 32, List.replicate (2 ^ 32) 0) ∧
      markedBox.openedIntoRing markedAead envelope []
        (⟨1, [], Nat.zero_le 1⟩ : SpscRing (SecureBlock (2 ^ 32 + 28))) = .ok (2 ^ 32, [])) ∧
    ¬ ∀ N, Faithful markedPrimitives N := by
  constructor
  · have huge : (List.replicate (2 ^ 32) (0 : UInt8)).length = 2 ^ 32 := List.length_replicate
    obtain ⟨envelope, ran⟩ := sealToVec_of_encrypts (markedAead_encrypts (2 ^ 32)) markedBox
      _ [] (Nat.le_of_eq huge) (Nat.zero_le _)
    refine ⟨envelope, ran, ?_, ?_⟩
    · rw [CryptoBox.openedInPlace_eq markedAead_exact, plaintextOf_of_sealToVec ⟨rfl, rfl⟩ ran,
        CryptoBox.shown, huge]
    · exact openedIntoRing_of_huge (p := markedPrimitives) markedAead_exact (Nat.le_refl _)
        ⟨rfl, rfl⟩ huge ran _ Nat.zero_lt_one
  · intro faithful
    exact not_faithful (p := markedPrimitives) markedAead_exact (markedAead_encrypts _)
      (Nat.le_refl _) (faithful (2 ^ 32 + 28))

theorem faithful_default_block : Faithful markedPrimitives MAX_SECURE_BLOCK :=
  (faithful_iff markedAead_exact markedAead_separates (markedAead_encrypts _)).mpr (by decide)

end Symbolic

end Teleop.Sec
