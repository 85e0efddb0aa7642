import Teleop.Hal.MavParser

/-!
# Known messages of another length

The checksum of a known message is compared when the frame declares the length that the
dialect has for it, and only then.  A known message of any other length is accepted with
whatever checksum it carries.
-/

namespace Teleop.Hal

/-- The checksum of a returned frame is the one of its message, if that is a known one. -/
def Verified (buf : List UInt8) (frame : MavFrame) : Prop :=
  ∀ expectedLen extra, dialectFor frame.msgid = some (expectedLen, extra) →
    frame.crc = computedCrc frame.version buf extra

/-- A complete frame of a known message that declares another length than the dialect's, with
a wrong checksum. -/
def Unchecked (buf : List UInt8) : Prop :=
  ∃ version expectedLen extra, versionOf buf = some version ∧
    totalOf version buf ≤ buf.length ∧
    dialectFor (msgidOf version buf) = some (expectedLen, extra) ∧
    expectedLen.toNat ≠ payloadLenOf buf ∧
    computedCrc version buf extra ≠ trailingCrc version buf

section Parse

variable {buf : List UInt8} {frame : MavFrame}

/-- The comparison that is made lets a frame pass when it is right. -/
theorem crcFails_eq_false_iff {version expectedLen extra : UInt8}
    (known : dialectFor (msgidOf version buf) = some (expectedLen, extra)) :
    crcFails version buf = false ↔
      (expectedLen.toNat = payloadLenOf buf →
        computedCrc version buf extra = trailingCrc version buf) := by
  unfold crcFails
  rw [known]
  simp

theorem verified_of_parse (checked : ¬ Unchecked buf) (parsed : parseFrame buf = .ok frame) :
    Verified buf frame := by
  obtain ⟨version, announced, enough, passes, rfl⟩ := parseFrame_eq_ok_iff.mp parsed
  intro expectedLen extra known
  by_cases sameLength : expectedLen.toNat = payloadLenOf buf
  · exact ((crcFails_eq_false_iff known).mp passes sameLength).symm
  · by_contra wrong
    apply checked
    exact ⟨version, expectedLen, extra, announced, enough, known, sameLength,
      fun same => wrong same.symm⟩

/-- An unchecked frame is accepted. -/
theorem accepts_of_unchecked (unchecked : Unchecked buf) :
    ∃ frame, parseFrame buf = .ok frame ∧ ¬ Verified buf frame := by
  obtain ⟨version, expectedLen, extra, announced, enough, known, otherLength, wrong⟩ := unchecked
  have passes : crcFails version buf = false :=
    (crcFails_eq_false_iff known).mpr fun same => absurd same otherLength
  refine ⟨frameOf version buf,
    parseFrame_eq_ok_iff.mpr ⟨version, announced, enough, passes, rfl⟩, ?_⟩
  intro verified
  exact wrong (verified expectedLen extra known).symm

end Parse

namespace MavParser

/-- The bytes that `feed` hands to `parse_frame`. -/
def captured (parser : MavParser) (byte : UInt8) : Option (List UInt8) :=
  let stored := parser.write parser.len byte (parser.len + 1)
  if parser.len = 0 ∨ (parser.len > 1 ∧ IsMagic byte) ∨ parser.len ≥ parser.buf.length then none
  else if stored.len ≥ 2 ∧ stored.len ≥ stored.total then some (stored.buf.take stored.total)
  else none

variable {parser : MavParser}

theorem finish_snd (parser : MavParser) :
    parser.finish.2 =
      if parser.len ≥ 2 ∧ parser.len ≥ parser.total then
        (parseFrame (parser.buf.take parser.total)).toOption
      else none := by
  unfold finish
  split
  · cases parseFrame (parser.buf.take parser.total) <;> rfl
  · rfl

/-- `feed` returns what `parse_frame` makes of the captured bytes. -/
theorem feed_snd (parser : MavParser) (byte : UInt8) :
    (parser.feed byte).2 =
      (parser.captured byte).bind fun segment => (parseFrame segment).toOption := by
  unfold feed captured
  dsimp only
  by_cases idle : parser.len = 0
  · have early : parser.len = 0 ∨ (parser.len > 1 ∧ IsMagic byte) ∨
        parser.len ≥ parser.buf.length := .inl idle
    rw [if_pos idle, if_pos early]
    split <;> rfl
  · rw [if_neg idle]
    by_cases restarts : parser.len > 1 ∧ IsMagic byte
    · have early : parser.len = 0 ∨ (parser.len > 1 ∧ IsMagic byte) ∨
          parser.len ≥ parser.buf.length := .inr (.inl restarts)
      rw [if_pos restarts, if_pos early]
      rfl
    · rw [if_neg restarts]
      by_cases full : parser.len ≥ parser.buf.length
      · have early : parser.len = 0 ∨ (parser.len > 1 ∧ IsMagic byte) ∨
            parser.len ≥ parser.buf.length := .inr (.inr full)
        rw [if_pos full, if_pos early]
        rfl
      · have going : ¬ (parser.len = 0 ∨ (parser.len > 1 ∧ IsMagic byte) ∨
            parser.len ≥ parser.buf.length) := by
          simp only [not_or]
          exact ⟨idle, restarts, full⟩
        rw [if_neg full, if_neg going, finish_snd]
        split <;> rfl

/-- The captured bytes are the last ones of the stream. -/
def Follows (parser : MavParser) (stream : List UInt8) : Prop :=
  parser.buf.take parser.len <:+ stream

theorem Follows.store {stream : List UInt8} (follows : Follows parser stream)
    (room : parser.len < parser.buf.length) (byte : UInt8) :
    (parser.write parser.len byte (parser.len + 1)).Follows (stream ++ [byte]) := by
  have grown : (parser.write parser.len byte (parser.len + 1)).buf.take (parser.len + 1) <:+
      stream ++ [byte] := by
    obtain ⟨before, same⟩ := follows
    refine ⟨before, ?_⟩
    rw [take_write room, ← List.append_assoc, same]
  exact grown

theorem follows_restart (parser : MavParser) (stream : List UInt8) (byte : UInt8) :
    (parser.write 0 byte 1).Follows (stream ++ [byte]) := by
  have alone : (parser.write 0 byte (0 + 1)).buf.take (0 + 1) <:+ stream ++ [byte] := by
    rw [take_write (by rw [parser.sized]; exact Nat.succ_pos _)]
    exact List.suffix_append stream [byte]
  exact alone

theorem follows_of_len_eq_zero {stream : List UInt8} (idle : parser.len = 0) :
    Follows parser stream := by
  unfold Follows
  rw [idle]
  exact List.nil_suffix

theorem Follows.feed {stream : List UInt8} (follows : Follows parser stream) (byte : UInt8) :
    (parser.feed byte).1.Follows (stream ++ [byte]) := by
  unfold MavParser.feed
  split
  · rename_i idle
    split
    · exact follows_restart parser stream byte
    · exact follows_of_len_eq_zero idle
  · split
    · exact follows_restart parser stream byte
    · split
      · exact follows_of_len_eq_zero rfl
      · rename_i room
        have stored := follows.store (Nat.lt_of_not_le room) byte
        rcases finish_cases (parser.write parser.len byte (parser.len + 1)) with
          ⟨frame, _, _, _, finished⟩ | finished
        · rw [finished]
          exact follows_of_len_eq_zero rfl
        · rw [finished]
          exact stored

theorem Follows.feedAll {past : List UInt8} (follows : Follows parser past)
    (bytes : List UInt8) : (parser.feedAll bytes).1.Follows (past ++ bytes) := by
  induction bytes generalizing parser past with
  | nil =>
      rw [List.append_nil]
      exact follows
  | cons byte rest inductionHypothesis =>
      rw [List.append_cons]
      exact inductionHypothesis (follows.feed byte)

/-- What is handed to `parse_frame` was received in a row. -/
theorem captured_infix {stream segment : List UInt8} {byte : UInt8}
    (follows : Follows parser stream) (handed : parser.captured byte = some segment) :
    segment <:+: stream ++ [byte] := by
  unfold captured at handed
  dsimp only at handed
  split at handed
  · cases handed
  · rename_i going
    split at handed
    · rename_i complete
      cases handed
      have stored := follows.store (by omega) byte
      have within : (parser.write parser.len byte (parser.len + 1)).total ≤ parser.len + 1 :=
        complete.2
      rw [← Nat.min_eq_left within, ← List.take_take]
      exact (List.take_prefix _ _).isInfix.trans stored.isInfix
    · cases handed

end MavParser

/-- A buffer never yields an unverified frame of a known message exactly when it is no unchecked
one; and the streaming parser yields none exactly when what it has captured is none. -/
theorem verified_iff_not_unchecked (buf stream : List UInt8) (byte : UInt8) :
    ((∀ frame, parseFrame buf = .ok frame → Verified buf frame) ↔ ¬ Unchecked buf) ∧
      ((∀ frame, ((MavParser.new.feedAll stream).1.feed byte).2 = some frame →
          ∃ segment, (MavParser.new.feedAll stream).1.captured byte = some segment ∧
            segment <:+: stream ++ [byte] ∧ parseFrame segment = .ok frame ∧
            Verified segment frame) ↔
        ∀ segment, (MavParser.new.feedAll stream).1.captured byte = some segment →
          ¬ Unchecked segment) := by
  constructor
  · constructor
    · intro verified unchecked
      obtain ⟨frame, parsed, unverified⟩ := accepts_of_unchecked unchecked
      exact unverified (verified frame parsed)
    · intro checked frame parsed
      exact verified_of_parse checked parsed
  · have follows : (MavParser.new.feedAll stream).1.Follows ([] ++ stream) :=
      MavParser.Follows.feedAll (MavParser.follows_of_len_eq_zero rfl) stream
    rw [List.nil_append] at follows
    constructor
    · intro verified segment handed unchecked
      obtain ⟨frame, parsed, unverified⟩ := accepts_of_unchecked unchecked
      have returned : ((MavParser.new.feedAll stream).1.feed byte).2 = some frame := by
        rw [MavParser.feed_snd, handed, Option.bind_some, parsed]
        rfl
      obtain ⟨same, handedToo, _, _, frameVerified⟩ := verified frame returned
      cases handed.symm.trans handedToo
      exact unverified frameVerified
    · intro checked frame returned
      rw [MavParser.feed_snd] at returned
      obtain ⟨segment, handed, parsed⟩ := Option.bind_eq_some_iff.mp returned
      have accepted : parseFrame segment = .ok frame := by
        cases result : parseFrame segment with
        | error e =>
            rw [result] at parsed
            cases parsed
        | ok other =>
            rw [result] at parsed
            cases parsed
            rfl
      exact ⟨segment, handed, MavParser.captured_infix follows handed, accepted,
        verified_of_parse (checked segment handed) accepted⟩

/-- A heartbeat of one byte, with the checksum 256. -/
theorem shortHeartbeat_accepted :
    ∃ frame, parseFrame [0xFE, 1, 1, 0, 1, 0, 0, 0, 1] = .ok frame ∧ frame.msgid = 0 ∧
      ¬ Verified [0xFE, 1, 1, 0, 1, 0, 0, 0, 1] frame := by
  refine ⟨frameOf 1 [0xFE, 1, 1, 0, 1, 0, 0, 0, 1], by decide +kernel, rfl, ?_⟩
  intro verified
  exact absurd (verified 9 50 (by decide)) (by decide +kernel)

end Teleop.Hal
