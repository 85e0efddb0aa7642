import Mathlib.Data.List.Infix
import Teleop.Hal.Mavlink

/-!
# The streaming parser

Bytes arrive one by one in a fixed buffer and a frame is returned with its last byte.  Any
magic byte from the third byte of a frame on restarts the capture, also one that belongs to
the frame, so a frame passes exactly when it has none.
-/

namespace Teleop.Hal

/-- A byte that starts a capture. -/
def IsMagic (b : UInt8) : Prop := b = mavlink1Magic ∨ b = mavlink2Magic

instance decidableIsMagic (b : UInt8) : Decidable (IsMagic b) := by
  unfold IsMagic
  infer_instance

/-- The fixed buffer and how many bytes of it are captured. -/
structure MavParser where
  buf : List UInt8
  len : Nat
  sized : buf.length = mavlinkMaxPayload + 32

namespace MavParser

def new : MavParser where
  buf := List.replicate (mavlinkMaxPayload + 32) 0
  len := 0
  sized := List.length_replicate ..

/-- Write one byte and set the number of captured ones. -/
def write (parser : MavParser) (i : Nat) (byte : UInt8) (len : Nat) : MavParser where
  buf := parser.buf.set i byte
  len := len
  sized := by rw [List.length_set, parser.sized]

/-- The version the parser takes the captured frame for. -/
def version (parser : MavParser) : UInt8 :=
  if byteAt parser.buf 0 = mavlink1Magic then 1 else 2

/-- Length of the captured frame, once two bytes of it are there. -/
def total (parser : MavParser) : Nat := totalOf parser.version parser.buf

/-- Return the frame when its last byte is there. -/
def finish (parser : MavParser) : MavParser × Option MavFrame :=
  if parser.len ≥ 2 ∧ parser.len ≥ parser.total then
    match parseFrame (parser.buf.take parser.total) with
    | .ok frame => ({ parser with len := 0 }, some frame)
    | .error _ => (parser, none)
  else (parser, none)

/-- Feeds one byte. -/
def feed (parser : MavParser) (byte : UInt8) : MavParser × Option MavFrame :=
  if parser.len = 0 then
    if IsMagic byte then (parser.write 0 byte 1, none) else (parser, none)
  else if parser.len > 1 ∧ IsMagic byte then (parser.write 0 byte 1, none)
  else if parser.len ≥ parser.buf.length then ({ parser with len := 0 }, none)
  else (parser.write parser.len byte (parser.len + 1)).finish

/-- Feeds some bytes and returns what each of them completes. -/
def feedAll (parser : MavParser) : List UInt8 → MavParser × List (Option MavFrame)
  | [] => (parser, [])
  | byte :: rest =>
      let (parser, frame) := parser.feed byte
      let (parser, frames) := parser.feedAll rest
      (parser, frame :: frames)

variable {parser : MavParser}

theorem feedAll_append (parser : MavParser) (first second : List UInt8) :
    parser.feedAll (first ++ second) =
      (((parser.feedAll first).1.feedAll second).1,
        (parser.feedAll first).2 ++ ((parser.feedAll first).1.feedAll second).2) := by
  induction first generalizing parser with
  | nil => rfl
  | cons byte rest inductionHypothesis =>
      simp only [List.cons_append, feedAll, inductionHypothesis]

@[simp] theorem length_feedAll (parser : MavParser) (bytes : List UInt8) :
    (parser.feedAll bytes).2.length = bytes.length := by
  induction bytes generalizing parser with
  | nil => rfl
  | cons byte rest inductionHypothesis =>
      simp only [feedAll, List.length_cons, inductionHypothesis]

/-- What `finish` does: it returns the frame parsed from the captured bytes and starts anew, or
leaves the parser as it is. -/
theorem finish_cases (parser : MavParser) :
    (∃ frame, 2 ≤ parser.len ∧ parser.total ≤ parser.len ∧
        parseFrame (parser.buf.take parser.total) = .ok frame ∧
        parser.finish = ({ parser with len := 0 }, some frame)) ∨
      parser.finish = (parser, none) := by
  unfold finish
  split
  · rename_i complete
    cases parsed : parseFrame (parser.buf.take parser.total) with
    | ok frame => exact .inl ⟨frame, complete.1, complete.2, rfl, rfl⟩
    | error e => exact .inr rfl
  · exact .inr rfl

/-- One byte more is captured at most. -/
theorem len_feed_le (parser : MavParser) (byte : UInt8) :
    (parser.feed byte).1.len ≤ parser.len + 1 := by
  unfold feed
  split
  · split
    · exact Nat.le_add_left 1 _
    · exact Nat.le_succ _
  · split
    · exact Nat.le_add_left 1 _
    · split
      · exact Nat.zero_le _
      · rcases finish_cases (parser.write parser.len byte (parser.len + 1)) with
          ⟨frame, _, _, _, finished⟩ | finished
        · rw [finished]
          exact Nat.zero_le _
        · rw [finished]
          exact Nat.le_refl _

theorem len_feedAll_le (parser : MavParser) (bytes : List UInt8) :
    (parser.feedAll bytes).1.len ≤ parser.len + bytes.length := by
  induction bytes generalizing parser with
  | nil => exact Nat.le_refl _
  | cons byte rest inductionHypothesis =>
      have first := parser.len_feed_le byte
      have later := inductionHypothesis (parser.feed byte).1
      simp only [feedAll, List.length_cons]
      omega

/-- The length that the code gives a parsed frame. -/
def lengthOf (frame : MavFrame) : Nat :=
  frameLen frame.version frame.payloadLen.toNat (decide (frame.signed = 1))

theorem lengthOf_frameOf (version : UInt8) (buf : List UInt8) :
    lengthOf (frameOf version buf) = totalOf version buf := by
  have length : (UInt8.ofNat (payloadLenOf buf)).toNat = payloadLenOf buf :=
    UInt8.toNat_ofNat_of_lt' (byteAt buf 1).toNat_lt
  unfold lengthOf totalOf
  simp [frameOf, length]

/-- A returned frame is no longer than what was captured. -/
theorem lengthOf_of_feed {byte : UInt8} {frame : MavFrame}
    (returned : (parser.feed byte).2 = some frame) : lengthOf frame ≤ parser.len + 1 := by
  unfold feed at returned
  split at returned
  · split at returned <;> cases returned
  · split at returned
    · cases returned
    · split at returned
      · cases returned
      · rcases finish_cases (parser.write parser.len byte (parser.len + 1)) with
          ⟨parsedFrame, _, complete, parsed, finished⟩ | finished
        · rw [finished] at returned
          cases returned
          obtain ⟨version, _, enough, _, rfl⟩ := parseFrame_eq_ok_iff.mp parsed
          rw [lengthOf_frameOf]
          rw [List.length_take] at enough
          exact Nat.le_trans enough (Nat.le_trans (Nat.min_le_left _ _) complete)
        · rw [finished] at returned
          cases returned

/-- `parse_frame` accepts these bytes and they are no more than the frame. -/
structure Accepted (bytes : List UInt8) (frame : MavFrame) : Prop where
  parsed : parseFrame bytes = .ok frame
  whole : bytes.length = lengthOf frame

theorem Accepted.exists_version {bytes : List UInt8} {frame : MavFrame}
    (accepted : Accepted bytes frame) :
    ∃ version, versionOf bytes = some version ∧ totalOf version bytes = bytes.length := by
  obtain ⟨version, announced, _, _, rfl⟩ := parseFrame_eq_ok_iff.mp accepted.parsed
  exact ⟨version, announced, by rw [accepted.whole, lengthOf_frameOf]⟩

/-- The shortest frame has no payload, the longest one is signed. -/
theorem totalOf_bounds {version : UInt8} (known : version = 1 ∨ version = 2) (buf : List UInt8) :
    8 ≤ totalOf version buf ∧ totalOf version buf ≤ mavlinkMaxPayload + 26 := by
  have long := payloadLenOf_le buf
  unfold totalOf frameLen mavlink2SignatureLen
  rcases known with rfl | rfl
  · simp
    omega
  · simp
    split <;> omega

/-- The parser is in the middle of a frame of which it has captured these bytes. -/
structure Captures (parser : MavParser) (bytes : List UInt8) : Prop where
  len : parser.len = bytes.length
  content : parser.buf.take bytes.length = bytes

/-- The captured bytes are found in the buffer. -/
theorem Captures.byteAt {bytes : List UInt8} (captures : Captures parser bytes) {i : Nat}
    (inside : i < bytes.length) (later : List UInt8) :
    byteAt parser.buf i = byteAt (bytes ++ later) i := by
  have same := congrArg (·[i]?) captures.content
  rw [List.getElem?_take_of_lt inside] at same
  unfold Hal.byteAt
  rw [List.getD_eq_getElem?_getD, List.getD_eq_getElem?_getD, same,
    List.getElem?_append_left inside]

theorem take_write {i : Nat} (inside : i < parser.buf.length) (byte : UInt8) :
    (parser.write i byte (i + 1)).buf.take (i + 1) = parser.buf.take i ++ [byte] := by
  simp only [write]
  rw [List.take_add_one, List.take_set_of_le (Nat.le_refl _), List.getElem?_set_self inside]
  rfl

/-- A stored byte is captured behind the others. -/
theorem Captures.store {bytes : List UInt8} (captures : Captures parser bytes)
    (room : bytes.length < parser.buf.length) (byte : UInt8) :
    Captures (parser.write parser.len byte (parser.len + 1)) (bytes ++ [byte]) where
  len := by simp [write, captures.len]
  content := by
    rw [List.length_append, List.length_singleton, captures.len, take_write room,
      captures.content]

/-- Once the flags are captured, the parser knows the length of the frame; before it takes the
frame for a longer one than what it has. -/
theorem Captures.total {bytes later : List UInt8} {version : UInt8}
    (captures : Captures parser bytes) (announced : versionOf (bytes ++ later) = some version)
    (two : 2 ≤ bytes.length) :
    (3 ≤ bytes.length → parser.total = totalOf version (bytes ++ later)) ∧
      2 < parser.total := by
  have first := captures.byteAt (show 0 < bytes.length by omega) later
  have second := captures.byteAt (show 1 < bytes.length by omega) later
  have known := version_cases announced
  have same : parser.version = version := by
    unfold MavParser.version
    unfold versionOf at announced
    rw [first]
    split at announced
    · rename_i one
      rw [if_pos one]
      exact Option.some.inj announced
    · rename_i other
      rw [if_neg other]
      split at announced
      · exact Option.some.inj announced
      · cases announced
  unfold MavParser.total
  rw [same]
  refine ⟨?_, Nat.lt_of_lt_of_le (by decide) (totalOf_bounds known _).1⟩
  intro three
  have third := captures.byteAt (show 2 < bytes.length by omega) later
  unfold totalOf payloadLenOf signedOf
  rw [second, third]

/-- A byte of the frame that does not restart the capture is captured; the last one completes
the frame. -/
theorem Captures.feed {bytes later : List UInt8} {byte : UInt8} {frame : MavFrame}
    (captures : Captures parser bytes) (accepted : Accepted (bytes ++ byte :: later) frame)
    (started : bytes ≠ []) (passes : bytes.length = 1 ∨ ¬ IsMagic byte) :
    (later ≠ [] →
        ∃ next, parser.feed byte = (next, none) ∧ Captures next (bytes ++ [byte])) ∧
      (later = [] → ∃ next, parser.feed byte = (next, some frame) ∧ next.len = 0) := by
  obtain ⟨version, announced, length⟩ := accepted.exists_version
  have bounds := totalOf_bounds (version_cases announced) (bytes ++ byte :: later)
  have positive := List.length_pos_of_ne_nil started
  have size := parser.sized
  rw [length, List.length_append, List.length_cons] at bounds
  rw [List.append_cons] at announced length accepted
  have stored := captures.store (by omega) byte
  obtain ⟨known, longer⟩ := stored.total announced
    (by rw [List.length_append, List.length_singleton]; omega)
  have storedLen := stored.len
  rw [List.length_append, List.length_singleton] at known storedLen
  have current := captures.len
  have fed : parser.feed byte =
      (parser.write parser.len byte (parser.len + 1)).finish := by
    unfold MavParser.feed
    rw [if_neg (by omega), if_neg, if_neg (by omega)]
    rintro ⟨several, magic⟩
    rcases passes with one | clean
    · omega
    · exact clean magic
  rw [fed]
  unfold finish
  constructor
  · intro more
    have remaining := List.length_pos_of_ne_nil more
    have incomplete : ¬ ((parser.write parser.len byte (parser.len + 1)).len ≥ 2 ∧
        (parser.write parser.len byte (parser.len + 1)).len ≥
          (parser.write parser.len byte (parser.len + 1)).total) := by
      rintro ⟨_, complete⟩
      by_cases three : 3 ≤ bytes.length + 1
      · rw [known three, length, List.length_append, List.length_append,
          List.length_singleton] at complete
        omega
      · omega
    rw [if_neg incomplete]
    exact ⟨_, rfl, stored⟩
  · rintro rfl
    rw [List.append_nil] at announced length accepted known
    have total : (parser.write parser.len byte (parser.len + 1)).total =
        (bytes ++ [byte]).length := by
      rw [known (by rw [List.length_nil] at bounds; omega), length]
    rw [if_pos ⟨by omega, by rw [total, stored.len]⟩, total, stored.content, accepted.parsed]
    exact ⟨_, rfl, rfl⟩

/-- The outputs that a frame should have: itself, with its last byte. -/
def expected (bytes : List UInt8) (frame : MavFrame) : List (Option MavFrame) :=
  List.replicate (bytes.length - 1) none ++ [some frame]

/-- The bytes of a frame up to a magic byte, or up to the last one, are captured. -/
theorem Captures.feedAll {bytes clean later : List UInt8} {frame : MavFrame}
    (captures : Captures parser bytes) (accepted : Accepted (bytes ++ (clean ++ later)) frame)
    (two : 2 ≤ bytes.length) (more : later ≠ []) (unmarked : ∀ b ∈ clean, ¬ IsMagic b) :
    ∃ next, parser.feedAll clean = (next, List.replicate clean.length none) ∧
      Captures next (bytes ++ clean) := by
  induction clean generalizing parser bytes with
  | nil => exact ⟨parser, rfl, by rw [List.append_nil]; exact captures⟩
  | cons byte rest inductionHypothesis =>
      have started : bytes ≠ [] := List.ne_nil_of_length_pos (by omega)
      obtain ⟨next, fed, stored⟩ := (captures.feed accepted started
        (.inr (unmarked byte List.mem_cons_self))).1 (by simp [more])
      rw [List.cons_append, List.append_cons] at accepted
      obtain ⟨final, all, content⟩ := inductionHypothesis stored accepted
        (by rw [List.length_append]; omega)
        fun b among => unmarked b (List.mem_cons_of_mem _ among)
      refine ⟨final, ?_, ?_⟩
      · simp only [MavParser.feedAll, fed, all]
        rfl
      · rw [List.append_cons]
        exact content

/-- A parser that does not wait for a length byte captures the first two bytes of a frame,
whatever it has captured before and whatever the second one is. -/
theorem captures_two {first second : UInt8} {rest : List UInt8} {frame : MavFrame}
    (ready : parser.len ≠ 1) (accepted : Accepted (first :: second :: rest) frame)
    (more : rest ≠ []) :
    ∃ next, parser.feedAll [first, second] = (next, [none, none]) ∧
      Captures next [first, second] := by
  obtain ⟨version, announced, _⟩ := accepted.exists_version
  have magic : IsMagic first := by
    unfold versionOf at announced
    split at announced
    · rename_i one
      exact .inl one
    · split at announced
      · rename_i two
        exact .inr two
      · cases announced
  have size := parser.sized
  have begun : parser.feed first = (parser.write 0 first 1, none) := by
    unfold MavParser.feed
    by_cases idle : parser.len = 0
    · rw [if_pos idle, if_pos magic]
    · rw [if_neg idle, if_pos ⟨by omega, magic⟩]
  have captures : Captures (parser.write 0 first 1) [first] := by
    obtain ⟨old, others, shape⟩ :=
      List.exists_cons_of_length_pos (show 0 < parser.buf.length by omega)
    refine ⟨rfl, ?_⟩
    simp only [write, shape]
    rfl
  have split : Accepted ([first] ++ second :: rest) frame := accepted
  obtain ⟨next, fed, stored⟩ := (captures.feed split (by simp) (.inl rfl)).1 more
  refine ⟨next, ?_, stored⟩
  simp only [MavParser.feedAll, begun, fed]

/-- What the last byte returns is no longer than the capture and the bytes together. -/
theorem lengthOf_of_last {bytes : List UInt8} {frame : MavFrame}
    (returned : (parser.feedAll bytes).2.getLast? = some (some frame)) :
    lengthOf frame ≤ parser.len + bytes.length := by
  rcases List.eq_nil_or_concat bytes with rfl | ⟨init, last, rfl⟩
  · cases returned
  · rw [List.concat_eq_append] at returned ⊢
    rw [feedAll_append] at returned
    simp only [MavParser.feedAll, List.getLast?_append, List.getLast?_singleton,
      Option.some_or, Option.some.injEq] at returned
    have captured := parser.len_feedAll_le init
    have bounded := lengthOf_of_feed returned
    rw [List.length_append, List.length_singleton]
    omega

/-- A frame has a magic byte, a length byte and more. -/
theorem Accepted.exists_rest {bytes : List UInt8} {frame : MavFrame}
    (accepted : Accepted bytes frame) :
    ∃ first second rest, bytes = first :: second :: rest ∧ rest ≠ [] := by
  obtain ⟨version, announced, length⟩ := accepted.exists_version
  have bounds := totalOf_bounds (version_cases announced) bytes
  rw [length] at bounds
  match bytes with
  | first :: second :: third :: rest => exact ⟨first, second, third :: rest, rfl, by simp⟩
  | [] | [_] | [_, _] => simp at bounds

/-- A frame without a magic byte from its third one on is returned with its last byte, by a
parser that does not wait for a length byte; it is idle after. -/
theorem feedAll_of_unmarked {bytes : List UInt8} {frame : MavFrame} (ready : parser.len ≠ 1)
    (accepted : Accepted bytes frame) (unmarked : ∀ b ∈ bytes.drop 2, ¬ IsMagic b) :
    ∃ next, parser.feedAll bytes = (next, expected bytes frame) ∧ next.len = 0 := by
  obtain ⟨first, second, rest, rfl, more⟩ := accepted.exists_rest
  obtain ⟨clean, last, rfl⟩ := (List.eq_nil_or_concat rest).resolve_left more
  rw [List.concat_eq_append] at *
  obtain ⟨started, two, begun⟩ := captures_two ready accepted (by simp)
  have inner : Accepted ([first, second] ++ (clean ++ [last])) frame := accepted
  obtain ⟨middle, cleanFed, captured⟩ := begun.feedAll inner (Nat.le_refl _) (by simp)
    fun b among => unmarked b (List.mem_append_left _ among)
  rw [← List.append_assoc] at inner
  obtain ⟨final, completed, finalIdle⟩ :=
    (captured.feed inner (by simp) (.inr (unmarked last (by simp)))).2 rfl
  refine ⟨final, ?_, finalIdle⟩
  have pieces : first :: second :: (clean ++ [last]) = [first, second] ++ (clean ++ [last]) := rfl
  have outputs : expected (first :: second :: (clean ++ [last])) frame =
      [none, none] ++ (List.replicate clean.length none ++ [some frame]) := by
    simp [expected, List.replicate_succ]
  rw [pieces, feedAll_append, feedAll_append, two, cleanFed, ← pieces, outputs]
  simp only [MavParser.feedAll, completed]

/-- A frame with a magic byte from its third one on is not returned with its last byte. -/
theorem feedAll_of_marked {bytes : List UInt8} {frame : MavFrame} (idle : parser.len = 0)
    (accepted : Accepted bytes frame) (marked : ¬ ∀ b ∈ bytes.drop 2, ¬ IsMagic b) :
    (parser.feedAll bytes).2 ≠ expected bytes frame := by
  obtain ⟨first, second, rest, rfl, more⟩ := accepted.exists_rest
  obtain ⟨bad, found⟩ : ∃ bad, rest.find? (fun b => decide (IsMagic b)) = some bad := by
    rw [← Option.isSome_iff_exists, List.find?_isSome]
    simpa using marked
  -- the first magic byte restarts the capture, and too few bytes follow it
  obtain ⟨magic, clean, later, rfl, unmarked⟩ := List.find?_eq_some_iff_append.mp found
  have ready : parser.len ≠ 1 := idle ▸ Nat.zero_ne_one
  obtain ⟨started, two, begun⟩ := captures_two ready accepted (by simp)
  have inner : Accepted ([first, second] ++ (clean ++ bad :: later)) frame := accepted
  obtain ⟨middle, cleanFed, captured⟩ := begun.feedAll inner (Nat.le_refl _) (by simp)
    fun b among => by simpa using unmarked b among
  have several : middle.len > 1 := by
    rw [captured.len]
    simp
  have restarted : middle.feed bad = (middle.write 0 bad 1, none) := by
    unfold MavParser.feed
    rw [if_neg (by omega), if_pos ⟨several, of_decide_eq_true magic⟩]
  have pieces : first :: second :: (clean ++ bad :: later) =
      [first, second] ++ (clean ++ bad :: later) := rfl
  intro same
  have last := congrArg List.getLast? same
  rw [pieces, feedAll_append, feedAll_append, two, cleanFed] at last
  simp only [MavParser.feedAll, restarted, expected, List.getLast?_append, Option.some_or,
    List.getLast?_cons] at last
  cases final : ((middle.write 0 bad 1).feedAll later).2.getLast? with
  | none =>
      rw [final] at last
      simp at last
  | some output =>
      rw [final] at last
      simp only [Option.getD_some, Option.some.injEq] at last
      rw [last] at final
      have short := lengthOf_of_last final
      have whole := accepted.whole
      simp only [write, List.length_cons, List.length_append] at short whole
      omega

/-- Feeding the frames one after the other to a new parser returns each with its last byte and
nothing else. -/
def Reproduces (frames : List (List UInt8 × MavFrame)) : Prop :=
  (new.feedAll (frames.flatMap (·.1))).2 = frames.flatMap fun sent => expected sent.1 sent.2

theorem reproduces_iff_of_idle (frames : List (List UInt8 × MavFrame)) (idle : parser.len = 0)
    (accepted : ∀ sent ∈ frames, Accepted sent.1 sent.2) :
    (parser.feedAll (frames.flatMap (·.1))).2 =
        (frames.flatMap fun sent => expected sent.1 sent.2) ↔
      ∀ sent ∈ frames, ∀ b ∈ sent.1.drop 2, ¬ IsMagic b := by
  induction frames generalizing parser with
  | nil => simp [MavParser.feedAll]
  | cons sent rest inductionHypothesis =>
      have here := accepted sent List.mem_cons_self
      have lengths : (expected sent.1 sent.2).length = (parser.feedAll sent.1).2.length := by
        obtain ⟨first, second, others, shape, _⟩ := here.exists_rest
        rw [length_feedAll, expected, shape]
        simp
      rw [List.flatMap_cons, List.flatMap_cons, feedAll_append, List.forall_mem_cons]
      by_cases unmarked : ∀ b ∈ sent.1.drop 2, ¬ IsMagic b
      · have ready : parser.len ≠ 1 := idle ▸ Nat.zero_ne_one
        obtain ⟨next, fed, nextIdle⟩ := feedAll_of_unmarked ready here unmarked
        have others := inductionHypothesis nextIdle fun other among =>
          accepted other (List.mem_cons_of_mem _ among)
        rw [fed]
        dsimp only
        rw [List.append_cancel_left_eq, others]
        exact ⟨fun all => ⟨unmarked, all⟩, fun all => all.2⟩
      · refine ⟨?_, fun all => absurd all.1 unmarked⟩
        intro same
        exact absurd (List.append_inj_left same lengths.symm) (feedAll_of_marked idle here unmarked)

/-- The parser reproduces a stream of accepted frames exactly when none of them has a magic
byte from its third one on. -/
theorem reproduces_iff_unmarked (frames : List (List UInt8 × MavFrame))
    (accepted : ∀ sent ∈ frames, Accepted sent.1 sent.2) :
    Reproduces frames ↔ ∀ sent ∈ frames, ∀ b ∈ sent.1.drop 2, ¬ IsMagic b :=
  reproduces_iff_of_idle frames rfl accepted

/-- A heartbeat of version 1. -/
def makeHeartbeat (seq : UInt8) : List UInt8 :=
  let checked := [9, seq, 1, 1, 0, 1, 0, 0, 0, 1, 8, 128, 3, 3]
  mavlink1Magic :: (checked ++ Lib.leBytes 2 (mavCrc16 checked ^^^ 50).toNat)

/-- Two heartbeats, the second one directly behind the first. -/
theorem heartbeats_reproduced :
    ∃ first second, parseFrame (makeHeartbeat 2) = .ok first ∧
      parseFrame (makeHeartbeat 3) = .ok second ∧
      Reproduces [(makeHeartbeat 2, first), (makeHeartbeat 3, second)] := by
  refine ⟨frameOf 1 (makeHeartbeat 2), frameOf 1 (makeHeartbeat 3),
    by decide +kernel, by decide +kernel, ?_⟩
  apply (reproduces_iff_unmarked _ _).mpr
  · decide +kernel
  · intro sent among
    rcases List.mem_pair.mp among with rfl | rfl
    · exact ⟨by decide +kernel, by decide +kernel⟩
    · exact ⟨by decide +kernel, by decide +kernel⟩

/-- The heartbeat that is numbered 254 is lost, and a piece of it is taken for another one. -/
theorem heartbeat_lost :
    ∃ frame, Accepted (makeHeartbeat 254) frame ∧
      (new.feedAll (makeHeartbeat 254)).2 = List.replicate 10 none ++
        some (frameOf 1 [0xFE, 1, 1, 0, 1, 0, 0, 0, 1]) :: List.replicate 6 none ∧
      ¬ Reproduces [(makeHeartbeat 254, frame)] := by
  have lost : (new.feedAll (makeHeartbeat 254)).2 = List.replicate 10 none ++
      some (frameOf 1 [0xFE, 1, 1, 0, 1, 0, 0, 0, 1]) :: List.replicate 6 none := by
    decide +kernel
  refine ⟨frameOf 1 (makeHeartbeat 254), ⟨by decide +kernel, by decide +kernel⟩, lost, ?_⟩
  intro reproduced
  unfold Reproduces at reproduced
  simp only [List.flatMap_cons, List.flatMap_nil, List.append_nil] at reproduced
  rw [lost] at reproduced
  exact absurd reproduced (by decide +kernel)

end MavParser

end Teleop.Hal
