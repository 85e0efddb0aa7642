import Teleop.Hal.MavParser
import Teleop.Lib.Slices

/-!
# The streaming parser finds its way back

Whatever a parser has been fed, two frames without an inner magic byte are enough: the first
one may be swallowed by what was captured before, the second one is returned.  The parser and
`parse_frame` are given once more with every index they use; none is outside the buffer.
-/

namespace Teleop.Hal

open Teleop.Lib

/-- The signature bit; the flags of version 1 are not read. -/
def signedTrapping (version : UInt8) (buf : List UInt8) : Option Bool :=
  if version = 2 then (buf[2]?).map fun flags => decide (flags &&& 1 ≠ 0) else some false

def msgidTrapping (version : UInt8) (buf : List UInt8) : Option UInt32 :=
  if version = 1 then (buf[5]?).map UInt8.toUInt32
  else do
    let low ← buf[7]?
    let middle ← buf[8]?
    let high ← buf[9]?
    return low.toUInt32 ||| (middle.toUInt32 <<< 8) ||| (high.toUInt32 <<< 16)

/-- The comparison of the checksum, over a slice of the buffer. -/
def crcFailsTrapping (buf : List UInt8) (msgid : UInt32) (payloadLen crcPos : Nat)
    (crc : UInt16) : Option Bool :=
  match dialectFor msgid with
  | some (expectedLen, extra) =>
      if expectedLen.toNat = payloadLen then
        (slice buf 1 crcPos).map fun checked =>
          decide (mavCrc16 checked ^^^ extra.toUInt16 ≠ crc)
      else some false
  | none => some false

/-- The array of the payload, of which the front is copied from the buffer. -/
def payloadTrapping (buf : List UInt8) (start payloadLen : Nat) : Option (List UInt8) := do
  let payload := List.replicate mavlinkMaxPayload 0
  let front ← slice payload 0 payloadLen
  let source ← slice buf start (start + payloadLen)
  if front.length = source.length then return source ++ payload.drop payloadLen else none

/-- The frame that is returned, with the fields of the header that are read last. -/
def frameTrapping (version : UInt8) (buf : List UInt8) (payloadLen : Nat) (signed : Bool)
    (msgid : UInt32) (crc : UInt16) : Option MavFrame := do
  let payload ← payloadTrapping buf (1 + headerAfter version) payloadLen
  let seq ← buf[if version = 1 then 2 else 4]?
  let sysid ← buf[if version = 1 then 3 else 5]?
  let compid ← buf[if version = 1 then 4 else 6]?
  return {
    version, seq, sysid, compid, msgid, payloadLen := .ofNat payloadLen, payload, crc,
    signed := if signed then 1 else 0 }

/-- The second half of `parse_frame`, for a buffer that is long enough. -/
def wholeTrapping (version : UInt8) (buf : List UInt8) (payloadLen : Nat) (signed : Bool) :
    Option (Except MavError MavFrame) := do
  let crcPos := 1 + headerAfter version + payloadLen
  let crc := leUInt16 (← buf[crcPos]?) (← buf[crcPos + 1]?)
  let msgid ← msgidTrapping version buf
  let fails ← crcFailsTrapping buf msgid payloadLen crcPos crc
  if fails then return .error .crc
  else (frameTrapping version buf payloadLen signed msgid crc).map .ok

/-- `parse_frame` with its indices; `none` where one is outside the buffer. -/
def parseFrameTrapping (buf : List UInt8) : Option (Except MavError MavFrame) :=
  if buf = [] then some (.error .magic)
  else do
    let leading ← buf[0]?
    let announced : Option UInt8 :=
      if leading = mavlink1Magic then some 1
      else if leading = mavlink2Magic then some 2
      else none
    match announced with
    | none => return .error .magic
    | some version =>
        let minHeader := if version = 1 then 2 else 3
        if buf.length < minHeader then return .error .truncated
        else do
          let payloadLen := (← buf[1]?).toNat
          if payloadLen > mavlinkMaxPayload then return .error .truncated
          else do
            let signed ← signedTrapping version buf
            if buf.length < frameLen version payloadLen signed then return .error .truncated
            else wholeTrapping version buf payloadLen signed

section Indices

variable {buf : List UInt8} {version : UInt8}

theorem getElem?_eq_byteAt {i : Nat} (inside : i < buf.length) : buf[i]? = some (byteAt buf i) := by
  unfold byteAt
  rw [List.getD_eq_getElem?_getD, List.getElem?_eq_getElem inside]
  rfl

theorem signedTrapping_eq (flagged : version = 2 → 2 < buf.length) :
    signedTrapping version buf = some (signedOf version buf) := by
  unfold signedTrapping signedOf
  by_cases second : version = 2
  · simp [second, getElem?_eq_byteAt (flagged second)]
  · simp [second]

theorem msgidTrapping_eq (whole : crcPos version buf ≤ buf.length) :
    msgidTrapping version buf = some (msgidOf version buf) := by
  unfold crcPos headerAfter at whole
  unfold msgidTrapping msgidOf
  by_cases first : version = 1
  · rw [if_pos first] at whole
    have sixth : 5 < buf.length := by omega
    simp [first, getElem?_eq_byteAt sixth]
  · rw [if_neg first] at whole
    have low : 7 < buf.length := by omega
    have middle : 8 < buf.length := by omega
    have high : 9 < buf.length := by omega
    simp [first, getElem?_eq_byteAt low, getElem?_eq_byteAt middle, getElem?_eq_byteAt high]

theorem crcFailsTrapping_eq (whole : crcPos version buf ≤ buf.length) :
    crcFailsTrapping buf (msgidOf version buf) (payloadLenOf buf) (crcPos version buf)
        (trailingCrc version buf) =
      some (crcFails version buf) := by
  have ordered : 1 ≤ crcPos version buf := by
    unfold crcPos
    omega
  unfold crcFailsTrapping crcFails computedCrc
  cases dialectFor (msgidOf version buf) with
  | none => rfl
  | some entry =>
      obtain ⟨expectedLen, extra⟩ := entry
      dsimp only
      by_cases same : expectedLen.toNat = payloadLenOf buf
      · simp [same, slice_of_le ordered whole]
      · simp [same]

theorem payloadTrapping_eq (whole : crcPos version buf ≤ buf.length) :
    payloadTrapping buf (1 + headerAfter version) (payloadLenOf buf) =
      some (frameOf version buf).payload := by
  have long := payloadLenOf_le buf
  unfold crcPos at whole
  have front : slice (List.replicate mavlinkMaxPayload (0 : UInt8)) 0 (payloadLenOf buf) =
      some (List.replicate (payloadLenOf buf) 0) := by
    rw [slice_of_le (Nat.zero_le _) (by rwa [List.length_replicate]), List.take_replicate,
      Nat.min_eq_left long, List.drop_zero]
  have source : slice buf (1 + headerAfter version) (1 + headerAfter version + payloadLenOf buf) =
      some ((buf.drop (1 + headerAfter version)).take (payloadLenOf buf)) := by
    rw [slice_of_le (Nat.le_add_right _ _) whole, List.drop_take, Nat.add_sub_cancel_left]
  have copied : (List.replicate (payloadLenOf buf) (0 : UInt8)).length =
      ((buf.drop (1 + headerAfter version)).take (payloadLenOf buf)).length := by
    rw [List.length_replicate, List.length_take, List.length_drop]
    omega
  simp only [payloadTrapping, front, source, Option.bind_eq_bind, Option.bind_some, if_pos copied,
    List.drop_replicate]
  rfl

theorem frameTrapping_eq (whole : crcPos version buf ≤ buf.length) :
    frameTrapping version buf (payloadLenOf buf) (signedOf version buf) (msgidOf version buf)
        (trailingCrc version buf) =
      some (frameOf version buf) := by
  have payload := payloadTrapping_eq whole
  unfold crcPos headerAfter at whole
  have third : 2 < buf.length := by split at whole <;> omega
  have fourth : 3 < buf.length := by split at whole <;> omega
  have fifth : 4 < buf.length := by split at whole <;> omega
  unfold frameTrapping
  rw [payload]
  by_cases first : version = 1
  · simp [first, getElem?_eq_byteAt third, getElem?_eq_byteAt fourth, getElem?_eq_byteAt fifth,
      frameOf]
  · rw [if_neg first] at whole
    have sixth : 5 < buf.length := by omega
    have seventh : 6 < buf.length := by omega
    simp [first, getElem?_eq_byteAt fifth, getElem?_eq_byteAt sixth, getElem?_eq_byteAt seventh,
      frameOf]

theorem wholeTrapping_eq (whole : crcPos version buf + 2 ≤ buf.length) :
    wholeTrapping version buf (payloadLenOf buf) (signedOf version buf) =
      some (if crcFails version buf then .error .crc else .ok (frameOf version buf)) := by
  have low : crcPos version buf < buf.length := by omega
  have high : crcPos version buf + 1 < buf.length := by omega
  have position : 1 + headerAfter version + payloadLenOf buf = crcPos version buf := rfl
  have trailing : leUInt16 (byteAt buf (crcPos version buf)) (byteAt buf (crcPos version buf + 1)) =
      trailingCrc version buf := rfl
  unfold wholeTrapping
  simp only [position, getElem?_eq_byteAt low, getElem?_eq_byteAt high, msgidTrapping_eq low.le,
    Option.bind_eq_bind, Option.bind_some, trailing, crcFailsTrapping_eq low.le,
    frameTrapping_eq low.le, Option.map_some]
  split <;> rfl

/-- `parse_frame` indexes within every buffer that it is given. -/
theorem parseFrameTrapping_eq (buf : List UInt8) :
    parseFrameTrapping buf = some (parseFrame buf) := by
  have long := payloadLenOf_le buf
  unfold parseFrameTrapping parseFrame
  by_cases empty : buf = []
  · rw [if_pos empty, if_pos empty]
  have leading := getElem?_eq_byteAt (List.length_pos_of_ne_nil empty)
  simp only [if_neg empty, leading, Option.bind_eq_bind, Option.bind_some]
  have same : (if byteAt buf 0 = mavlink1Magic then some 1
      else if byteAt buf 0 = mavlink2Magic then some 2 else none) = versionOf buf := rfl
  rw [same]
  cases announced : versionOf buf with
  | none => rfl
  | some version =>
      dsimp only
      by_cases short : buf.length < if version = 1 then 2 else 3
      · rw [if_pos short, if_pos short]
        rfl
      have second : 1 < buf.length := by
        split at short <;> omega
      have flagged : version = 2 → 2 < buf.length := by
        rintro rfl
        simp at short
        omega
      have length : (byteAt buf 1).toNat = payloadLenOf buf := rfl
      have total : frameLen version (payloadLenOf buf) (signedOf version buf) =
          totalOf version buf := rfl
      simp only [if_neg short, getElem?_eq_byteAt second, Option.bind_some, length,
        signedTrapping_eq flagged, total, if_neg (Nat.not_lt.mpr long)]
      by_cases cut : buf.length < totalOf version buf
      · rw [if_pos cut, if_pos cut]
        rfl
      · have parts := totalOf_eq version buf
        rw [if_neg cut, if_neg cut, wholeTrapping_eq (by omega)]

end Indices

namespace MavParser

/-- `self.buf[i] = byte`, with the number of captured bytes after it. -/
def writeTrapping (parser : MavParser) (i : Nat) (byte : UInt8) (len : Nat) : Option MavParser :=
  if i < parser.buf.length then some (parser.write i byte len) else none

def finishTrapping (parser : MavParser) : Option (MavParser × Option MavFrame) :=
  if parser.len ≥ 2 then do
    let version := if (← parser.buf[0]?) = mavlink1Magic then 1 else 2
    let payloadLen := (← parser.buf[1]?).toNat
    let signed ← signedTrapping version parser.buf
    let total := frameLen version payloadLen signed
    if parser.len ≥ total then do
      let captured ← slice parser.buf 0 total
      match ← parseFrameTrapping captured with
      | .ok frame => return ({ parser with len := 0 }, some frame)
      | .error _ => return (parser, none)
    else return (parser, none)
  else return (parser, none)

/-- `feed` with its indices; `none` where one is outside the buffer. -/
def feedTrapping (parser : MavParser) (byte : UInt8) : Option (MavParser × Option MavFrame) :=
  if parser.len = 0 then
    if IsMagic byte then do return (← parser.writeTrapping 0 byte 1, none)
    else return (parser, none)
  else if parser.len > 1 ∧ IsMagic byte then do return (← parser.writeTrapping 0 byte 1, none)
  else if parser.len ≥ parser.buf.length then return ({ parser with len := 0 }, none)
  else do (← parser.writeTrapping parser.len byte (parser.len + 1)).finishTrapping

def feedAllTrapping (parser : MavParser) :
    List UInt8 → Option (MavParser × List (Option MavFrame))
  | [] => some (parser, [])
  | byte :: rest => do
      let (parser, frame) ← parser.feedTrapping byte
      let (parser, frames) ← parser.feedAllTrapping rest
      return (parser, frame :: frames)

variable {parser : MavParser}

theorem writeTrapping_eq {i : Nat} (inside : i < mavlinkMaxPayload + 32) (byte : UInt8)
    (len : Nat) : parser.writeTrapping i byte len = some (parser.write i byte len) := by
  rw [← parser.sized] at inside
  exact if_pos inside

/-- The longest frame fits in the buffer. -/
theorem finishTrapping_eq (parser : MavParser) : parser.finishTrapping = some parser.finish := by
  have size := parser.sized
  unfold finishTrapping finish
  by_cases two : parser.len ≥ 2
  · have known : parser.version = 1 ∨ parser.version = 2 := by
      unfold version
      split
      · exact .inl rfl
      · exact .inr rfl
    have bounds := totalOf_bounds known parser.buf
    have first : 0 < parser.buf.length := by omega
    have second : 1 < parser.buf.length := by omega
    have third : 2 < parser.buf.length := by omega
    have same : (if byteAt parser.buf 0 = mavlink1Magic then 1 else 2) = parser.version := rfl
    have length : frameLen parser.version (byteAt parser.buf 1).toNat
        (signedOf parser.version parser.buf) = parser.total := rfl
    simp only [if_pos two, getElem?_eq_byteAt first, getElem?_eq_byteAt second,
      signedTrapping_eq (fun _ => third), Option.bind_eq_bind, Option.bind_some, same, length]
    by_cases complete : parser.len ≥ parser.total
    · have within : parser.total ≤ parser.buf.length := by
        unfold total
        omega
      rw [if_pos complete, if_pos ⟨two, complete⟩, slice_of_le (Nat.zero_le _) within]
      simp only [List.drop_zero, Option.bind_some, parseFrameTrapping_eq]
      cases parseFrame (parser.buf.take parser.total) with
      | ok frame => rfl
      | error e => rfl
    · rw [if_neg complete, if_neg (fun both => complete both.2)]
      rfl
  · rw [if_neg two, if_neg (fun complete => two complete.1)]
    rfl

theorem feedTrapping_eq (parser : MavParser) (byte : UInt8) :
    parser.feedTrapping byte = some (parser.feed byte) := by
  have size := parser.sized
  unfold feedTrapping feed
  by_cases idle : parser.len = 0
  · by_cases magic : IsMagic byte
    · simp [idle, magic, writeTrapping_eq (show 0 < mavlinkMaxPayload + 32 by omega)]
    · simp [idle, magic]
  rw [if_neg idle, if_neg idle]
  by_cases restarts : parser.len > 1 ∧ IsMagic byte
  · simp [restarts, writeTrapping_eq (show 0 < mavlinkMaxPayload + 32 by omega)]
  rw [if_neg restarts, if_neg restarts]
  by_cases full : parser.len ≥ parser.buf.length
  · rw [if_pos full, if_pos full]
    rfl
  · rw [if_neg full, if_neg full, writeTrapping_eq (by omega)]
    exact finishTrapping_eq _

theorem feedAllTrapping_eq (parser : MavParser) (bytes : List UInt8) :
    parser.feedAllTrapping bytes = some (parser.feedAll bytes) := by
  induction bytes generalizing parser with
  | nil => rfl
  | cons byte rest inductionHypothesis =>
      simp only [feedAllTrapping, feedTrapping_eq, inductionHypothesis, Option.bind_eq_bind,
        Option.bind_some]
      rfl

/-- Behind a byte that is not magic the parser does not wait for a length byte. -/
theorem len_feed_ne_one {byte : UInt8} (clean : ¬ IsMagic byte) :
    (parser.feed byte).1.len ≠ 1 := by
  unfold feed
  by_cases idle : parser.len = 0
  · simp [idle, clean]
  rw [if_neg idle, if_neg (fun restarts => clean restarts.2)]
  split
  · exact Nat.zero_ne_one
  · rcases finish_cases (parser.write parser.len byte (parser.len + 1)) with
      ⟨frame, _, _, _, finished⟩ | finished
    · rw [finished]
      exact Nat.zero_ne_one
    · rw [finished]
      simp only [write]
      omega

theorem len_feedAll_ne_one {bytes : List UInt8} (more : bytes ≠ [])
    (clean : ¬ IsMagic (bytes.getLast more)) : (parser.feedAll bytes).1.len ≠ 1 := by
  rw [← List.dropLast_append_getLast more, feedAll_append]
  exact len_feed_ne_one clean

/-- No byte of a frame but its first one starts a capture. -/
def Unmarked (bytes : List UInt8) : Prop := ∀ b ∈ bytes.drop 1, ¬ IsMagic b

/-- Whatever was captured before a frame, none of it is behind it. -/
theorem len_feedAll_of_accepted {bytes : List UInt8} {frame : MavFrame}
    (accepted : Accepted bytes frame) (unmarked : Unmarked bytes) :
    (parser.feedAll bytes).1.len ≠ 1 := by
  obtain ⟨first, second, rest, rfl, _⟩ := accepted.exists_rest
  apply len_feedAll_ne_one (by simp)
  apply unmarked
  simp

/-- After any bytes, the second of two frames is returned with its last byte; and no byte is
ever looked for or stored outside the buffer. -/
theorem returns_second_frame :
    (∀ junk first second firstFrame secondFrame,
      Accepted first firstFrame → Accepted second secondFrame →
      Unmarked first → Unmarked second →
        ((new.feedAll (junk ++ first)).1.feedAll second).2 = expected second secondFrame) ∧
      ∀ bytes, new.feedAllTrapping bytes = some (new.feedAll bytes) := by
  refine ⟨?_, new.feedAllTrapping_eq⟩
  intro junk first second firstFrame secondFrame acceptedFirst acceptedSecond clean unmarked
  rw [feedAll_append]
  have ready : (((new.feedAll junk).1.feedAll first).1).len ≠ 1 :=
    len_feedAll_of_accepted acceptedFirst clean
  have inner : ∀ b ∈ second.drop 2, ¬ IsMagic b := by
    intro b among
    have further : b ∈ (second.drop 1).drop 1 := by rwa [List.drop_drop]
    exact unmarked b (List.mem_of_mem_drop further)
  obtain ⟨next, fed, _⟩ := feedAll_of_unmarked ready acceptedSecond inner
  rw [fed]

/-- The header of a long frame swallows the first heartbeat, not the second one. -/
theorem returns_second_heartbeat :
    ∃ frame, Accepted (makeHeartbeat 3) frame ∧
      ((new.feedAll ([0xFE, 200] ++ makeHeartbeat 2)).1.feedAll (makeHeartbeat 3)).2 =
        expected (makeHeartbeat 3) frame := by
  have first : Accepted (makeHeartbeat 2) (frameOf 1 (makeHeartbeat 2)) :=
    ⟨by decide +kernel, by decide +kernel⟩
  have second : Accepted (makeHeartbeat 3) (frameOf 1 (makeHeartbeat 3)) :=
    ⟨by decide +kernel, by decide +kernel⟩
  have clean : Unmarked (makeHeartbeat 2) := by
    unfold Unmarked
    decide +kernel
  have unmarked : Unmarked (makeHeartbeat 3) := by
    unfold Unmarked
    decide +kernel
  exact ⟨_, second, returns_second_frame.1 [0xFE, 200] _ _ _ _ first second clean unmarked⟩

end MavParser

end Teleop.Hal
