import Teleop.Cloud.RequestText
import Teleop.Lib.Slices

/-!
# Where the request parser traps

The request parser once more, with every sum of offsets and every slice that it takes.  The
length of the body is what a client wrote; nothing bounds it before it is added.
-/

namespace Teleop.Cloud

open Teleop.Lib

/-- `HttpError`. -/
inductive HttpError where
  | malformed
  deriving DecidableEq, Repr

variable (toLowercase : String → String)

/-- `Request::parse` with its offsets; `none` where it stops the thread. -/
def Request.parseTrapping (buf : List UInt8) :
    Option (Except HttpError (Option (Request × Nat))) :=
  match findSubslice buf terminator with
  | none => some (.ok none)
  | some p => do
      let hend ← addOffset p 4
      let text ← slice buf 0 (hend - 4)
      match (fromUtf8 text).bind (readHead toLowercase) with
      | none => return .error .malformed
      | some head => do
          let total ← addOffset hend head.contentLength
          if buf.length < total then return .ok none
          else do
            let body ← slice buf hend total
            return .ok (some (head.request body, total))

/-- What a request parser may say of a buffer. -/
def StaysWithin (buf : List UInt8) : Except HttpError (Option (Request × Nat)) → Prop
  | .ok (some (_, total)) => total ≤ buf.length
  | _ => True

/-- The values of the `content-length` headers among some lines, in order. -/
def contentLengths (lines : List (List Char)) : List String :=
  ((lines.filterMap (readHeader toLowercase)).filter (·.1 = "content-length")).map (·.2)

/-- A whole head, of three words in its first line, whose last `content-length` is a number
that leads past the last offset. -/
structure Oversized (buf : List UInt8) (p : Nat) (start : List Char) (lines : List (List Char))
    (value : String) (length : UInt64) : Prop where
  ended : position terminator buf = some p
  text : (fromUtf8 (buf.take p)).map (fun text => splitLines text.toList) = some (start :: lines)
  words : (splitWhitespace start).length = 3
  last : (contentLengths toLowercase lines).getLast? = some value
  number : parseU64 value.toList = some length
  beyond : 2 ^ 64 ≤ p + 4 + length.toNat

variable {toLowercase}

/-- Only the last length counts, and one that is no number counts as 0. -/
theorem foldl_nextLength_eq (headers : List (String × String)) :
    headers.foldl nextLength 0 =
      ((((headers.filter (·.1 = "content-length")).map (·.2)).getLast?.bind
        fun value => parseU64 value.toList).map UInt64.toNat).getD 0 := by
  induction headers using List.reverseRecOn with
  | nil => rfl
  | append_singleton headers header inductionHypothesis =>
      rw [List.foldl_append, List.filter_append, List.map_append]
      by_cases named : header.1 = "content-length"
      · simp [nextLength, named]
      · simp [nextLength, named, inductionHypothesis]

/-- A line without a colon is no header, so the empty ones need not be skipped. -/
theorem filterMap_readHeader (lines : List (List Char)) :
    (lines.filter (· ≠ [])).filterMap (readHeader toLowercase) =
      lines.filterMap (readHeader toLowercase) := by
  rw [List.filterMap_filter]
  apply List.filterMap_congr
  intro line _
  by_cases empty : line = []
  · subst empty
    rfl
  · simp [empty]

/-- What a head announces is the number in its last `content-length`. -/
theorem contentLength_of_readHead {text : String} {head : Head} {start : List Char}
    {lines : List (List Char)} (split : splitLines text.toList = start :: lines)
    (read : readHead toLowercase text = some head) :
    head.contentLength =
      (((contentLengths toLowercase lines).getLast?.bind
        fun value => parseU64 value.toList).map UInt64.toNat).getD 0 := by
  unfold readHead at read
  rw [split] at read
  dsimp only at read
  split at read
  · obtain rfl := Option.some.inj read
    dsimp only
    rw [filterMap_readHeader, foldl_nextLength_eq]
    rfl
  · cases read

theorem readHead_isSome_iff {text : String} :
    (∃ head, readHead toLowercase text = some head) ↔
      ∃ start lines, splitLines text.toList = start :: lines ∧
        (splitWhitespace start).length = 3 := by
  unfold readHead
  split
  · simp_all
  · rename_i start lines split
    split
    · rename_i method target version words
      simp [split, words]
    · rename_i other
      simp only [reduceCtorEq, exists_false, false_iff]
      rintro ⟨start', lines', same, words⟩
      rw [split] at same
      obtain ⟨rfl, -⟩ := List.cons.inj same
      match spelled : splitWhitespace start, words with
      | [method, target, version], _ => exact other _ _ _ spelled

/-- The head that is there announces too much. -/
theorem oversized_iff {buf : List UInt8} {p : Nat} {head : Head} (sized : buf.length < 2 ^ 64)
    (found : position terminator buf = some p) (read : headAt toLowercase buf p = some head) :
    (∃ p start lines value length, Oversized toLowercase buf p start lines value length) ↔
      2 ^ 64 ≤ p + 4 + head.contentLength := by
  obtain ⟨text, decoded, read⟩ := Option.bind_eq_some_iff.mp read
  obtain ⟨start, lines, split, words⟩ := readHead_isSome_iff.mp ⟨head, read⟩
  have announced := contentLength_of_readHead split read
  constructor
  · rintro ⟨p', start', lines', value, length, oversized⟩
    obtain rfl : p = p' := Option.some.inj (found.symm.trans oversized.ended)
    have same := oversized.text
    rw [decoded, Option.map_some, split] at same
    obtain ⟨rfl, rfl⟩ := List.cons.inj (Option.some.inj same)
    rw [oversized.last, Option.bind_some, oversized.number] at announced
    rw [announced]
    exact oversized.beyond
  · intro beyond
    have fits := position_add_length_le found terminator_ne_nil
    rw [length_terminator] at fits
    -- without a number nothing is added, and the head itself lies within the buffer
    cases last : (contentLengths toLowercase lines).getLast? with
    | none =>
        rw [last] at announced
        simp only [Option.bind_none, Option.map_none, Option.getD_none] at announced
        omega
    | some value =>
        rw [last, Option.bind_some] at announced
        cases number : parseU64 value.toList with
        | none =>
            rw [number] at announced
            simp only [Option.map_none, Option.getD_none] at announced
            omega
        | some length =>
            rw [number] at announced
            simp only [Option.map_some, Option.getD_some] at announced
            refine ⟨p, start, lines, value, length, found, ?_, words, last, number, ?_⟩
            · rw [decoded, Option.map_some, split]
            · rwa [← announced]

/-- The parser with its offsets does what the parser does, and traps where that one gives up. -/
theorem parseTrapping_eq {buf : List UInt8} (sized : buf.length < 2 ^ 64) :
    Request.parseTrapping toLowercase buf =
      match Request.parse toLowercase buf with
      | .ok outcome => some (.ok outcome)
      | .error .malformed => some (.error .malformed)
      | .error .overflow => none := by
  unfold Request.parseTrapping Request.parse
  rw [findSubslice_terminator]
  cases found : position terminator buf with
  | none => rfl
  | some p =>
      have fits := position_add_length_le found terminator_ne_nil
      rw [length_terminator] at fits
      have hend := addOffset_of_lt (a := p) (b := 4) (by omega)
      have text : slice buf 0 (p + 4 - 4) = some ((buf.take (p + 4 - 4)).drop 0) :=
        slice_of_le (Nat.zero_le _) (by omega)
      dsimp only
      rw [hend, Option.bind_eq_bind, Option.bind_some, text, Option.bind_eq_bind,
        Option.bind_some, List.drop_zero]
      cases (fromUtf8 (buf.take (p + 4 - 4))).bind (readHead toLowercase) with
      | none => rfl
      | some head =>
          dsimp only
          by_cases beyond : 2 ^ 64 ≤ p + 4 + head.contentLength
          · rw [if_pos beyond, addOffset_eq_none_iff.mpr beyond]
            rfl
          · rw [if_neg beyond, addOffset_of_lt (Nat.not_le.mp beyond), Option.bind_some]
            by_cases short : buf.length < p + 4 + head.contentLength
            · rw [if_pos short, if_pos short]
              rfl
            · have body : slice buf (p + 4) (p + 4 + head.contentLength) =
                  some ((buf.take (p + 4 + head.contentLength)).drop (p + 4)) :=
                slice_of_le (Nat.le_add_right _ _) (Nat.not_lt.mp short)
              rw [if_neg short, if_neg short, body]
              rfl

/-- What is parsed of a buffer whose head ends at `p`. -/
theorem parse_of_position {buf : List UInt8} {p : Nat}
    (found : position terminator buf = some p) :
    Request.parse toLowercase buf =
      match headAt toLowercase buf p with
      | none => .error .malformed
      | some head =>
          if 2 ^ 64 ≤ p + 4 + head.contentLength then .error .overflow
          else if buf.length < p + 4 + head.contentLength then .ok none
          else
            .ok (some (head.request ((buf.take (p + 4 + head.contentLength)).drop (p + 4)),
              p + 4 + head.contentLength)) := by
  unfold Request.parse headAt
  rw [findSubslice_terminator, found]
  rfl

theorem parse_eq_overflow_iff {buf : List UInt8} (sized : buf.length < 2 ^ 64) :
    Request.parse toLowercase buf = .error .overflow ↔
      ∃ p start lines value length, Oversized toLowercase buf p start lines value length := by
  cases found : position terminator buf with
  | none =>
      simp only [Request.parse, findSubslice_terminator, found, reduceCtorEq, false_iff]
      rintro ⟨p, start, lines, value, length, oversized⟩
      have ended := oversized.ended
      rw [found] at ended
      cases ended
  | some p =>
      rw [parse_of_position found]
      cases read : headAt toLowercase buf p with
      | none =>
          simp only [reduceCtorEq, Except.error.injEq, false_iff]
          rintro ⟨p', start, lines, value, length, oversized⟩
          obtain rfl : p = p' := Option.some.inj (found.symm.trans oversized.ended)
          obtain ⟨text, decoded, split⟩ := Option.map_eq_some_iff.mp oversized.text
          have complete : ∃ head, readHead toLowercase text = some head :=
            readHead_isSome_iff.mpr ⟨start, lines, split, oversized.words⟩
          obtain ⟨head, whole⟩ := complete
          rw [headAt, decoded, Option.bind_some, whole] at read
          cases read
      | some head =>
          rw [oversized_iff sized found read]
          by_cases beyond : 2 ^ 64 ≤ p + 4 + head.contentLength
          · simp only [beyond, if_true]
          · simp only [beyond, if_false, iff_false]
            split <;> simp

/-- On every buffer that memory can hold the parser traps exactly when the head announces a body
that leads past the last offset.  Otherwise it asks for more, takes a request that lies within
the buffer or refuses the head. -/
theorem parseTrapping_eq_none_iff (toLowercase : String → String) {buf : List UInt8}
    (sized : buf.length < 2 ^ 64) :
    (Request.parseTrapping toLowercase buf = none ↔
      ∃ p start lines value length, Oversized toLowercase buf p start lines value length) ∧
      ∀ outcome, Request.parseTrapping toLowercase buf = some outcome → StaysWithin buf outcome := by
  rw [← parse_eq_overflow_iff sized, parseTrapping_eq sized]
  cases parsed : Request.parse toLowercase buf with
  | error failure => cases failure <;> simp [StaysWithin]
  | ok outcome =>
      refine ⟨by simp, ?_⟩
      intro outcome' same
      obtain rfl := Option.some.inj same
      cases outcome with
      | none => trivial
      | some answer =>
          obtain ⟨req, total⟩ := answer
          obtain ⟨-, -, -, fits, -⟩ := complete_of_parse toLowercase parsed
          exact fits

section Instance

/-- A request that announces the greatest length there is. -/
def greedyRequest : List UInt8 :=
  messageBytes ["GET / HTTP/1.1", "Content-Length: 18446744073709551615"] []

theorem oversized_greedyRequest :
    Oversized asciiLowercase greedyRequest 52 "GET / HTTP/1.1".toList
      ["Content-Length: 18446744073709551615".toList] "18446744073709551615"
      18446744073709551615 where
  ended := by decide +kernel
  text := by decide +kernel
  words := by decide +kernel
  last := by decide +kernel
  number := by decide +kernel
  beyond := by decide +kernel

theorem not_parseTrapping_total :
    ¬∀ buf : List UInt8, buf.length < 2 ^ 64 → Request.parseTrapping asciiLowercase buf ≠ none := by
  intro total
  have sized : greedyRequest.length < 2 ^ 64 := by decide +kernel
  have overflow := (parse_eq_overflow_iff sized).mpr ⟨_, _, _, _, _, oversized_greedyRequest⟩
  apply total greedyRequest sized
  rw [parseTrapping_eq sized, overflow]

theorem parseTrapping_greedyRequest :
    greedyRequest.length < 2 ^ 64 ∧ Request.parseTrapping asciiLowercase greedyRequest = none :=
  have sized : greedyRequest.length < 2 ^ 64 := by decide +kernel
  ⟨sized, (parseTrapping_eq_none_iff asciiLowercase sized).1.mpr
    ⟨_, _, _, _, _, oversized_greedyRequest⟩⟩

end Instance

end Teleop.Cloud
