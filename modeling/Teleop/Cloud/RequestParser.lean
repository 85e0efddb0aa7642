import Teleop.Cloud.Server
import Teleop.Lib.Framing

/-!
# The request parser

Takes one request off the front of a connection's buffer: a head up to the first empty
line, and as many bytes of body as the last `content-length` of the head says.  The
lower-casing of names, which knows all of Unicode, is a parameter.
-/

namespace Teleop.Cloud

open Teleop.Lib

/-- Why there is no request and never will be: a malformed head, or a length beyond `usize`,
which ends the thread. -/
inductive HttpFailure where
  | malformed
  | overflow
  deriving DecidableEq, Repr

def Method.parse (text : String) : Method :=
  if text = "GET" then .get
  else if text = "POST" then .post
  else if text = "PUT" then .put
  else if text = "DELETE" then .delete
  else .other text

/-- `windows(needle.len()).position`. -/
def findSubslice (haystack needle : List UInt8) : Option Nat :=
  if needle = [] ∨ haystack.length < needle.length then none else position needle haystack

/-- `str::from_utf8`. -/
def fromUtf8 (bytes : List UInt8) : Option String := String.fromUTF8? bytes.toByteArray

section Text

/-- `split("\r\n")`. -/
def splitLines : List Char → List (List Char)
  | [] => [[]]
  | '\r' :: '\n' :: rest => [] :: splitLines rest
  | c :: rest =>
      match splitLines rest with
      | [] => [[c]]
      | line :: lines => (c :: line) :: lines

/-- `split_whitespace`. -/
def splitWhitespace (text : List Char) : List (List Char) :=
  (text.splitOnP isWhitespace).filter (· ≠ [])

/-- `split_once`, at the first of the separators. -/
def splitOnce (separator : Char) (text : List Char) : Option (List Char × List Char) :=
  if separator ∈ text then
    some (text.takeWhile (· ≠ separator), (text.dropWhile (· ≠ separator)).tail)
  else none

theorem splitOnce_append_cons {separator : Char} {front : List Char} (first : separator ∉ front)
    (rest : List Char) : splitOnce separator (front ++ separator :: rest) = some (front, rest) := by
  have before : ∀ c ∈ front, decide (c ≠ separator) = true := by
    intro c among
    exact decide_eq_true fun same => first (same ▸ among)
  rw [splitOnce, if_pos (by simp), List.takeWhile_append_of_pos before,
    List.dropWhile_append_of_pos before, List.takeWhile_cons_of_neg (by simp),
    List.dropWhile_cons_of_neg (by simp), List.append_nil, List.tail_cons]

theorem splitOnce_of_not_mem {separator : Char} {text : List Char} (absent : separator ∉ text) :
    splitOnce separator text = none := if_neg absent

/-- Splits the query off a target. -/
def splitQuery (target : List Char) : String × String :=
  match splitOnce '?' target with
  | some (path, query) => (.ofList path, .ofList query)
  | none => (.ofList target, "")

end Text

/-- What the bytes before the empty line say. -/
structure Head where
  method : Method
  path : String
  query : String
  headers : List (String × String)
  contentLength : Nat

section Parser

variable (toLowercase : String → String)

/-- A header line; one without a colon is skipped. -/
def readHeader (line : List Char) : Option (String × String) :=
  (splitOnce ':' line).map fun (name, value) =>
    (toLowercase (.ofList (trim name)), .ofList (trim value))

/-- The length after one more header; one that is no number counts as 0. -/
def nextLength (length : Nat) (header : String × String) : Nat :=
  if header.1 = "content-length" then ((parseU64 header.2.toList).map UInt64.toNat).getD 0
  else length

/-- The head in the text before the empty line. -/
def readHead (text : String) : Option Head :=
  match splitLines text.toList with
  | [] => none
  | start :: lines =>
      match splitWhitespace start with
      | [method, target, _] =>
          let headers := (lines.filter (· ≠ [])).filterMap (readHeader toLowercase)
          some {
            method := .parse (.ofList method)
            path := (splitQuery target).1
            query := (splitQuery target).2
            headers
            contentLength := headers.foldl nextLength 0 }
      | _ => none

/-- The empty line after the head. -/
def terminator : List UInt8 := utf8 "\r\n\r\n"

/-- Takes one complete request off the front of a buffer, with its length; `none` if not all
of it is there. -/
def Request.parse : Framer UInt8 HttpFailure Request := fun buf =>
  match findSubslice buf terminator with
  | none => .ok none
  | some p =>
      let hend := p + 4
      match (fromUtf8 (buf.take (hend - 4))).bind (readHead toLowercase) with
      | none => .error .malformed
      | some head =>
          let total := hend + head.contentLength
          if 2 ^ 64 ≤ total then .error .overflow
          else if buf.length < total then .ok none
          else
            .ok (some
              ({ method := head.method
                 path := head.path
                 query := head.query
                 headers := head.headers
                 body := (buf.take total).drop hend }, total))

theorem length_terminator : terminator.length = 4 := by decide

theorem terminator_ne_nil : terminator ≠ [] := by decide

/-- The head of a buffer whose first empty line is at `p`. -/
def headAt (buf : List UInt8) (p : Nat) : Option Head :=
  (fromUtf8 (buf.take p)).bind (readHead toLowercase)

/-- What it takes for a request to be there. -/
structure Complete (buf : List UInt8) (p : Nat) (head : Head) (total : Nat) : Prop where
  found : position terminator buf = some p
  read : headAt toLowercase buf p = some head
  length : total = p + 4 + head.contentLength
  bounded : total < 2 ^ 64

theorem findSubslice_terminator (buf : List UInt8) :
    findSubslice buf terminator = position terminator buf := by
  unfold findSubslice
  split
  · rename_i short
    cases found : position terminator buf with
    | none => rfl
    | some p =>
        have fits := position_add_length_le found terminator_ne_nil
        rcases short with empty | short
        · exact absurd empty terminator_ne_nil
        · omega
  · rfl

/-- The request that a head and a buffer make. -/
def Head.request (head : Head) (body : List UInt8) : Request where
  method := head.method
  path := head.path
  query := head.query
  headers := head.headers
  body := body

theorem parse_of_complete {buf : List UInt8} {p total : Nat} {head : Head}
    (complete : Complete toLowercase buf p head total) :
    Request.parse toLowercase buf =
      if buf.length < total then .ok none
      else .ok (some (head.request ((buf.take total).drop (p + 4)), total)) := by
  obtain ⟨found, read, rfl, bounded⟩ := complete
  rw [headAt] at read
  simp only [Request.parse, findSubslice_terminator, found, Nat.add_sub_cancel, read,
    Nat.not_le.mpr bounded, if_false]
  rfl

theorem complete_of_parse {buf : List UInt8} {req : Request} {total : Nat}
    (parsed : Request.parse toLowercase buf = .ok (some (req, total))) :
    ∃ p head, Complete toLowercase buf p head total ∧ total ≤ buf.length ∧
      req = head.request ((buf.take total).drop (p + 4)) := by
  unfold Request.parse at parsed
  rw [findSubslice_terminator] at parsed
  split at parsed
  · cases parsed
  · rename_i p found
    dsimp only at parsed
    split at parsed
    · cases parsed
    · rename_i head read
      split at parsed
      · cases parsed
      rename_i bounded
      split at parsed
      · cases parsed
      rename_i enough
      cases parsed
      exact ⟨p, head, ⟨found, read, rfl, Nat.not_le.mp bounded⟩, Nat.not_lt.mp enough, rfl⟩

variable {toLowercase}

/-- The front of a buffer has the same head, once all of it is there. -/
theorem Complete.take {buf : List UInt8} {p total : Nat} {head : Head}
    (complete : Complete toLowercase buf p head total) {k : Nat} (enough : p + 4 ≤ k) :
    Complete toLowercase (buf.take k) p head total := by
  obtain ⟨found, read, length, bounded⟩ := complete
  refine ⟨?_, ?_, length, bounded⟩
  · rw [position_take terminator_ne_nil found, length_terminator, if_pos enough]
  · rw [headAt, List.take_take, Nat.min_eq_left (by omega)]
    exact read

theorem Complete.append {buf : List UInt8} {p total : Nat} {head : Head}
    (complete : Complete toLowercase buf p head total) (extension : List UInt8) :
    Complete toLowercase (buf ++ extension) p head total := by
  obtain ⟨found, read, length, bounded⟩ := complete
  have fits := position_add_length_le found terminator_ne_nil
  refine ⟨position_append terminator_ne_nil found extension, ?_, length, bounded⟩
  rw [headAt, List.take_append_of_le_length (by omega)]
  exact read

/-- The front of a buffer is parsed as the whole is, or more is asked for. -/
theorem parse_take {buf : List UInt8} {req : Request} {total : Nat}
    (parsed : Request.parse toLowercase buf = .ok (some (req, total))) (k : Nat) :
    Request.parse toLowercase (buf.take k) =
      if total ≤ k then .ok (some (req, total)) else .ok none := by
  obtain ⟨p, head, complete, fits, rfl⟩ := complete_of_parse toLowercase parsed
  have after : p + 4 ≤ total := complete.length ▸ Nat.le_add_right _ _
  by_cases enough : p + 4 ≤ k
  · rw [parse_of_complete toLowercase (complete.take enough), List.length_take]
    by_cases whole : total ≤ k
    · rw [if_neg (by omega), if_pos whole, List.take_take, Nat.min_eq_left whole]
    · rw [if_pos (by omega), if_neg whole]
  · have absent : position terminator (buf.take k) = none := by
      rw [position_take terminator_ne_nil complete.found, length_terminator, if_neg enough]
    rw [if_neg (by omega), Request.parse, findSubslice_terminator, absent]

theorem parse_append {buf : List UInt8} {req : Request} {total : Nat}
    (parsed : Request.parse toLowercase buf = .ok (some (req, total)))
    (extension : List UInt8) :
    Request.parse toLowercase (buf ++ extension) = .ok (some (req, total)) := by
  obtain ⟨p, head, complete, fits, rfl⟩ := complete_of_parse toLowercase parsed
  rw [parse_of_complete toLowercase (complete.append extension), List.length_append,
    if_neg (by omega), List.take_append_of_le_length fits]

variable (toLowercase) in
theorem stable_parse : (Request.parse toLowercase).Stable where
  extend := parse_append
  cut parsed := by rw [parse_take parsed, if_pos (Nat.le_refl _)]
  wait {b} {value} {total} parsed part front proper := by
    obtain ⟨-, -, -, fits, -⟩ := complete_of_parse toLowercase parsed
    have cut : part = b.take part.length := by
      exact List.prefix_iff_eq_take.mp (front.trans (List.take_prefix total b))
    have short : part.length < total := by
      rcases front.length_le.lt_or_eq with less | same
      · rw [List.length_take] at less
        omega
      · exact absurd (front.eq_of_length same) proper
    rw [cut, parse_take parsed, if_neg (Nat.not_le.mpr short)]

end Parser

section Connection

variable (toLowercase : String → String)

/-- What becomes of a connection; the parser may end the thread. -/
inductive Served where
  | closed
  | dispatched (req : Request)
  | buffering (readBuf : List UInt8)
  | panicked

/-- Reads what has arrived, and parses once. -/
def serviceConn (readBuf chunk : List UInt8) : Served :=
  let readBuf := readBuf ++ chunk
  if 2 ^ 20 < readBuf.length then .closed
  else
    match Request.parse toLowercase readBuf with
    | .ok (some (req, _)) => .dispatched req
    | .ok none => .buffering readBuf
    | .error .malformed => .closed
    | .error .overflow => .panicked

/-- The events of one connection. -/
def serve (readBuf : List UInt8) : List (List UInt8) → Served
  | [] => .buffering readBuf
  | chunk :: rest =>
      match serviceConn toLowercase readBuf chunk with
      | .buffering readBuf => serve readBuf rest
      | outcome => outcome

variable {toLowercase}

/-- Within its limit the connection does what the parser does with the chunks. -/
theorem serve_of_feed {readBuf : List UInt8} {chunks : List (List UInt8)} {req : Request}
    {total : Nat} (fed : (Request.parse toLowercase).feed readBuf chunks = .ok (some (req, total)))
    (limited : (readBuf ++ chunks.flatten).length ≤ 2 ^ 20) :
    serve toLowercase readBuf chunks = .dispatched req := by
  induction chunks generalizing readBuf with
  | nil => cases fed
  | cons chunk rest inductionHypothesis =>
      rw [List.flatten_cons, ← List.append_assoc] at limited
      have short : ¬ 2 ^ 20 < (readBuf ++ chunk).length := by
        rw [List.length_append] at limited
        omega
      rw [Framer.feed] at fed
      rw [serve, serviceConn, if_neg short]
      cases parsed : Request.parse toLowercase (readBuf ++ chunk) with
      | error failure =>
          rw [parsed] at fed
          cases fed
      | ok outcome =>
          rw [parsed] at fed
          cases outcome with
          | none => exact inductionHypothesis fed limited
          | some pair =>
              cases fed
              rfl

end Connection

/-- A request is parsed alike from every buffer that starts with it and from itself, from no
proper part of it, and from every way to cut the stream into chunks. -/
theorem parse_chunked (toLowercase : String → String) {b : List UInt8} {req : Request}
    {total : Nat} (parsed : Request.parse toLowercase b = .ok (some (req, total))) :
    (∀ extension, Request.parse toLowercase (b ++ extension) = .ok (some (req, total))) ∧
      (∀ part, part <+: b.take total → part ≠ b.take total →
        Request.parse toLowercase part = .ok none) ∧
      Request.parse toLowercase (b.take total) = .ok (some (req, total)) ∧
      ∀ chunks : List (List UInt8), chunks.flatten = b →
        (Request.parse toLowercase).feed [] chunks = .ok (some (req, total)) ∧
          (b.length ≤ 2 ^ 20 → serve toLowercase [] chunks = .dispatched req) := by
  have stable := stable_parse toLowercase
  obtain ⟨p, head, complete, fits, -⟩ := complete_of_parse toLowercase parsed
  have positive : 0 < total := by
    rw [complete.length]
    omega
  refine ⟨stable.extend parsed, stable.wait parsed, stable.cut parsed, ?_⟩
  intro chunks cut
  have started : ([] : List UInt8).length < total := positive
  have fed := stable.feed_eq parsed fits started cut
  refine ⟨fed, fun limited => serve_of_feed fed ?_⟩
  rwa [List.nil_append, cut]

end Teleop.Cloud
