import Teleop.Cloud.RequestParser

/-!
# Requests as clients write them

A client writes a start line, one line a header, an empty line and a body.  The parser
reads back the lines that were written, so the header fields as far as trimming and
lower-casing leave them.
-/

namespace Teleop.Cloud

open Teleop.Lib

/-- The text before the empty line. -/
def headText (lines : List String) : String := "\r\n".intercalate lines

/-- The bytes of a message with these lines before the empty one. -/
def messageBytes (lines : List String) (body : List UInt8) : List UInt8 :=
  utf8 (headText lines) ++ (terminator ++ body)

/-- A line with something on it and no line feed. -/
def OneLine (line : String) : Prop := line ≠ "" ∧ '\n' ∉ line.toList

section Bytes

theorem toByteArray_utf8 (text : String) : (utf8 text).toByteArray = text.toByteArray := by
  rw [← String.utf8Encode_toList]
  rfl

theorem length_utf8 (text : String) : (utf8 text).length = text.utf8ByteSize := by
  rw [← String.size_toByteArray, ← toByteArray_utf8, List.size_toByteArray]

theorem fromUtf8_utf8 (text : String) : fromUtf8 (utf8 text) = some text := by
  rw [fromUtf8, toByteArray_utf8, String.fromUTF8?, dif_pos text.isValidUTF8]
  rfl

theorem lineFeed_not_mem_utf8 {text : String} (absent : '\n' ∉ text.toList) :
    (10 : UInt8) ∉ utf8 text := by
  intro among
  obtain ⟨c, member, encoded⟩ := List.mem_flatMap.mp among
  by_cases ascii : c.toNat < 0x80
  · rw [utf8EncodeChar_ascii ascii, List.mem_singleton] at encoded
    have code := congrArg UInt8.toNat encoded
    rw [UInt8.toNat_ofNat', Nat.mod_eq_of_lt (by omega)] at code
    have feed : c = '\n' := by
      rw [← Char.ofNat_toNat c, ← code]
      rfl
    exact absent (feed ▸ member)
  · have high := high_of_utf8EncodeChar (Nat.not_lt.mp ascii) 10 encoded
    exact absurd high (by decide)

theorem terminator_eq : terminator = [13, 10, 13, 10] := by decide

/-- After a line the terminator starts at once, or is looked for in what follows. -/
theorem position_line {line rest : List UInt8} (absent : (10 : UInt8) ∉ line) :
    position terminator (line ++ 13 :: 10 :: rest) =
      if [13, 10] <+: rest then some line.length
      else (position terminator rest).map (· + (line.length + 2)) := by
  induction line with
  | nil =>
      rw [List.nil_append, position, position, terminator_eq]
      by_cases ends : [13, 10] <+: rest
      · simp [List.cons_prefix_cons, ends]
      · simp [List.cons_prefix_cons, ends, Function.comp_def]
  | cons x line inductionHypothesis =>
      have others : (10 : UInt8) ∉ line := fun among => absent (List.mem_cons_of_mem _ among)
      have later : ¬ terminator <+: x :: (line ++ 13 :: 10 :: rest) := by
        rw [terminator_eq]
        cases line with
        | nil => simp [List.cons_prefix_cons]
        | cons y line =>
            have second : (10 : UInt8) ≠ y := by
              rintro rfl
              exact others List.mem_cons_self
            simp [List.cons_prefix_cons, second]
      rw [List.cons_append, position, if_neg later, inductionHypothesis others]
      split
      · rfl
      · simp only [Option.map_map, List.length_cons]
        congr 1

theorem messageBytes_singleton (line : String) (body : List UInt8) :
    messageBytes [line] body = utf8 line ++ 13 :: 10 :: 13 :: 10 :: body := by
  rw [messageBytes, headText, String.intercalate_singleton, terminator_eq]
  rfl

theorem messageBytes_cons (line next : String) (others : List String) (body : List UInt8) :
    messageBytes (line :: next :: others) body =
      utf8 line ++ 13 :: 10 :: messageBytes (next :: others) body := by
  have lineEnd : utf8 "\r\n" = [13, 10] := by decide
  simp [messageBytes, headText, String.intercalate_cons_cons, lineEnd]

/-- A message does not start with an empty line. -/
theorem not_lineEnd_prefix {line : String} (oneLine : OneLine line) (others : List String)
    (body : List UInt8) : ¬ [13, 10] <+: messageBytes (line :: others) body := by
  obtain ⟨rest, starts⟩ : ∃ rest, messageBytes (line :: others) body =
      utf8 line ++ 13 :: 10 :: rest := by
    cases others with
    | nil => exact ⟨_, messageBytes_singleton line body⟩
    | cons next others => exact ⟨_, messageBytes_cons line next others body⟩
  have nonempty := utf8_ne_nil oneLine.1
  have absent := lineFeed_not_mem_utf8 oneLine.2
  rw [starts]
  cases bytes : utf8 line with
  | nil => exact absurd bytes nonempty
  | cons x tail =>
      rw [bytes] at absent
      cases tail with
      | nil => simp [List.cons_prefix_cons]
      | cons y tail =>
          have second : (10 : UInt8) ≠ y := by
            rintro rfl
            exact absent (by simp)
          simp [List.cons_prefix_cons, second]

/-- Two line ends in a row come first after the last line. -/
theorem position_messageBytes {lines : List String} (nonempty : lines ≠ [])
    (oneLine : ∀ line ∈ lines, OneLine line) (body : List UInt8) :
    position terminator (messageBytes lines body) = some (utf8 (headText lines)).length := by
  induction lines with
  | nil => exact absurd rfl nonempty
  | cons line rest inductionHypothesis =>
      have absent := lineFeed_not_mem_utf8 (oneLine line List.mem_cons_self).2
      have others : ∀ line ∈ rest, OneLine line := fun line among =>
        oneLine line (List.mem_cons_of_mem _ among)
      cases rest with
      | nil =>
          have ends : [13, 10] <+: 13 :: 10 :: body := List.prefix_append [13, 10] body
          rw [messageBytes_singleton, position_line absent, headText,
            String.intercalate_singleton, if_pos ends]
      | cons next rest =>
          have further := not_lineEnd_prefix (others next List.mem_cons_self) rest body
          have lineEnd : (utf8 "\r\n").length = 2 := by decide
          rw [messageBytes_cons, position_line absent, if_neg further,
            inductionHypothesis (List.cons_ne_nil _ _) others]
          simp only [headText, String.intercalate_cons_cons, utf8_append, List.length_append,
            lineEnd, Option.map_some]
          congr 1
          omega

end Bytes

section Lines

/-- A character that no line end starts with belongs to the first line. -/
theorem splitLines_cons {c : Char} {rest line : List Char} {lines : List (List Char)}
    (split : splitLines rest = line :: lines) (other : rest.head? ≠ some '\n') :
    splitLines (c :: rest) = (c :: line) :: lines := by
  unfold splitLines
  split
  · rename_i empty
    cases empty
  · rename_i inner found
    cases found
    exact absurd rfl other
  · rename_i first tail _ found
    cases found
    rw [split]

theorem splitLines_line {line : List Char} (absent : '\n' ∉ line) :
    splitLines line = [line] := by
  induction line with
  | nil => rfl
  | cons c rest inductionHypothesis =>
      have others : '\n' ∉ rest := fun among => absent (List.mem_cons_of_mem c among)
      apply splitLines_cons (inductionHypothesis others)
      intro head
      exact others (List.mem_of_head? head)

theorem splitLines_append {line : List Char} (absent : '\n' ∉ line) (rest : List Char) :
    splitLines (line ++ '\r' :: '\n' :: rest) = line :: splitLines rest := by
  induction line with
  | nil => rw [List.nil_append, splitLines]
  | cons c line inductionHypothesis =>
      have others : '\n' ∉ line := fun among => absent (List.mem_cons_of_mem c among)
      apply splitLines_cons (inductionHypothesis others)
      cases line with
      | nil => simp
      | cons d line =>
          have second : d ≠ '\n' := by
            rintro rfl
            exact others List.mem_cons_self
          simpa using second

/-- The lines of a head are those it was written from. -/
theorem splitLines_headText {lines : List String} (nonempty : lines ≠ [])
    (oneLine : ∀ line ∈ lines, OneLine line) :
    splitLines (headText lines).toList = lines.map String.toList := by
  induction lines with
  | nil => exact absurd rfl nonempty
  | cons line rest inductionHypothesis =>
      have absent := (oneLine line List.mem_cons_self).2
      have others : ∀ line ∈ rest, OneLine line := fun line among =>
        oneLine line (List.mem_cons_of_mem _ among)
      cases rest with
      | nil => rw [headText, String.intercalate_singleton, splitLines_line absent]; rfl
      | cons next rest =>
          have following := inductionHypothesis (List.cons_ne_nil _ _) others
          have text : (headText (line :: next :: rest)).toList =
              line.toList ++ '\r' :: '\n' :: (headText (next :: rest)).toList := by
            simp [headText, String.intercalate_cons_cons]
          rw [text, splitLines_append absent, following]
          rfl

end Lines

section Message

variable (toLowercase : String → String)

/-- The header fields of some lines. -/
def fieldsOf (lines : List String) : List (String × String) :=
  lines.filterMap fun line => readHeader toLowercase line.toList

theorem fieldsOf_append (first second : List String) :
    fieldsOf toLowercase (first ++ second) =
      fieldsOf toLowercase first ++ fieldsOf toLowercase second := by
  simp [fieldsOf, List.filterMap_append]

theorem readHead_headText {start : String} {lines : List String}
    (oneLine : ∀ line ∈ start :: lines, OneLine line) {method target version : List Char}
    (tokens : splitWhitespace start.toList = [method, target, version]) :
    readHead toLowercase (headText (start :: lines)) =
      some {
        method := .parse (.ofList method)
        path := (splitQuery target).1
        query := (splitQuery target).2
        headers := fieldsOf toLowercase lines
        contentLength := (fieldsOf toLowercase lines).foldl nextLength 0 } := by
  have fields : ((lines.map String.toList).filter (· ≠ [])).filterMap (readHeader toLowercase) =
      fieldsOf toLowercase lines := by
    have filled : (lines.map String.toList).filter (· ≠ []) = lines.map String.toList := by
      apply List.filter_eq_self.mpr
      intro text among
      obtain ⟨line, member, rfl⟩ := List.mem_map.mp among
      have visible := (oneLine line (List.mem_cons_of_mem start member)).1
      simpa using visible
    rw [filled, List.filterMap_map]
    rfl
  rw [readHead, splitLines_headText (List.cons_ne_nil _ _) oneLine, List.map_cons]
  simp only [tokens, fields]

/-- A message is read as its start line, its header fields and its body, all of it. -/
theorem parse_messageBytes {start : String} {lines : List String}
    (oneLine : ∀ line ∈ start :: lines, OneLine line) {method target version : List Char}
    (tokens : splitWhitespace start.toList = [method, target, version]) {body : List UInt8}
    (length : (fieldsOf toLowercase lines).foldl nextLength 0 = body.length)
    (bounded : (messageBytes (start :: lines) body).length < 2 ^ 64) :
    Request.parse toLowercase (messageBytes (start :: lines) body) =
      .ok (some
        ({ method := .parse (.ofList method)
           path := (splitQuery target).1
           query := (splitQuery target).2
           headers := fieldsOf toLowercase lines
           body := body }, (messageBytes (start :: lines) body).length)) := by
  have size : (messageBytes (start :: lines) body).length =
      (utf8 (headText (start :: lines))).length + 4 + body.length := by
    rw [messageBytes, List.length_append, List.length_append, length_terminator, Nat.add_assoc]
  have front : (messageBytes (start :: lines) body).take
      (utf8 (headText (start :: lines))).length = utf8 (headText (start :: lines)) := by
    rw [messageBytes, List.take_left]
  have rest : (messageBytes (start :: lines) body).drop
      ((utf8 (headText (start :: lines))).length + 4) = body := by
    rw [messageBytes, ← length_terminator, ← List.length_append, ← List.append_assoc,
      List.drop_left]
  have complete := Complete.mk (position_messageBytes (List.cons_ne_nil start lines) oneLine body)
    (by rw [headAt, front, fromUtf8_utf8, Option.bind_some,
      readHead_headText toLowercase oneLine tokens]) rfl
    (by rw [length, ← size]; exact bounded)
  rw [parse_of_complete toLowercase complete, length, ← size, if_neg (Nat.lt_irrefl _),
    List.take_length, rest]
  rfl

end Message

section Instance

def asciiLowercase (text : String) : String := .ofList (text.toList.map Char.toLower)

/-- A request that arrives in chunks, with two line ends cut in the middle. -/
theorem parse_chunked_post :
    (Request.parse asciiLowercase).feed []
        [utf8 "POST /mcp HTTP/1.1\r", utf8 "\nContent-Length:  2\r\n\r", utf8 "\n", utf8 "hi"] =
      .ok (some
        ({ method := .parse "POST"
           path := "/mcp"
           query := ""
           headers := [("content-length", "2")]
           body := utf8 "hi" }, 44)) := by
  have oneLine : ∀ line ∈ ["POST /mcp HTTP/1.1", "Content-Length:  2"], OneLine line := by
    intro line among
    simp only [List.mem_cons, List.not_mem_nil, or_false] at among
    rcases among with rfl | rfl
    · exact ⟨by decide, by decide⟩
    · exact ⟨by decide, by decide⟩
  have parsed := parse_messageBytes asciiLowercase oneLine
    (show splitWhitespace "POST /mcp HTTP/1.1".toList =
      ["POST".toList, "/mcp".toList, "HTTP/1.1".toList] by decide)
    (show _ = (utf8 "hi").length by decide) (by decide)
  obtain ⟨-, -, -, chunked⟩ := parse_chunked asciiLowercase parsed
  exact (chunked _ (by decide)).1

end Instance

end Teleop.Cloud
