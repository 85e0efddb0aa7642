import Teleop.Cloud.Bearer

/-!
# Responses on the wire

A response is a status line, its headers, an empty line and the body.  The console reads the
stream to its end, takes what is no UTF-8 for replacement characters, and cuts at the first empty
line.
-/

namespace Teleop.Cloud

open Teleop.Lib

/-- The reason phrase of a status code. -/
def statusText (code : UInt16) : String :=
  match code with
  | 200 => "OK"
  | 201 => "Created"
  | 204 => "No Content"
  | 400 => "Bad Request"
  | 401 => "Unauthorized"
  | 403 => "Forbidden"
  | 404 => "Not Found"
  | 405 => "Method Not Allowed"
  | 422 => "Unprocessable Entity"
  | 500 => "Internal Server Error"
  | 501 => "Not Implemented"
  | _ => "Unknown"

def Response.toBytes (resp : Response) : List UInt8 :=
  utf8 ("HTTP/1.1 " ++ toString resp.status.toNat ++ " " ++ statusText resp.status ++ "\r\n") ++
    resp.headers.flatMap (fun header => utf8 (header.1 ++ ": " ++ header.2 ++ "\r\n")) ++
    utf8 "connection: close\r\n\r\n" ++ resp.body

section Client

/-- The second byte may follow the first one of three or four. -/
def mayFollow (first second : UInt8) : Bool :=
  let low := if first = 0xE0 then 0xA0 else if first = 0xF0 then 0x90 else 0x80
  let high := if first = 0xED then 0x9F else if first = 0xF4 then 0x8F else 0xBF
  0xE0 ≤ first && first ≤ 0xF4 && low ≤ second && second ≤ high

/-- The bytes one replacement character stands for, where no character starts: the longest part
that a character could have started with, or one byte. -/
def invalidLength : List UInt8 → Nat
  | first :: second :: third :: _ =>
      if mayFollow first second then
        if 0xF0 ≤ first ∧ 0x80 ≤ third ∧ third ≤ 0xBF then 3 else 2
      else 1
  | [first, second] => if mayFollow first second then 2 else 1
  | _ => 1

def lossyChars : (fuel : Nat) → List UInt8 → List Char
  | 0, _ => []
  | _ + 1, [] => []
  | fuel + 1, raw =>
      match raw.toByteArray.utf8DecodeChar? 0 with
      | some c => c :: lossyChars fuel (raw.drop c.utf8Size)
      | none => '\uFFFD' :: lossyChars fuel (raw.drop (invalidLength raw))

/-- `String::from_utf8_lossy`. -/
def fromUtf8Lossy (raw : List UInt8) : String := .ofList (lossyChars raw.length raw)

/-- `splitn(2, "\r\n\r\n")`, by the bytes of the text; both parts are text again. -/
def splitHead (text : String) : String × String :=
  match position terminator (utf8 text) with
  | some p =>
      ((fromUtf8 ((utf8 text).take p)).getD "", (fromUtf8 ((utf8 text).drop (p + 4))).getD "")
  | none => (text, "")

/-- `lines().next()`: a carriage return before the line feed belongs to the line end. -/
def firstLine (text : List Char) : Option (List Char) :=
  let line := text.takeWhile (· ≠ '\n')
  if text = [] then none
  else if line.length < text.length ∧ line.getLast? = some '\r' then some line.dropLast
  else some line

/-- `str::parse::<u16>`. -/
def parseU16 (text : List Char) : Option UInt16 :=
  (parseU64 text).bind fun value =>
    if value.toNat < 2 ^ 16 then some (.ofNat value.toNat) else none

/-- The status and the body of what the console has read. -/
def readReply (raw : List UInt8) : UInt16 × String :=
  let (head, body) := splitHead (fromUtf8Lossy raw)
  let status := (firstLine head.toList).bind fun line => (splitWhitespace line)[1]?.bind parseU16
  (status.getD 0, body)

end Client

namespace Response

def statusLine (code : UInt16) : String :=
  "HTTP/1.1 " ++ toString code.toNat ++ " " ++ statusText code

def headerLines (headers : List (String × String)) : List String :=
  headers.map fun header => header.1 ++ ": " ++ header.2

/-- The lines of a response before the empty one. -/
def lines (resp : Response) : List String :=
  statusLine resp.status :: (headerLines resp.headers ++ ["connection: close"])

end Response

section Written

theorem utf8_lineEnd (line : String) : utf8 (line ++ "\r\n") = utf8 line ++ [13, 10] := by
  rw [utf8_append]
  rfl

/-- Lines that are each written with its end, and the last one with an empty line after it. -/
theorem flatMap_lines (lines : List String) (body : List UInt8) :
    lines.flatMap (fun line => utf8 (line ++ "\r\n")) ++ (utf8 "connection: close\r\n\r\n" ++ body) =
      messageBytes (lines ++ ["connection: close"]) body := by
  induction lines with
  | nil =>
      rw [List.nil_append, messageBytes_singleton]
      rfl
  | cons line rest inductionHypothesis =>
      obtain ⟨next, others, same⟩ : ∃ next others, rest ++ ["connection: close"] = next :: others :=
        List.exists_cons_of_ne_nil (by simp)
      rw [List.flatMap_cons, List.append_assoc, inductionHypothesis, List.cons_append, same,
        messageBytes_cons, utf8_lineEnd, List.append_assoc]
      rfl

theorem toBytes_eq (resp : Response) : resp.toBytes = messageBytes resp.lines resp.body := by
  have written := flatMap_lines (Response.statusLine resp.status ::
    Response.headerLines resp.headers) resp.body
  rw [Response.lines, ← List.cons_append, ← written, List.flatMap_cons, Response.headerLines,
    List.flatMap_map, Response.toBytes, Response.statusLine, List.append_assoc, List.append_assoc]

theorem length_le_flatMap_utf8 (text : List Char) :
    text.length ≤ (text.flatMap String.utf8EncodeChar).length := by
  induction text with
  | nil => exact Nat.le_refl _
  | cons c rest inductionHypothesis =>
      have size := c.utf8Size_pos
      rw [List.flatMap_cons, List.length_append, String.length_utf8EncodeChar, List.length_cons]
      omega

theorem lossyChars_flatMap (text : List Char) {fuel : Nat} (enough : text.length ≤ fuel) :
    lossyChars fuel (text.flatMap String.utf8EncodeChar) = text := by
  induction text generalizing fuel with
  | nil => cases fuel <;> rfl
  | cons c rest inductionHypothesis =>
      obtain ⟨fuel, rfl⟩ : ∃ less, fuel = less + 1 := Nat.exists_eq_add_one.mpr (by
        rw [List.length_cons] at enough
        omega)
      have decoded : ((c :: rest).flatMap String.utf8EncodeChar).toByteArray.utf8DecodeChar? 0 =
          some c := by
        rw [List.flatMap_cons, List.toByteArray_append]
        exact ByteArray.utf8DecodeChar?_utf8EncodeChar_append
      have starts : (c :: rest).flatMap String.utf8EncodeChar ≠ [] := by
        intro empty
        rw [empty] at decoded
        cases decoded
      rw [lossyChars, decoded]
      · dsimp only
        rw [List.flatMap_cons, ← String.length_utf8EncodeChar, List.drop_left,
          inductionHypothesis (Nat.le_of_succ_le_succ enough)]
      · exact starts

/-- Text is decoded as itself. -/
theorem fromUtf8Lossy_utf8 (text : String) : fromUtf8Lossy (utf8 text) = text := by
  rw [fromUtf8Lossy, utf8, lossyChars_flatMap _ (length_le_flatMap_utf8 text.toList),
    String.ofList_toList]

end Written

section Read

theorem lineFeed_not_mem_repr (n : Nat) : '\n' ∉ (toString n).toList := fun among =>
  absurd (isWhitespace_repr n '\n' among) (by decide)

theorem lineFeed_not_mem_statusText (code : UInt16) : '\n' ∉ (statusText code).toList := by
  unfold statusText
  split <;> decide

theorem oneLine_statusLine (code : UInt16) : OneLine (Response.statusLine code) := by
  have lead : OneLine ("HTTP/1.1 " ++ toString code.toNat) :=
    oneLine_append ⟨by decide, by decide⟩ (lineFeed_not_mem_repr code.toNat)
  have spaced : OneLine ("HTTP/1.1 " ++ toString code.toNat ++ " ") :=
    oneLine_append lead (by decide)
  exact oneLine_append spaced (lineFeed_not_mem_statusText code)

/-- The text of some lines and a body is cut at the empty line. -/
theorem splitHead_message {lines : List String} (nonempty : lines ≠ [])
    (oneLine : ∀ line ∈ lines, OneLine line) (body : String) :
    splitHead (headText lines ++ "\r\n\r\n" ++ body) = (headText lines, body) := by
  have bytes : utf8 (headText lines ++ "\r\n\r\n" ++ body) = messageBytes lines (utf8 body) := by
    rw [utf8_append, utf8_append, List.append_assoc]
    rfl
  have rest : (messageBytes lines (utf8 body)).drop ((utf8 (headText lines)).length + 4) =
      utf8 body := by
    rw [messageBytes, ← length_terminator, ← List.length_append, ← List.append_assoc,
      List.drop_left]
  rw [splitHead, bytes, position_messageBytes nonempty oneLine]
  dsimp only
  rw [rest, messageBytes, List.take_left, fromUtf8_utf8, fromUtf8_utf8]
  rfl

/-- The first of several lines. -/
theorem firstLine_headText {line next : String} (oneLine : OneLine line) (others : List String) :
    firstLine (headText (line :: next :: others)).toList = some line.toList := by
  have text : (headText (line :: next :: others)).toList =
      line.toList ++ '\r' :: '\n' :: (headText (next :: others)).toList := by
    simp [headText, String.intercalate_cons_cons]
  have before : ∀ c ∈ line.toList ++ ['\r'], decide (c ≠ '\n') = true := by
    intro c among
    rw [decide_eq_true_iff]
    rintro rfl
    rcases List.mem_append.mp among with inside | ending
    · exact oneLine.2 inside
    · simp at ending
  have first : (line.toList ++ '\r' :: '\n' :: (headText (next :: others)).toList).takeWhile
      (· ≠ '\n') = line.toList ++ ['\r'] := by
    rw [← List.singleton_append, ← List.append_assoc, List.takeWhile_append_of_pos before]
    simp
  rw [text, firstLine, first]
  simp

theorem parseU16_repr (code : UInt16) : parseU16 (toString code.toNat).toList = some code := by
  have small := code.toNat_lt
  have wide : code.toNat < 2 ^ 64 := by omega
  have value : (UInt64.ofNat code.toNat).toNat = code.toNat := UInt64.toNat_ofNat_of_lt' wide
  rw [parseU16, parseU64_repr wide, Option.bind_some, value, if_pos small, UInt16.ofNat_toNat]

/-- The second word of a status line. -/
theorem status_statusLine (code : UInt16) :
    (splitWhitespace (Response.statusLine code).toList)[1]?.bind parseU16 = some code := by
  have words : (Response.statusLine code).toList =
      "HTTP/1.1".toList ++ ' ' :: ((toString code.toNat).toList ++
        ' ' :: (statusText code).toList) := by
    have lead : "HTTP/1.1 ".toList = "HTTP/1.1".toList ++ [' '] := by decide
    have space : " ".toList = [' '] := rfl
    rw [Response.statusLine, String.toList_append, String.toList_append, String.toList_append,
      lead, space]
    simp only [List.append_assoc, List.cons_append, List.nil_append]
  have digits : (toString code.toNat).toList ≠ [] := by
    rw [show (toString code.toNat).toList = Nat.toDigits 10 code.toNat from Nat.toList_repr]
    exact Nat.toDigits_ne_nil
  have version : "HTTP/1.1".toList ≠ [] := by simp
  have blank : isWhitespace ' ' = true := by decide
  have unbroken : ∀ c ∈ "HTTP/1.1".toList, isWhitespace c = false := by simp [isWhitespace]
  rw [splitWhitespace, words,
    List.splitOnP_append_cons_of_forall_mem unbroken ' ' blank,
    List.splitOnP_append_cons_of_forall_mem (isWhitespace_repr code.toNat) ' ' blank]
  simp only [List.filter_cons, decide_eq_true version, decide_eq_true digits, if_true]
  exact parseU16_repr code

/-- What the console reads back: the status, and the body if that is text. -/
theorem readReply_toBytes {resp : Response} {body : String}
    (oneLine : ∀ line ∈ Response.headerLines resp.headers, OneLine line)
    (text : resp.body = utf8 body) : readReply resp.toBytes = (resp.status, body) := by
  have whole : ∀ line ∈ resp.lines, OneLine line := by
    intro line among
    simp only [Response.lines, List.mem_cons, List.mem_append, List.not_mem_nil, or_false] at among
    rcases among with rfl | header | rfl
    · exact oneLine_statusLine resp.status
    · exact oneLine line header
    · exact ⟨by decide, by decide⟩
  have bytes : resp.toBytes = utf8 (headText resp.lines ++ "\r\n\r\n" ++ body) := by
    rw [toBytes_eq, text, utf8_append, utf8_append, List.append_assoc]
    rfl
  obtain ⟨next, others, same⟩ : ∃ next others,
      Response.headerLines resp.headers ++ ["connection: close"] = next :: others :=
    List.exists_cons_of_ne_nil (by simp)
  have first : firstLine (headText resp.lines).toList =
      some (Response.statusLine resp.status).toList := by
    rw [Response.lines, same]
    exact firstLine_headText (oneLine_statusLine resp.status) others
  have cut := splitHead_message (List.cons_ne_nil _ _) whole body
  rw [← Response.lines] at cut
  rw [readReply, bytes, fromUtf8Lossy_utf8, cut]
  dsimp only
  rw [first, Option.bind_some, status_statusLine]
  rfl

theorem oneLine_headers_withBody {code : UInt16} {contentType : String} {body : List UInt8}
    (plain : '\n' ∉ contentType.toList) :
    ∀ line ∈ Response.headerLines (Response.withBody code contentType body).headers,
      OneLine line := by
  intro line among
  simp only [Response.headerLines, Response.withBody, List.map_cons, List.map_nil, List.mem_cons,
    List.not_mem_nil, or_false] at among
  rcases among with rfl | rfl
  · exact oneLine_append ⟨by decide, by decide⟩ plain
  · exact oneLine_append ⟨by decide, by decide⟩ (lineFeed_not_mem_repr body.length)

theorem readReply_withBody (code : UInt16) {contentType : String}
    (plain : '\n' ∉ contentType.toList) (body : String) :
    readReply (Response.withBody code contentType (utf8 body)).toBytes = (code, body) :=
  readReply_toBytes (oneLine_headers_withBody plain) rfl

end Read

end Teleop.Cloud
