import Mathlib.Data.Rat.Floor
import Mathlib.Data.UInt
import Teleop.Lib.Bytes
import Teleop.Lib.FloatOps

/-!
# The JSON codec

Values, the accessors of the server, the writer and the parser.  Numbers are `f64`, whose
conversions are a parameter.  The parser works on bytes: a raw byte of a string becomes the
character of the same number, and what follows a failure is not looked at.
-/

namespace Teleop.Cloud

open Teleop.Lib

/-- The conversions of `f64` that the codec uses; those to integers saturate. -/
class JsonNumber (F : Type) extends FloatOps F where
  isFinite : F → Bool
  fract : F → F
  toInt64 : F → Int64
  toUInt64 : F → UInt64
  /-- `str::parse`, on ASCII bytes. -/
  parse : List UInt8 → Option F
  display : F → String

/-- A JSON value. -/
inductive Json (F : Type) where
  | null
  | bool (value : Bool)
  | num (value : F)
  | str (value : String)
  | arr (items : List (Json F))
  | obj (fields : List (String × Json F))

namespace Json

variable {F : Type}

section Accessors

/-- Looks up a field by its key, in the first entry that has it. -/
def get (json : Json F) (key : String) : Option (Json F) :=
  match json with
  | .obj fields => (fields.find? fun field => field.1 = key).map (·.2)
  | _ => none

def asStr : Json F → Option String
  | .str value => some value
  | _ => none

def asArray : Json F → Option (List (Json F))
  | .arr items => some items
  | _ => none

variable [JsonNumber F]

def asU64 : Json F → Option UInt64
  | .num value => some (JsonNumber.toUInt64 value)
  | _ => none

def uint (n : UInt64) : Json F := .num (FloatOps.ofRat n.toNat)

/-- An object whose values are all strings. -/
def objStr (fields : List (String × String)) : Json F :=
  .obj (fields.map fun field => (field.1, .str field.2))

end Accessors

section Writer

def hexPadded (n : Nat) : String :=
  let digits := Nat.toDigits 16 n
  .ofList (List.replicate (4 - digits.length) '0' ++ digits)

def writeChar (c : Char) : String :=
  if c.toNat = 0x22 then "\\\""
  else if c = '\\' then "\\\\"
  else if c = '\n' then "\\n"
  else if c = '\r' then "\\r"
  else if c = '\t' then "\\t"
  else if c.toNat = 0x08 then "\\b"
  else if c.toNat = 0x0C then "\\f"
  else if c.toNat < 0x20 then "\\u" ++ hexPadded c.toNat
  else c.toString

def writeString (text : String) : String :=
  "\"" ++ String.join (text.toList.map writeChar) ++ "\""

/-- Integers of up to fifteen digits are written without a fraction. -/
def writeNumber [JsonNumber F] (value : F) : String :=
  if JsonNumber.isFinite value && FloatOps.eq (JsonNumber.fract value) (0 : F) &&
      FloatOps.lt (FloatOps.abs value) (FloatOps.ofRat (10 ^ 15)) then
    toString (JsonNumber.toInt64 value)
  else JsonNumber.display value

mutual

/-- Compact JSON text. -/
def write [JsonNumber F] : Json F → String
  | .null => "null"
  | .bool true => "true"
  | .bool false => "false"
  | .num value => writeNumber value
  | .str value => writeString value
  | .arr items => "[" ++ ",".intercalate (writeItems items) ++ "]"
  | .obj fields => "\x7b" ++ ",".intercalate (writeFields fields) ++ "\x7d"

def writeItems [JsonNumber F] : List (Json F) → List String
  | [] => []
  | item :: rest => write item :: writeItems rest

def writeFields [JsonNumber F] : List (String × Json F) → List String
  | [] => []
  | (key, value) :: rest => (writeString key ++ ":" ++ write value) :: writeFields rest

end

end Writer

end Json

namespace JsonParser

/-- Why a parse ended: with a message, or because the recursion was cut off. -/
inductive Failure where
  | message (text : String)
  | outOfFuel
  deriving DecidableEq, Repr

/-- A value and the bytes after it. -/
abbrev Parsed (α : Type) := Except Failure (α × List UInt8)

def fail {α : Type} (text : String) : Except Failure α := .error (.message text)

def byte (c : Char) : UInt8 := .ofNat c.toNat

/-- `u8 as char`. -/
def ofByte (b : UInt8) : Char := .ofNat b.toNat

def quote : UInt8 := 0x22

def isWs (b : UInt8) : Bool := b = 0x20 || b = 0x09 || b = 0x0A || b = 0x0D

def isDigit (b : UInt8) : Bool := byte '0' ≤ b && b ≤ byte '9'

def skipWs (b : List UInt8) : List UInt8 := b.dropWhile isWs

/-- The literal `lit` at the start of `b`. -/
def expect {α : Type} (value : α) (lit : String) (b : List UInt8) : Parsed α :=
  let bytes := lit.toList.map byte
  if bytes <+: b then .ok (value, b.drop bytes.length)
  else fail ("expected '" ++ lit ++ "'")

section Strings

def hexDigit (b : UInt8) : Option Nat :=
  if isDigit b then some (b.toNat - 0x30)
  else if byte 'a' ≤ b && b ≤ byte 'f' then some (b.toNat - 0x61 + 10)
  else if byte 'A' ≤ b && b ≤ byte 'F' then some (b.toNat - 0x41 + 10)
  else none

def hexNumber (digits : List UInt8) : Option Nat :=
  digits.foldlM (fun value b => (hexDigit b).map (value * 16 + ·)) 0

/-- `u32::from_str_radix`, which takes a leading plus sign. -/
def fromStrRadix16 (first : UInt8) (rest : List UInt8) : Option Nat :=
  if first = byte '+' then hexNumber rest else hexNumber (first :: rest)

/-- `char::from_u32`, which refuses surrogates. -/
def fromU32 (code : Nat) : Option Char :=
  if code.isValidChar then some (.ofNat code) else none

/-- The character of a one-byte escape. -/
def unescape (e : UInt8) : Option Char :=
  if e = quote then some (ofByte quote)
  else if e = byte '\\' then some '\\'
  else if e = byte '/' then some '/'
  else if e = byte 'n' then some '\n'
  else if e = byte 'r' then some '\r'
  else if e = byte 't' then some '\t'
  else if e = byte 'b' then some (ofByte 0x08)
  else if e = byte 'f' then some (ofByte 0x0C)
  else none

/-- The rest of a string after its opening quote; `s` holds the characters so far, last
first. -/
def parseString : List UInt8 → List Char → Parsed String
  | [], _ => fail "unterminated string"
  | c :: rest, s =>
      if c = quote then .ok (.ofList s.reverse, rest)
      else if c = byte '\\' then
        match rest with
        | [] => fail "unterminated escape"
        | e :: rest =>
            if e = byte 'u' then
              match rest with
              | h :: i :: j :: k :: rest =>
                  match fromStrRadix16 h [i, j, k] with
                  | none => fail "bad \\u escape"
                  | some code =>
                      match fromU32 code with
                      | none => fail "bad \\u codepoint"
                      | some character => parseString rest (character :: s)
              | _ => fail "bad \\u escape"
            else
              match unescape e with
              | some character => parseString rest (character :: s)
              | none => fail ("bad escape '\\" ++ (ofByte e).toString ++ "'")
      else parseString rest (ofByte c :: s)

end Strings

section Numbers

/-- Drops one byte if it is of a kind. -/
def skipOne (p : UInt8 → Bool) : List UInt8 → List UInt8
  | [] => []
  | c :: rest => if p c then rest else c :: rest

def skipDigits (b : List UInt8) : List UInt8 := b.dropWhile isDigit

def skipFraction : List UInt8 → List UInt8
  | [] => []
  | c :: rest => if c = byte '.' then skipDigits rest else c :: rest

def skipExponent : List UInt8 → List UInt8
  | [] => []
  | c :: rest =>
      if c = byte 'e' ∨ c = byte 'E' then
        skipDigits (skipOne (fun sign => sign = byte '+' || sign = byte '-') rest)
      else c :: rest

/-- What follows the longest number at the start of `b`. -/
def skipNumber (b : List UInt8) : List UInt8 :=
  skipExponent (skipFraction (skipDigits (skipOne (· = byte '-') b)))

variable {F : Type} [JsonNumber F]

def parseNumber (b : List UInt8) : Parsed F :=
  let rest := skipNumber b
  match JsonNumber.parse (b.take (b.length - rest.length)) with
  | none => fail "invalid number"
  | some value => .ok (value, rest)

end Numbers

section Values

variable {F : Type} [JsonNumber F]

/-- After an opening bracket: the empty container, or the loop over its contents. -/
def orEmpty (closing : UInt8) (empty : Json F) (loop : List UInt8 → Parsed (Json F))
    (b : List UInt8) : Parsed (Json F) :=
  match skipWs b with
  | [] => loop []
  | c :: rest => if c = closing then .ok (empty, rest) else loop (c :: rest)

mutual

def parseValue : (fuel : Nat) → List UInt8 → Parsed (Json F)
  | 0, _ => .error .outOfFuel
  | fuel + 1, b =>
      match skipWs b with
      | [] => fail "unexpected end of input"
      | c :: rest =>
          if c = quote then (parseString rest []).map fun (text, rest) => (.str text, rest)
          else if c = 0x7B then orEmpty 0x7D (.obj []) (parseFields fuel []) rest
          else if c = byte '[' then orEmpty (byte ']') (.arr []) (parseItems fuel []) rest
          else if c = byte 't' then expect (.bool true) "true" (c :: rest)
          else if c = byte 'f' then expect (.bool false) "false" (c :: rest)
          else if c = byte 'n' then expect .null "null" (c :: rest)
          else if c = byte '-' ∨ isDigit c then
            (parseNumber (c :: rest)).map fun (value, rest) => (.num value, rest)
          else fail ("unexpected character '" ++ (ofByte c).toString ++ "' in JSON")

/-- The loop of `parse_array`. -/
def parseItems : (fuel : Nat) → List (Json F) → List UInt8 → Parsed (Json F)
  | 0, _, _ => .error .outOfFuel
  | fuel + 1, items, b =>
      match parseValue fuel b with
      | .error failure => .error failure
      | .ok (value, rest) =>
          match skipWs rest with
          | [] => fail "unterminated array"
          | c :: rest =>
              if c = byte ',' then parseItems fuel (items ++ [value]) rest
              else if c = byte ']' then .ok (.arr (items ++ [value]), rest)
              else fail "expected ',' or ']' in array"

/-- The loop of `parse_object`. -/
def parseFields : (fuel : Nat) → List (String × Json F) → List UInt8 → Parsed (Json F)
  | 0, _, _ => .error .outOfFuel
  | fuel + 1, fields, b =>
      match skipWs b with
      | [] => fail "expected object key string"
      | c :: rest =>
          if c = quote then
            match parseString rest [] with
            | .error failure => .error failure
            | .ok (key, rest) =>
                match skipWs rest with
                | [] => fail "expected ':' in object"
                | c :: rest =>
                    if c = byte ':' then
                      match parseValue fuel rest with
                      | .error failure => .error failure
                      | .ok (value, rest) =>
                          match skipWs rest with
                          | [] => fail "unterminated object"
                          | c :: rest =>
                              if c = byte ',' then
                                parseFields fuel (fields ++ [(key, value)]) rest
                              else if c = 0x7D then .ok (.obj (fields ++ [(key, value)]), rest)
                              else fail "expected ',' or '\x7d' in object"
                    else fail "expected ':' in object"
          else fail "expected object key string"

end

end Values

section Fuel

variable {F : Type} [JsonNumber F] {α : Type}

/-- A result that was not cut off, and leaves at most `limit` bytes. -/
def Done (limit : Nat) : Parsed α → Prop
  | .ok (_, rest) => rest.length ≤ limit
  | .error failure => failure ≠ .outOfFuel

theorem done_fail (limit : Nat) (text : String) : Done limit (fail text : Parsed α) := nofun

theorem Done.mono {limit other : Nat} {result : Parsed α} (done : Done limit result)
    (le : limit ≤ other) : Done other result := by
  cases result with
  | error failure => exact done
  | ok parsed => exact Nat.le_trans done le

theorem Done.map {β : Type} {limit : Nat} {result : Parsed α} (done : Done limit result)
    (f : α → β) :
    Done limit (result.map fun (value, rest) => (f value, rest)) := by
  cases result with
  | error failure => exact done
  | ok parsed => exact done

theorem length_skipWs (b : List UInt8) : (skipWs b).length ≤ b.length :=
  (List.dropWhile_suffix isWs).length_le

/-- What whitespace leaves, byte by byte. -/
theorem length_of_skipWs {b rest : List UInt8} {c : UInt8} (skipped : skipWs b = c :: rest) :
    rest.length < b.length := by
  have le := length_skipWs b
  rw [skipped] at le
  exact le

theorem done_expect (value : α) (lit : String) (b : List UInt8) :
    Done b.length (expect value lit b) := by
  simp only [expect]
  split
  · exact (List.drop_suffix _ b).length_le
  · exact done_fail _ _

theorem done_parseString (b : List UInt8) (s : List Char) :
    Done b.length (parseString b s) := by
  fun_induction parseString b s with
  | case2 rest s => exact Nat.le_succ rest.length
  | case6 s h i j k rest _ code _ character _ inductionHypothesis =>
      exact inductionHypothesis.mono (by simp only [List.length_cons]; omega)
  | case8 s e rest _ _ character _ inductionHypothesis =>
      exact inductionHypothesis.mono (by simp only [List.length_cons]; omega)
  | case10 c rest s _ _ inductionHypothesis =>
      exact inductionHypothesis.mono (Nat.le_succ rest.length)
  | _ => exact done_fail _ _

theorem length_skipNumber (b : List UInt8) : (skipNumber b).length ≤ b.length := by
  have digits : ∀ b, (skipDigits b).length ≤ b.length := fun b =>
    (List.dropWhile_suffix isDigit).length_le
  have one : ∀ p b, (skipOne p b).length ≤ b.length := by
    intro p b
    cases b with
    | nil => exact Nat.le_refl _
    | cons c rest =>
        rw [skipOne]
        split
        · exact Nat.le_succ rest.length
        · exact Nat.le_refl _
  have fraction : ∀ b, (skipFraction b).length ≤ b.length := by
    intro b
    cases b with
    | nil => exact Nat.le_refl _
    | cons c rest =>
        rw [skipFraction]
        split
        · exact Nat.le_trans (digits rest) (Nat.le_succ rest.length)
        · exact Nat.le_refl _
  have exponent : ∀ b, (skipExponent b).length ≤ b.length := by
    intro b
    cases b with
    | nil => exact Nat.le_refl _
    | cons c rest =>
        rw [skipExponent]
        split
        · exact Nat.le_trans (Nat.le_trans (digits _) (one _ rest)) (Nat.le_succ rest.length)
        · exact Nat.le_refl _
  calc (skipNumber b).length
    _ ≤ (skipFraction (skipDigits (skipOne (· = byte '-') b))).length := exponent _
    _ ≤ (skipDigits (skipOne (· = byte '-') b)).length := fraction _
    _ ≤ (skipOne (· = byte '-') b).length := digits _
    _ ≤ b.length := one _ b

theorem done_parseNumber (b : List UInt8) : Done b.length (parseNumber b : Parsed F) := by
  simp only [parseNumber]
  split
  · exact done_fail _ _
  · exact length_skipNumber b

omit [JsonNumber F] in
theorem done_orEmpty {closing : UInt8} {empty : Json F} {loop : List UInt8 → Parsed (Json F)}
    {b : List UInt8} (looped : ∀ rest : List UInt8, rest.length ≤ b.length →
      Done rest.length (loop rest)) :
    Done b.length (orEmpty closing empty loop b) := by
  have skipped := length_skipWs b
  unfold orEmpty
  split
  · exact (looped [] (Nat.zero_le _)).mono (Nat.zero_le _)
  · rename_i c rest found
    rw [found] at skipped
    split
    · exact Nat.le_trans (Nat.le_succ _) skipped
    · exact (looped (c :: rest) skipped).mono skipped

section Steps

variable (F) in
/-- Two units of fuel a byte are enough for a value. -/
def ValuesDone (fuel : Nat) : Prop :=
  ∀ b, 2 * b.length < fuel → Done b.length (parseValue fuel b : Parsed (Json F))

variable (F) in
def ItemsDone (fuel : Nat) : Prop :=
  ∀ items b, 2 * b.length + 1 < fuel →
    Done b.length (parseItems fuel items b : Parsed (Json F))

variable (F) in
def FieldsDone (fuel : Nat) : Prop :=
  ∀ fields b, 2 * b.length + 1 < fuel →
    Done b.length (parseFields fuel fields b : Parsed (Json F))

variable {fuel : Nat}

theorem ItemsDone.values (items : ItemsDone F fuel) (fields : FieldsDone F fuel) :
    ValuesDone F (fuel + 1) := by
  intro b enough
  unfold parseValue
  split
  · exact done_fail _ _
  · rename_i c rest skipped
    have shorter := length_of_skipWs skipped
    have whole : (c :: rest).length ≤ b.length := shorter
    split
    · exact ((done_parseString rest []).map _).mono (Nat.le_of_lt shorter)
    split
    · refine (done_orEmpty ?_).mono (Nat.le_of_lt shorter)
      intro inner le
      exact fields [] inner (by omega)
    split
    · refine (done_orEmpty ?_).mono (Nat.le_of_lt shorter)
      intro inner le
      exact items [] inner (by omega)
    split
    · exact (done_expect _ _ _).mono whole
    split
    · exact (done_expect _ _ _).mono whole
    split
    · exact (done_expect _ _ _).mono whole
    split
    · exact ((done_parseNumber (c :: rest)).map _).mono whole
    · exact done_fail _ _

theorem ValuesDone.items (values : ValuesDone F fuel) (items : ItemsDone F fuel) :
    ItemsDone F (fuel + 1) := by
  intro found b enough
  have value := values b (by omega)
  unfold parseItems
  split
  · rename_i failure parsed
    rw [parsed] at value
    exact value
  · rename_i item rest parsed
    rw [parsed] at value
    have left : rest.length ≤ b.length := value
    split
    · exact done_fail _ _
    · rename_i c rest skipped
      have shorter := length_of_skipWs skipped
      split
      · exact (items _ rest (by omega)).mono (by omega)
      split
      · exact Nat.le_of_lt (Nat.lt_of_lt_of_le shorter left)
      · exact done_fail _ _

theorem ValuesDone.fields (values : ValuesDone F fuel) (fields : FieldsDone F fuel) :
    FieldsDone F (fuel + 1) := by
  intro found b enough
  unfold parseFields
  split
  · exact done_fail _ _
  · rename_i c rest skipped
    have shorter := length_of_skipWs skipped
    split
    · have text := done_parseString rest []
      split
      · rename_i failure parsed
        rw [parsed] at text
        exact text
      · rename_i key rest parsed
        rw [parsed] at text
        have keyed : rest.length ≤ _ := text
        split
        · exact done_fail _ _
        · rename_i c rest skipped
          have colon := length_of_skipWs skipped
          split
          · have value := values rest (by omega)
            split
            · rename_i failure parsed
              rw [parsed] at value
              exact value
            · rename_i item rest parsed
              rw [parsed] at value
              have left : rest.length ≤ _ := value
              split
              · exact done_fail _ _
              · rename_i c rest skipped
                have after := length_of_skipWs skipped
                split
                · exact (fields _ rest (by omega)).mono (by omega)
                split
                · exact (show rest.length ≤ b.length by omega)
                · exact done_fail _ _
          · exact done_fail _ _
    · exact done_fail _ _

end Steps

/-- The recursion is never cut off. -/
theorem done_of_fuel (fuel : Nat) :
    ValuesDone F fuel ∧ ItemsDone F fuel ∧ FieldsDone F fuel := by
  induction fuel with
  | zero => exact ⟨fun b => nofun, fun items b => nofun, fun fields b => nofun⟩
  | succ fuel inductionHypothesis =>
      obtain ⟨values, items, fields⟩ := inductionHypothesis
      exact ⟨items.values fields, values.items items, values.fields fields⟩

theorem parseValue_ne_outOfFuel (bytes : List UInt8) :
    (parseValue (2 * bytes.length + 1) bytes : Parsed (Json F)) ≠ .error .outOfFuel := by
  intro cut
  have done := (done_of_fuel (F := F) (2 * bytes.length + 1)).1 bytes (Nat.lt_succ_self _)
  rw [cut] at done
  exact done rfl

end Fuel

end JsonParser

section Exact

namespace JsonParser

def decimal (digits : List UInt8) : Nat :=
  digits.foldl (fun value b => value * 10 + (b.toNat - 0x30)) 0

/-- The exponent after its letter, with at least one digit and nothing behind. -/
def exponent (b : List UInt8) : Option ℤ :=
  let magnitude := skipOne (fun sign => sign = byte '+' || sign = byte '-') b
  if magnitude = [] || !magnitude.all isDigit then none
  else if b.head? = some (byte '-') then some (-decimal magnitude)
  else some (decimal magnitude)

/-- The value of a number as `parseNumber` delimits it. -/
def exactNumber (b : List UInt8) : Option ℚ :=
  let unsigned := skipOne (· = byte '-') b
  let whole := unsigned.takeWhile isDigit
  let afterWhole := unsigned.dropWhile isDigit
  let fraction := if afterWhole.head? = some (byte '.') then afterWhole.tail.takeWhile isDigit
    else []
  let afterFraction := skipFraction afterWhole
  let scaled := match afterFraction with
    | [] => some 0
    | _ :: rest => exponent rest
  if whole = [] ∧ fraction = [] then none
  else
    scaled.map fun power : ℤ =>
      let value : ℚ := decimal (whole ++ fraction) * 10 ^ (power - fraction.length)
      if b.head? = some (byte '-') then -value else value

end JsonParser

def truncate (value : ℚ) : ℤ := if value < 0 then ⌈value⌉ else ⌊value⌋

/-- Exact arithmetic, which agrees with `f64` on the integers up to `2 ^ 53`. -/
instance : JsonNumber ℚ where
  isFinite _ := true
  fract value := value - truncate value
  toInt64 value := .ofInt (max (-2 ^ 63) (min (truncate value) (2 ^ 63 - 1)))
  toUInt64 value := .ofNat (min (truncate value).toNat (2 ^ 64 - 1))
  parse := JsonParser.exactNumber
  display value := toString value

end Exact

/-- Parses one value with nothing but whitespace after it. -/
def Json.parse {F : Type} [JsonNumber F] (bytes : List UInt8) : Except String (Json F) :=
  match JsonParser.parseValue (2 * bytes.length + 1) bytes with
  | .error (.message text) => .error text
  | .error .outOfFuel => .error "" -- never: a value is shorter than the bytes it is read from
  | .ok (value, rest) =>
      if JsonParser.skipWs rest = [] then .ok value else .error "trailing data after JSON value"

section Plain

namespace JsonParser

/-- A character of one byte that stands for itself in a JSON string. -/
def Plain (c : Char) : Prop := c.toNat < 0x80 ∧ byte c ≠ quote ∧ byte c ≠ byte '\\'

instance (c : Char) : Decidable (Plain c) :=
  inferInstanceAs (Decidable (c.toNat < 0x80 ∧ byte c ≠ quote ∧ byte c ≠ byte '\\'))

theorem Plain.ofByte_byte {c : Char} (plain : Plain c) : ofByte (byte c) = c := by
  have small : c.toNat < 256 := Nat.lt_trans plain.1 (by decide)
  simp [ofByte, byte, Nat.mod_eq_of_lt small, Char.ofNat_toNat]

theorem Plain.utf8EncodeChar {c : Char} (plain : Plain c) :
    String.utf8EncodeChar c = [byte c] := by
  have small : ¬ 0x7F < c.toNat := Nat.not_lt.mpr (Nat.le_of_lt_succ plain.1)
  simp [String.utf8EncodeChar, byte, small]

theorem utf8_plain {text : String} (plain : ∀ c ∈ text.toList, Plain c) :
    utf8 text = text.toList.map byte := by
  rw [utf8, ← List.flatMap_singleton' (text.toList.map byte), List.flatMap_map]
  apply List.flatMap_congr
  intro c member
  exact (plain c member).utf8EncodeChar

theorem parseString_plain {text : List Char} (plain : ∀ c ∈ text, Plain c) (rest : List UInt8)
    (s : List Char) :
    parseString (text.map byte ++ quote :: rest) s = .ok (.ofList (s.reverse ++ text), rest) := by
  induction text generalizing s with
  | nil =>
      rw [parseString.eq_def]
      simp
  | cons c text inductionHypothesis =>
      have first := plain c List.mem_cons_self
      have following := inductionHypothesis
        (fun other member => plain other (List.mem_cons_of_mem c member)) (c :: s)
      rw [List.map_cons, List.cons_append, parseString.eq_def]
      simp only [first.2.1, first.2.2, if_false, first.ofByte_byte, following]
      simp

theorem skipWs_of_visible {c : UInt8} (visible : isWs c = false) (rest : List UInt8) :
    skipWs (c :: rest) = c :: rest := by
  simp [skipWs, visible]

variable {F : Type} [JsonNumber F]

theorem parseValue_plain {text : String} (plain : ∀ c ∈ text.toList, Plain c) (fuel : Nat)
    (rest : List UInt8) :
    parseValue (fuel + 1) (quote :: (text.toList.map byte ++ quote :: rest)) =
      .ok ((.str text : Json F), rest) := by
  have visible : isWs quote = false := by decide
  simp only [parseValue, skipWs_of_visible visible, if_true, parseString_plain plain]
  simp [Except.map]

theorem parseFields_plain {key text : String} (plainKey : ∀ c ∈ key.toList, Plain c)
    (plainText : ∀ c ∈ text.toList, Plain c) (fuel : Nat) (rest : List UInt8) :
    parseFields (fuel + 2) [] (quote :: (key.toList.map byte ++ quote :: byte ':' :: quote ::
      (text.toList.map byte ++ quote :: 0x7D :: rest))) =
      .ok ((.obj [(key, .str text)] : Json F), rest) := by
  have quoteVisible : isWs quote = false := by decide
  have colonVisible : isWs (byte ':') = false := by decide
  have closingVisible : isWs 0x7D = false := by decide
  have noComma : (0x7D : UInt8) ≠ byte ',' := by decide
  rw [parseFields, skipWs_of_visible quoteVisible]
  simp only [if_true, parseString_plain plainKey, skipWs_of_visible colonVisible,
    parseValue_plain plainText, skipWs_of_visible closingVisible, noComma, if_false]
  simp

end JsonParser

/-- The text of an object with one field of plain text. -/
def Json.fieldText (key text : String) : String := "\x7b\"" ++ key ++ "\":\"" ++ text ++ "\"\x7d"

open JsonParser in
theorem Json.parse_fieldText {F : Type} [JsonNumber F] {key text : String}
    (plainKey : ∀ c ∈ key.toList, Plain c) (plainText : ∀ c ∈ text.toList, Plain c) :
    Json.parse (utf8 (Json.fieldText key text)) = .ok (.obj [(key, .str text)] : Json F) := by
  have bytes : utf8 (Json.fieldText key text) =
      0x7B :: quote :: (key.toList.map byte ++ quote :: byte ':' :: quote ::
        (text.toList.map byte ++ quote :: [0x7D])) := by
    rw [← utf8_plain plainKey, ← utf8_plain plainText]
    simp only [Json.fieldText, utf8, String.toList_append, List.flatMap_append, List.append_assoc]
    rfl
  have visible : isWs 0x7B = false := by decide
  have quoteVisible : isWs quote = false := by decide
  have noQuote : (0x7B : UInt8) ≠ quote := by decide
  have nonempty : quote ≠ 0x7D := by decide
  rw [bytes, Json.parse]
  generalize enough : 2 * List.length _ = fuel
  obtain ⟨less, rfl⟩ : ∃ less, fuel = less + 2 :=
    ⟨fuel - 2, by simp only [List.length_cons] at enough; omega⟩
  rw [parseValue, skipWs_of_visible visible]
  simp only [noQuote, if_false, if_true, orEmpty, skipWs_of_visible quoteVisible, nonempty,
    parseFields_plain plainKey plainText]
  rfl

end Plain

end Teleop.Cloud
