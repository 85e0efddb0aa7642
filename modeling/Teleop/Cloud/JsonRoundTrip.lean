import Mathlib.Data.List.DropRight
import Teleop.Cloud.JsonDecimal

/-!
# What the parser reads back of what the writer wrote

Numbers, literals, arrays and objects come back as they were.  A string comes back with each
byte of its UTF-8 as a character of its own, so it is the same string only if every
character is ASCII.
-/

namespace Teleop.Cloud

open Teleop.Lib

namespace JsonParser

/-- The characters the parser makes of the bytes of one character. -/
def rawChar (c : Char) : List Char := (String.utf8EncodeChar c).map ofByte

/-- The string the parser makes of the bytes of another. -/
def rawText (text : String) : String := .ofList (text.toList.flatMap rawChar)

section Strings

/-- Bytes that end no string and start no escape are taken as they are. -/
theorem parseString_raw {bytes : List UInt8}
    (raw : ∀ b ∈ bytes, b ≠ quote ∧ b ≠ byte '\\') (tail : List UInt8) (s : List Char) :
    parseString (bytes ++ tail) s = parseString tail ((bytes.map ofByte).reverse ++ s) := by
  induction bytes generalizing s with
  | nil => rfl
  | cons b rest inductionHypothesis =>
      obtain ⟨noQuote, noEscape⟩ := raw b List.mem_cons_self
      have others := inductionHypothesis (fun b among => raw b (List.mem_cons_of_mem _ among))
      rw [List.cons_append, parseString.eq_def]
      simp [noQuote, noEscape, others]

theorem parseString_escape {e : UInt8} {c : Char} (known : unescape e = some c)
    (noHex : e ≠ byte 'u') (tail : List UInt8) (s : List Char) :
    parseString (byte '\\' :: e :: tail) s = parseString tail (c :: s) := by
  have noQuote : byte '\\' ≠ quote := by decide
  rw [parseString.eq_def]
  simp [noQuote, noHex, known]

theorem parseString_hex {h i j k : UInt8} {c : Char}
    (known : (fromStrRadix16 h [i, j, k]).bind fromU32 = some c) (tail : List UInt8)
    (s : List Char) :
    parseString (byte '\\' :: byte 'u' :: h :: i :: j :: k :: tail) s =
      parseString tail (c :: s) := by
  have noQuote : byte '\\' ≠ quote := by decide
  obtain ⟨code, digits, valid⟩ := Option.bind_eq_some_iff.mp known
  rw [parseString.eq_def]
  simp [noQuote, digits, valid]

/-- `bytes` is an ASCII character as the writer puts it: itself, an escape of one letter, or its
number. -/
def Written (c : Char) : List UInt8 → Bool
  | [b] => b = byte c && decide (Plain c)
  | [escape, e] => escape = byte '\\' && e ≠ byte 'u' && unescape e = some c
  | [escape, u, h, i, j, k] =>
      escape = byte '\\' && u = byte 'u' && (fromStrRadix16 h [i, j, k]).bind fromU32 = some c
  | _ => false

theorem written_ascii : ∀ n < 0x80, Written (.ofNat n) (utf8 (Json.writeChar (.ofNat n))) := by
  decide +kernel

theorem rawChar_ascii : ∀ n < 0x80, rawChar (.ofNat n) = [.ofNat n] := by
  decide +kernel

theorem parseString_written {c : Char} {bytes : List UInt8} (written : Written c bytes)
    (tail : List UInt8) (s : List Char) :
    parseString (bytes ++ tail) s = parseString tail (c :: s) := by
  unfold Written at written
  split at written
  · simp only [Bool.and_eq_true, decide_eq_true_eq] at written
    obtain ⟨rfl, plain⟩ := written
    have raw : parseString ([byte c] ++ tail) s = _ :=
      parseString_raw (by simpa using plain.2) tail s
    simpa [plain.ofByte_byte] using raw
  · simp only [Bool.and_eq_true, decide_eq_true_eq] at written
    obtain ⟨⟨rfl, noHex⟩, known⟩ := written
    exact parseString_escape known noHex tail s
  · simp only [Bool.and_eq_true, decide_eq_true_eq] at written
    obtain ⟨⟨rfl, rfl⟩, known⟩ := written
    exact parseString_hex known tail s
  · cases written

theorem utf8_writeChar_of_wide {c : Char} (wide : 0x80 ≤ c.toNat) :
    utf8 (Json.writeChar c) = String.utf8EncodeChar c := by
  have other : ∀ {d : Char}, d.toNat < 0x80 → c ≠ d := by
    rintro d small rfl
    exact absurd wide (Nat.not_le.mpr small)
  have number : ∀ {n : Nat}, n < 0x80 → c.toNat ≠ n := by
    rintro n small rfl
    exact absurd wide (Nat.not_le.mpr small)
  have noControl : ¬ c.toNat < 0x20 := fun small => absurd rfl (number (small.trans (by decide)))
  unfold Json.writeChar
  rw [if_neg (number (by decide)), if_neg (other (by decide)), if_neg (other (by decide)),
    if_neg (other (by decide)), if_neg (other (by decide)), if_neg (number (by decide)),
    if_neg (number (by decide)), if_neg noControl]
  simp [utf8]

/-- One written character is read as the bytes of the character it was. -/
theorem parseString_writeChar (c : Char) (tail : List UInt8) (s : List Char) :
    parseString (utf8 (Json.writeChar c) ++ tail) s =
      parseString tail ((rawChar c).reverse ++ s) := by
  by_cases ascii : c.toNat < 0x80
  · have written := written_ascii c.toNat ascii
    have same := rawChar_ascii c.toNat ascii
    rw [Char.ofNat_toNat] at written same
    rw [parseString_written written, same]
    rfl
  · have wide := Nat.not_lt.mp ascii
    rw [utf8_writeChar_of_wide wide]
    apply parseString_raw
    intro b among
    have high := high_of_utf8EncodeChar wide b among
    constructor <;>
      (rintro rfl; exact absurd high (by decide))

theorem parseString_writeString (text : List Char) (tail : List UInt8) (s : List Char) :
    parseString (utf8 (String.join (text.map Json.writeChar)) ++ quote :: tail) s =
      .ok (.ofList (s.reverse ++ text.flatMap rawChar), tail) := by
  induction text generalizing s with
  | nil =>
      rw [parseString.eq_def]
      simp [utf8]
  | cons c rest inductionHypothesis =>
      rw [List.map_cons, String.join_cons, utf8_append, List.append_assoc, parseString_writeChar,
        inductionHypothesis]
      simp

end Strings

end JsonParser

namespace Json

variable {F : Type}

section Traversal

mutual

/-- All numbers, and all strings and keys, are of a kind. -/
def All (number : F → Prop) (text : String → Prop) : Json F → Prop
  | .null => True
  | .bool _ => True
  | .num value => number value
  | .str value => text value
  | .arr items => AllItems number text items
  | .obj fields => AllFields number text fields

def AllItems (number : F → Prop) (text : String → Prop) : List (Json F) → Prop
  | [] => True
  | item :: rest => All number text item ∧ AllItems number text rest

def AllFields (number : F → Prop) (text : String → Prop) : List (String × Json F) → Prop
  | [] => True
  | (key, value) :: rest => text key ∧ All number text value ∧ AllFields number text rest

end

mutual

theorem All.mono {number other : F → Prop} {text : String → Prop}
    (implies : ∀ value, number value → other value) (json : Json F)
    (all : json.All number text) : json.All other text := by
  cases json with
  | null | bool => trivial
  | num value => exact implies value all
  | str => exact all
  | arr items => exact AllItems.mono implies items all
  | obj fields => exact AllFields.mono implies fields all

theorem AllItems.mono {number other : F → Prop} {text : String → Prop}
    (implies : ∀ value, number value → other value) (items : List (Json F))
    (all : AllItems number text items) : AllItems other text items := by
  match items with
  | [] => trivial
  | item :: rest => exact ⟨All.mono implies item all.1, AllItems.mono implies rest all.2⟩

theorem AllFields.mono {number other : F → Prop} {text : String → Prop}
    (implies : ∀ value, number value → other value) (fields : List (String × Json F))
    (all : AllFields number text fields) : AllFields other text fields := by
  match fields with
  | [] => trivial
  | (key, value) :: rest =>
      exact ⟨all.1, All.mono implies value all.2.1, AllFields.mono implies rest all.2.2⟩

end

mutual

/-- The value with its strings and keys as the parser reads them. -/
def raw : Json F → Json F
  | .null => .null
  | .bool value => .bool value
  | .num value => .num value
  | .str value => .str (JsonParser.rawText value)
  | .arr items => .arr (rawItems items)
  | .obj fields => .obj (rawFields fields)

def rawItems : List (Json F) → List (Json F)
  | [] => []
  | item :: rest => raw item :: rawItems rest

def rawFields : List (String × Json F) → List (String × Json F)
  | [] => []
  | (key, value) :: rest => (JsonParser.rawText key, raw value) :: rawFields rest

end

end Traversal

end Json

namespace JsonParser

section Values

variable {F : Type} [JsonNumber F]

theorem skipWs_skipWs (b : List UInt8) : skipWs (skipWs b) = skipWs b := by
  exact List.dropWhile_idempotent isWs b

theorem parseValue_skipWs (fuel : Nat) (b : List UInt8) :
    (parseValue fuel (skipWs b) : Parsed (Json F)) = parseValue fuel b := by
  cases fuel with
  | zero => rw [parseValue, parseValue]
  | succ fuel => rw [parseValue, parseValue, skipWs_skipWs]

omit [JsonNumber F] in
theorem orEmpty_of_visible {closing c : UInt8} (visible : isWs c = false)
    (other : c ≠ closing) (empty : Json F) (loop : List UInt8 → Parsed (Json F))
    (rest : List UInt8) : orEmpty closing empty loop (c :: rest) = loop (c :: rest) := by
  simp [orEmpty, skipWs_of_visible visible, other]

/-- What starts with a value is no empty array. -/
theorem orEmpty_items {fuel : Nat} {b rest : List UInt8} {value : Json F}
    (parsed : parseValue fuel b = .ok (value, rest)) (empty : Json F) :
    orEmpty (byte ']') empty (parseItems (fuel + 1) []) b = parseItems (fuel + 1) [] b := by
  have trimmed := parseValue_skipWs (F := F) fuel b
  have loop : (parseItems (fuel + 1) [] (skipWs b) : Parsed (Json F)) =
      parseItems (fuel + 1) [] b := by
    rw [parseItems, parseItems, trimmed]
  rw [parsed] at trimmed
  rw [← loop]
  unfold orEmpty
  cases skipped : skipWs b with
  | nil => rfl
  | cons c inner =>
      have other : c ≠ byte ']' := by
        rintro rfl
        rw [skipped] at trimmed
        have visible : isWs (byte ']') = false := by decide
        cases fuel with
        | zero => simp [parseValue] at trimmed
        | succ fuel =>
            rw [parseValue, skipWs_of_visible visible] at trimmed
            cases trimmed
      simp [other]

/-- An array with items is read by the loop. -/
theorem orEmpty_of_parseItems {fuel : Nat} {b : List UInt8} {parsed : Json F × List UInt8}
    (looped : parseItems fuel [] b = .ok parsed) (empty : Json F) :
    orEmpty (byte ']') empty (parseItems fuel []) b = .ok parsed := by
  cases fuel with
  | zero => simp [parseItems] at looped
  | succ fuel =>
      cases first : (parseValue fuel b : Parsed (Json F)) with
      | error failure => simp [parseItems, first] at looped
      | ok item => rw [orEmpty_items first, looped]

section Steps

variable {fuel : Nat} {b rest : List UInt8} {value : Json F}

theorem parseValue_number {c : UInt8} (starts : c = byte '-' ∨ isDigit c = true)
    (rest : List UInt8) :
    (parseValue (fuel + 1) (c :: rest) : Parsed (Json F)) =
      (parseNumber (c :: rest)).map fun (value, rest) => (.num value, rest) := by
  have other : ∀ d : UInt8, (d = byte '-' ∨ isDigit d = true → False) → c ≠ d := by
    rintro d refused rfl
    exact refused starts
  have visible : isWs c = false := by
    have space := other 0x20 (by decide)
    have tab := other 0x09 (by decide)
    have feed := other 0x0A (by decide)
    have carriage := other 0x0D (by decide)
    simp [isWs, space, tab, feed, carriage]
  rw [parseValue, skipWs_of_visible visible]
  simp only [other quote (by decide), other 0x7B (by decide), other (byte '[') (by decide),
    other (byte 't') (by decide), other (byte 'f') (by decide), other (byte 'n') (by decide),
    starts, if_true, if_false]

theorem parseItems_comma (parsed : parseValue fuel b = .ok (value, byte ',' :: rest))
    (items : List (Json F)) :
    parseItems (fuel + 1) items b = parseItems fuel (items ++ [value]) rest := by
  have visible : isWs (byte ',') = false := by decide
  rw [parseItems, parsed]
  simp [skipWs_of_visible visible]

theorem parseItems_close (parsed : parseValue fuel b = .ok (value, byte ']' :: rest))
    (items : List (Json F)) :
    parseItems (fuel + 1) items b = .ok (.arr (items ++ [value]), rest) := by
  have visible : isWs (byte ']') = false := by decide
  have noComma : byte ']' ≠ byte ',' := by decide
  rw [parseItems, parsed]
  simp [skipWs_of_visible visible, noComma]

theorem utf8_writeString (text : String) (tail : List UInt8) :
    utf8 (Json.writeString text) ++ tail =
      quote :: (utf8 (String.join (text.toList.map Json.writeChar)) ++ quote :: tail) := by
  have quotes : utf8 "\"" = [quote] := by decide
  simp [Json.writeString, quotes]

theorem parseFields_field (key : String) (fields : List (String × Json F)) :
    parseFields (fuel + 1) fields (utf8 (Json.writeString key) ++ byte ':' :: b) =
      match parseValue fuel b with
      | .error failure => .error failure
      | .ok (value, rest) =>
          match skipWs rest with
          | [] => fail "unterminated object"
          | c :: rest =>
              if c = byte ',' then parseFields fuel (fields ++ [(rawText key, value)]) rest
              else if c = 0x7D then .ok (.obj (fields ++ [(rawText key, value)]), rest)
              else fail "expected ',' or '\x7d' in object" := by
  have quoteVisible : isWs quote = false := by decide
  have colonVisible : isWs (byte ':') = false := by decide
  rw [parseFields, utf8_writeString, skipWs_of_visible quoteVisible]
  simp only [if_true, parseString_writeString, skipWs_of_visible colonVisible]
  rfl

end Steps

/-- An integer of at most fifteen digits. -/
def Integer (value : Binary64) : Prop := ∃ n : ℤ, |n| < 10 ^ 15 ∧ value = Binary64.round n

/-- The text of a value, and whatever follows that does not continue a number, are read as the
value and what follows. -/
def ReadsBack (json : Json Binary64) : Prop :=
  ∀ fuel rest, Ends rest → 2 * (utf8 json.write).length < fuel →
    parseValue fuel (utf8 json.write ++ rest) = .ok (json.raw, rest)

def ItemsReadBack (items : List (Json Binary64)) : Prop :=
  ∀ fuel found rest, items ≠ [] →
    2 * (utf8 (",".intercalate (Json.writeItems items))).length + 1 < fuel →
    parseItems fuel found (utf8 (",".intercalate (Json.writeItems items)) ++ byte ']' :: rest) =
      .ok (.arr (found ++ Json.rawItems items), rest)

def FieldsReadBack (fields : List (String × Json Binary64)) : Prop :=
  ∀ fuel found rest, fields ≠ [] →
    2 * (utf8 (",".intercalate (Json.writeFields fields))).length + 1 < fuel →
    parseFields fuel found (utf8 (",".intercalate (Json.writeFields fields)) ++ 0x7D :: rest) =
      .ok (.obj (found ++ Json.rawFields fields), rest)

theorem ends_comma (rest : List UInt8) : Ends (byte ',' :: rest) := by
  rintro c ⟨⟩
  decide

theorem ends_bracket (rest : List UInt8) : Ends (byte ']' :: rest) := by
  rintro c ⟨⟩
  decide

theorem ends_brace (rest : List UInt8) : Ends (0x7D :: rest) := by
  rintro c ⟨⟩
  decide

theorem ReadsBack.literal {json : Json Binary64}
    (read : ∀ fuel rest, parseValue (fuel + 1) (utf8 json.write ++ rest) = .ok (json.raw, rest)) :
    ReadsBack json := by
  intro fuel rest ends enough
  obtain ⟨fuel, rfl⟩ := Nat.exists_eq_add_one.mpr (Nat.zero_lt_of_lt enough)
  exact read fuel rest

theorem readsBack_null : ReadsBack .null := by
  apply ReadsBack.literal
  intro fuel rest
  have text : utf8 (Json.write (.null : Json Binary64)) = utf8 "null" := by rw [Json.write]
  rw [text]
  rfl

theorem readsBack_bool (value : Bool) : ReadsBack (.bool value) := by
  apply ReadsBack.literal
  intro fuel rest
  cases value with
  | true =>
      have text : utf8 (Json.write (.bool true : Json Binary64)) = utf8 "true" := by rw [Json.write]
      rw [text]
      rfl
  | false =>
      have text : utf8 (Json.write (.bool false : Json Binary64)) = utf8 "false" := by
        rw [Json.write]
      rw [text]
      rfl

/-- The text of an integer starts as a number does. -/
theorem utf8_intRepr_cons (n : ℤ) :
    ∃ c rest, utf8 (toString n) = c :: rest ∧ (c = byte '-' ∨ isDigit c = true) := by
  rw [utf8_intRepr]
  split
  · exact ⟨_, _, rfl, .inl rfl⟩
  · obtain ⟨c, rest, digits⟩ := List.exists_cons_of_ne_nil (digitBytes_ne_nil n.natAbs)
    have digit := isDigit_digitBytes n.natAbs c (digits ▸ List.mem_cons_self)
    exact ⟨c, rest, digits, .inr digit⟩

/-- A number written as an integer that is read as it. -/
theorem ReadsBack.number {value : Binary64} {n : ℤ} (written : Json.writeNumber value = toString n)
    (read : Binary64.round n = value) : ReadsBack (.num value) := by
  intro fuel rest ends enough
  obtain ⟨fuel, rfl⟩ := Nat.exists_eq_add_one.mpr (Nat.zero_lt_of_lt enough)
  have parsed := parseNumber_intRepr n ends
  obtain ⟨c, text, bytes, starts⟩ := utf8_intRepr_cons n
  rw [Json.write, written]
  rw [bytes, List.cons_append] at parsed ⊢
  rw [parseValue_number starts, parsed, read]
  rfl

theorem readsBack_num {value : Binary64} (integer : Integer value) :
    ReadsBack (.num value) := by
  obtain ⟨n, small, rfl⟩ := integer
  exact .number (writeNumber_round small) rfl

theorem readsBack_str (text : String) : ReadsBack (.str text) := by
  apply ReadsBack.literal
  intro fuel rest
  have visible : isWs quote = false := by decide
  rw [Json.write, utf8_writeString, parseValue, skipWs_of_visible visible]
  simp only [if_true, parseString_writeString]
  rfl

theorem ItemsReadBack.arr {items : List (Json Binary64)} (read : ItemsReadBack items) :
    ReadsBack (.arr items) := by
  intro fuel rest ends enough
  obtain ⟨fuel, rfl⟩ := Nat.exists_eq_add_one.mpr (Nat.zero_lt_of_lt enough)
  have opening : utf8 "[" = [byte '['] := by decide
  have closing : utf8 "]" = [byte ']'] := by decide
  have visible : isWs (byte '[') = false := by decide
  have noQuote : byte '[' ≠ quote := by decide
  have noBrace : byte '[' ≠ 0x7B := by decide
  rw [Json.write] at enough ⊢
  simp only [utf8_append, opening, closing, List.append_assoc, List.cons_append,
    List.nil_append, List.length_cons, List.length_append, List.length_nil] at enough ⊢
  rw [parseValue, skipWs_of_visible visible]
  simp only [noQuote, noBrace, if_false, if_true]
  by_cases empty : items = []
  · subst empty
    rfl
  · apply orEmpty_of_parseItems
    exact read fuel [] rest empty (by omega)

theorem ItemsReadBack.single {item : Json Binary64} (read : ReadsBack item) :
    ItemsReadBack [item] := by
  intro fuel found rest nonempty enough
  obtain ⟨fuel, rfl⟩ := Nat.exists_eq_add_one.mpr (Nat.zero_lt_of_lt enough)
  simp only [Json.writeItems, String.intercalate_singleton] at enough ⊢
  have parsed := read fuel _ (ends_bracket rest) (by omega)
  exact parseItems_close parsed found

theorem ItemsReadBack.cons {item next : Json Binary64} {others : List (Json Binary64)}
    (read : ReadsBack item) (following : ItemsReadBack (next :: others)) :
    ItemsReadBack (item :: next :: others) := by
  intro fuel found rest nonempty enough
  obtain ⟨fuel, rfl⟩ := Nat.exists_eq_add_one.mpr (Nat.zero_lt_of_lt enough)
  have comma : utf8 "," = [byte ','] := by decide
  have split : utf8 (",".intercalate (Json.writeItems (item :: next :: others))) =
      utf8 item.write ++ byte ',' :: utf8 (",".intercalate (Json.writeItems (next :: others))) := by
    simp [Json.writeItems, String.intercalate_cons_cons, comma]
  rw [split] at enough ⊢
  simp only [List.append_assoc, List.cons_append, List.length_cons,
    List.length_append] at enough ⊢
  have parsed := read fuel (byte ',' :: (utf8 (",".intercalate
    (Json.writeItems (next :: others))) ++ byte ']' :: rest)) (ends_comma _) (by omega)
  have others := following fuel (found ++ [item.raw]) rest (List.cons_ne_nil _ _) (by omega)
  rw [parseItems_comma parsed, others, List.append_assoc]
  rfl

theorem FieldsReadBack.obj {fields : List (String × Json Binary64)}
    (read : FieldsReadBack fields) : ReadsBack (.obj fields) := by
  intro fuel rest ends enough
  obtain ⟨fuel, rfl⟩ := Nat.exists_eq_add_one.mpr (Nat.zero_lt_of_lt enough)
  have opening : utf8 "\x7b" = [0x7B] := by decide
  have closing : utf8 "\x7d" = [0x7D] := by decide
  have visible : isWs 0x7B = false := by decide
  have noQuote : (0x7B : UInt8) ≠ quote := by decide
  rw [Json.write] at enough ⊢
  simp only [utf8_append, opening, closing, List.append_assoc, List.cons_append,
    List.nil_append, List.length_cons, List.length_append, List.length_nil] at enough ⊢
  rw [parseValue, skipWs_of_visible visible]
  simp only [noQuote, if_false, if_true]
  cases fields with
  | nil => rfl
  | cons field others =>
      have looped := read fuel [] rest (List.cons_ne_nil _ _) (by omega)
      have quoteVisible : isWs quote = false := by decide
      have noBrace : quote ≠ 0x7D := by decide
      obtain ⟨text, starts⟩ : ∃ text,
          utf8 (",".intercalate (Json.writeFields (field :: others))) = quote :: text := by
        obtain ⟨key, value⟩ := field
        cases others <;>
          simp [Json.writeFields, String.intercalate_cons_cons, utf8_writeString]
      rw [starts] at looped ⊢
      rw [List.cons_append] at looped ⊢
      rw [orEmpty_of_visible quoteVisible noBrace]
      exact looped

theorem FieldsReadBack.single {value : Json Binary64} (key : String) (read : ReadsBack value) :
    FieldsReadBack [(key, value)] := by
  intro fuel found rest nonempty enough
  obtain ⟨fuel, rfl⟩ := Nat.exists_eq_add_one.mpr (Nat.zero_lt_of_lt enough)
  have colon : utf8 ":" = [byte ':'] := by decide
  have visible : isWs 0x7D = false := by decide
  have noComma : (0x7D : UInt8) ≠ byte ',' := by decide
  simp only [Json.writeFields, String.intercalate_singleton, utf8_append, colon, List.append_assoc,
    List.cons_append, List.nil_append, List.length_cons, List.length_append] at enough ⊢
  have parsed := read fuel _ (ends_brace rest) (by omega)
  rw [parseFields_field, parsed]
  simp only [skipWs_of_visible visible, noComma, if_false, if_true]
  rfl

theorem FieldsReadBack.cons {value : Json Binary64} (key : String)
    {next : String × Json Binary64} {others : List (String × Json Binary64)}
    (read : ReadsBack value) (following : FieldsReadBack (next :: others)) :
    FieldsReadBack ((key, value) :: next :: others) := by
  intro fuel found rest nonempty enough
  obtain ⟨fuel, rfl⟩ := Nat.exists_eq_add_one.mpr (Nat.zero_lt_of_lt enough)
  have colon : utf8 ":" = [byte ':'] := by decide
  have comma : utf8 "," = [byte ','] := by decide
  have visible : isWs (byte ',') = false := by decide
  have split : utf8 (",".intercalate (Json.writeFields ((key, value) :: next :: others))) =
      utf8 (Json.writeString key) ++ byte ':' :: (utf8 value.write ++
        byte ',' :: utf8 (",".intercalate (Json.writeFields (next :: others)))) := by
    simp [Json.writeFields, String.intercalate_cons_cons, colon, comma]
  rw [split] at enough ⊢
  simp only [List.append_assoc, List.cons_append, List.length_cons,
    List.length_append] at enough ⊢
  have parsed := read fuel (byte ',' :: (utf8 (",".intercalate
    (Json.writeFields (next :: others))) ++ 0x7D :: rest)) (ends_comma _) (by omega)
  have others := following fuel (found ++ [(rawText key, value.raw)]) rest (List.cons_ne_nil _ _)
    (by omega)
  rw [parseFields_field, parsed]
  simp only [skipWs_of_visible visible, if_true, others, List.append_assoc]
  rfl

/-- A number that is read back wherever it stands. -/
def Readable (value : Binary64) : Prop := ReadsBack (.num value)

mutual

theorem valueReadsBack (json : Json Binary64) (numbers : json.All Readable fun _ => True) :
    ReadsBack json := by
  cases json with
  | null => exact readsBack_null
  | bool value => exact readsBack_bool value
  | num value => exact numbers
  | str text => exact readsBack_str text
  | arr items => exact (itemsReadBack items numbers).arr
  | obj fields => exact (fieldsReadBack fields numbers).obj

theorem itemsReadBack (items : List (Json Binary64))
    (numbers : Json.AllItems Readable (fun _ => True) items) : ItemsReadBack items := by
  match items with
  | [] => exact fun _ _ _ nonempty => absurd rfl nonempty
  | [item] => exact .single (valueReadsBack item numbers.1)
  | item :: next :: others =>
      exact .cons (valueReadsBack item numbers.1) (itemsReadBack (next :: others) numbers.2)

theorem fieldsReadBack (fields : List (String × Json Binary64))
    (numbers : Json.AllFields Readable (fun _ => True) fields) : FieldsReadBack fields := by
  match fields with
  | [] => exact fun _ _ _ nonempty => absurd rfl nonempty
  | [(key, value)] => exact .single key (valueReadsBack value numbers.2.1)
  | (key, value) :: next :: others =>
      exact .cons key (valueReadsBack value numbers.2.1)
        (fieldsReadBack (next :: others) numbers.2.2)

end

theorem ReadsBack.parse {json : Json Binary64} (read : ReadsBack json) :
    Json.parse (utf8 json.write) = .ok json.raw := by
  have none : Ends [] := nofun
  have parsed := read (2 * (utf8 json.write).length + 1) [] none (Nat.lt_succ_self _)
  rw [List.append_nil] at parsed
  rw [Json.parse, parsed]
  rfl

/-- Strings come back with a character for each byte, everything else as it was. -/
theorem parse_write {json : Json Binary64} (integers : json.All Integer fun _ => True) :
    Json.parse (utf8 json.write) = .ok json.raw :=
  (valueReadsBack json (Json.All.mono (fun _ => readsBack_num) json integers)).parse

end Values

section Ascii

/-- Every character is one byte. -/
def Ascii (text : String) : Prop := ∀ c ∈ text.toList, c.toNat < 0x80

theorem ascii_iff_all {text : String} :
    Ascii text ↔ (text.toList.all fun c => c.toNat < 0x80) = true := by
  simp [Ascii]

theorem length_rawChar (c : Char) : (rawChar c).length = c.utf8Size := by
  rw [rawChar, List.length_map, String.length_utf8EncodeChar]

theorem length_le_flatMap_rawChar (text : List Char) :
    text.length ≤ (text.flatMap rawChar).length := by
  induction text with
  | nil => rfl
  | cons c rest inductionHypothesis =>
      have size := c.utf8Size_pos
      rw [List.flatMap_cons, List.length_append, length_rawChar, List.length_cons]
      omega

theorem ascii_of_length_le {text : List Char}
    (short : (text.flatMap rawChar).length ≤ text.length) : ∀ c ∈ text, c.toNat < 0x80 := by
  induction text with
  | nil => exact fun c => nofun
  | cons c rest inductionHypothesis =>
      have size := c.utf8Size_pos
      have others := length_le_flatMap_rawChar rest
      rw [List.flatMap_cons, List.length_append, length_rawChar, List.length_cons] at short
      have one : c.utf8Size = 1 := by omega
      have first : c.toNat ≤ 0x7F := Char.utf8Size_eq_one_iff.mp one
      rintro d (_ | ⟨_, among⟩)
      · exact Nat.lt_succ_of_le first
      · exact inductionHypothesis (by omega) d among

/-- Only ASCII text comes back as it was. -/
theorem rawText_eq_iff {text : String} : rawText text = text ↔ Ascii text := by
  constructor
  · intro same
    have characters : text.toList.flatMap rawChar = text.toList := by
      rw [← String.toList_ofList (l := text.toList.flatMap rawChar)]
      exact congrArg String.toList same
    exact ascii_of_length_le (Nat.le_of_eq (congrArg List.length characters))
  · intro ascii
    have each : text.toList.flatMap rawChar = text.toList.flatMap fun c => [c] := by
      apply List.flatMap_congr
      intro c among
      simpa using rawChar_ascii c.toNat (ascii c among)
    rw [rawText, each, List.flatMap_singleton', String.ofList_toList]

variable {F : Type}

mutual

theorem raw_eq_iff (json : Json F) : json.raw = json ↔ json.All (fun _ => True) Ascii := by
  cases json with
  | null | bool | num => simp [Json.raw, Json.All]
  | str text => simp [Json.raw, Json.All, rawText_eq_iff]
  | arr items => simp [Json.raw, Json.All, rawItems_eq_iff items]
  | obj fields => simp [Json.raw, Json.All, rawFields_eq_iff fields]

theorem rawItems_eq_iff (items : List (Json F)) :
    Json.rawItems items = items ↔ Json.AllItems (fun _ => True) Ascii items := by
  match items with
  | [] => simp [Json.rawItems, Json.AllItems]
  | item :: others =>
      simp [Json.rawItems, Json.AllItems, raw_eq_iff item, rawItems_eq_iff others]

theorem rawFields_eq_iff (fields : List (String × Json F)) :
    Json.rawFields fields = fields ↔ Json.AllFields (fun _ => True) Ascii fields := by
  match fields with
  | [] => simp [Json.rawFields, Json.AllFields]
  | (key, value) :: others =>
      simp [Json.rawFields, Json.AllFields, rawText_eq_iff, raw_eq_iff value,
        rawFields_eq_iff others, and_assoc]

end

end Ascii

end JsonParser

open JsonParser

/-- A value of integers of at most fifteen digits is read back exactly if all of its strings and
keys are ASCII. -/
theorem Json.parse_write_eq_self_iff {json : Json Binary64}
    (integers : json.All Integer fun _ => True) :
    Json.parse (utf8 json.write) = .ok json ↔ json.All (fun _ => True) Ascii := by
  rw [parse_write integers, Except.ok.injEq]
  exact raw_eq_iff json

theorem Json.parse_write_eq_self_telemetry :
    let speeds : Json Binary64 :=
      .arr [.num (.round ((3 : ℤ) : ℚ)), .num (.round ((-12 : ℤ) : ℚ))]
    let telemetry : Json Binary64 :=
      .obj [("speeds", speeds), ("note", .str "on\n"), ("next", .null)]
    Json.parse (utf8 telemetry.write) = .ok telemetry := by
  intro speeds telemetry
  have integer : ∀ {n : ℤ}, |n| < 10 ^ 15 → Integer (.round n) := fun small => ⟨_, small, rfl⟩
  apply (Json.parse_write_eq_self_iff _).mpr
  · exact ⟨ascii_iff_all.mpr (by decide), ⟨trivial, trivial, trivial⟩, ascii_iff_all.mpr (by decide),
      ascii_iff_all.mpr (by decide), ascii_iff_all.mpr (by decide), trivial, trivial⟩
  · exact ⟨trivial, ⟨integer (by norm_num), integer (by norm_num), trivial⟩, trivial, trivial,
      trivial, trivial, trivial⟩

/-- An accented letter comes back as two. -/
theorem Json.parse_write_accented :
    ¬ ∀ json : Json Binary64, json.All Integer (fun _ => True) →
      Json.parse (utf8 json.write) = .ok json := by
  intro all
  have integers : (Json.str "é" : Json Binary64).All Integer fun _ => True := trivial
  have back := all (.str "é") integers
  have read : Json.parse (utf8 (Json.str "é" : Json Binary64).write) =
      .ok (.str "Ã©" : Json Binary64) := by
    rw [parse_write integers]
    have text : rawText "é" = "Ã©" := by decide +kernel
    rw [Json.raw, text]
  rw [read] at back
  injection back with same
  injection same with text
  exact absurd text (by decide)

end Teleop.Cloud
