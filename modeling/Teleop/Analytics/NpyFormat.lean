import Teleop.Analytics.Npy

/-!
# The format of array headers

The headers that version 1.0 of the format allows: a dictionary of three entries as a literal,
in any order, with either quotes and with blanks between its parts, in which the shape is a
tuple.  Against them the writer and the reader are judged.
-/

namespace Teleop.Analytics

open Teleop.Lib Teleop.Cloud

/-- The quotation marks of a string literal. -/
inductive Quote where
  | single
  | double
  deriving DecidableEq, Repr

def Quote.mark : Quote → Char
  | .single => '\''
  | .double => '"'

def Quote.literal (quote : Quote) (text : List Char) : List Char :=
  quote.mark :: (text ++ [quote.mark])

/-- A character that may stand in the string literals of a header. -/
def plainChar (c : Char) : Bool := c.toNat < 0x80 && c ∉ ['\'', '"', '\n', '\r', '\x00']

/-- What makes an escape after a backslash. -/
def escapeLetters : List Char := "\n\\'\"abfnrtv01234567xNuU".toList

/-- The body of a string literal stands for itself. -/
def verbatim : List Char → Bool
  | [] => true
  | [c] => plainChar c && c ≠ '\\'
  | c :: next :: rest =>
      plainChar c && (c ≠ '\\' || next ∉ escapeLetters) && verbatim (next :: rest)

/-- A tuple of numbers as a literal.  With a single number it takes the comma to make a tuple. -/
inductive TupleLiteral where
  | empty (blanks : Blanks)
  | items (first : ShapeItem) (rest : List ShapeItem) (trailing : Option Blanks)
      (single : rest = [] → trailing.isSome)

namespace TupleLiteral

/-- The dimensions a tuple denotes. -/
def shape : TupleLiteral → List UInt64
  | .empty _ => []
  | .items first rest _ _ => (first :: rest).map ShapeItem.dim

/-- A comma, if there is one, and the blanks after it. -/
def trailingText : Option Blanks → List Char
  | none => []
  | some blanks => ',' :: blanks.val

/-- What stands between the parentheses. -/
def inner : TupleLiteral → List Char
  | .empty blanks => blanks.val
  | .items first rest trailing _ => itemsText (first :: rest) ++ trailingText trailing

/-- A comma stands after the last number. -/
def trailingComma : TupleLiteral → Bool
  | .empty _ => false
  | .items _ _ trailing _ => trailing.isSome

end TupleLiteral

inductive Key where
  | descr
  | fortranOrder
  | shape
  deriving DecidableEq, Repr

def Key.name : Key → List Char
  | .descr => "descr".toList
  | .fortranOrder => "fortran_order".toList
  | .shape => "shape".toList

/-- How an entry is spelled, but for its value. -/
structure Spelling where
  before : Blanks
  quote : Quote
  beforeColon : Blanks
  afterColon : Blanks
  behind : Blanks

/-- The literal of a dictionary with the three entries, and the padding after it. -/
structure DictLiteral where
  order : List Key
  complete : order.Perm [.descr, .fortranOrder, .shape]
  spelling : Key → Spelling
  descr : String
  descrQuote : Quote
  verbatim : verbatim descr.toList = true
  fortranOrder : Bool
  tuple : TupleLiteral
  /-- The comma after the last entry, with the blanks after it. -/
  trailing : Option Blanks
  padding : Nat

namespace DictLiteral

variable (h : DictLiteral)

def value : Key → List Char
  | .descr => h.descrQuote.literal h.descr.toList
  | .fortranOrder => (if h.fortranOrder then "True" else "False").toList
  | .shape => '(' :: (h.tuple.inner ++ [')'])

/-- One entry. -/
def entry (key : Key) : List Char :=
  (h.spelling key).before.val ++ ((h.spelling key).quote.literal key.name ++
    ((h.spelling key).beforeColon.val ++ ':' :: ((h.spelling key).afterColon.val ++
      (h.value key ++ (h.spelling key).behind.val))))

/-- What follows the last entry. -/
def close : List Char :=
  TupleLiteral.trailingText h.trailing ++ '}' :: (.replicate h.padding ' ' ++ ['\n'])

/-- The entries with commas between them, and what follows them. -/
def entriesFrom : List Key → List Char
  | [] => h.close
  | [key] => h.entry key ++ h.close
  | key :: next :: keys => h.entry key ++ ',' :: entriesFrom (next :: keys)

def text : List Char := '{' :: h.entriesFrom h.order

/-- The length of the header in bytes. -/
def length : Nat := (utf8 (.ofList h.text)).length

end DictLiteral

/-- A header whose length fits in the two bytes that version 1.0 has for it. -/
structure Header extends DictLiteral where
  sized : toDictLiteral.length < 2 ^ 16

/-- A file with this header. -/
def Header.file (h : Header) (data : List UInt8) : List UInt8 := npyFile (.ofList h.text) data

/-- The key of the shape is spelled as the reader expects it. -/
structure DictLiteral.Spelled (h : DictLiteral) : Prop where
  quote : (h.spelling .shape).quote = .single
  beforeColon : (h.spelling .shape).beforeColon.val = []
  afterColon : (h.spelling .shape).afterColon.val = [' ']

/-- The headers that the reader makes sense of: no comma ends the tuple, and some other string
is in single quotes too. -/
structure DictLiteral.Readable (h : DictLiteral) : Prop extends h.Spelled where
  comma : h.tuple.trailingComma = false
  quotes : 3 ≤ h.text.count '\''

section Search

/-- After blanks comes what comes after them. -/
theorem not_prefix_of_blanks {x : Char} {others rest : List Char} (visible : isBlank x = false)
    (head : ∀ c ∈ rest.head?, c ≠ x) (blanks : Blanks) : ¬x :: others <+: blanks.val ++ rest := by
  intro here
  obtain ⟨text, blank⟩ := blanks
  cases text with
  | nil =>
      cases rest with
      | nil => cases List.prefix_nil.mp here
      | cons c rest => exact head c rfl (List.cons_prefix_cons.mp here).1.symm
  | cons c text =>
      obtain ⟨rfl, -⟩ := List.cons_prefix_cons.mp here
      rw [blank x List.mem_cons_self] at visible
      cases visible

variable {rest : List Char}

theorem not_leads_shape (head : ∀ c ∈ rest.head?, c ≠ 's') (blanks : Blanks) :
    ¬"shape".toList <+: blanks.val ++ rest := by
  have letters : "shape".toList = 's' :: "hape".toList := by decide
  rw [letters]
  exact not_prefix_of_blanks (by decide) head blanks

/-- A string that is not the key of the shape is passed over. -/
theorem after_literal {quote : Quote} {content : List Char} (plain : '\'' ∉ content)
    (other : quote = .single → ¬(content = "shape".toList ∧ ": (".toList <+: rest))
    (apart : ¬"shape".toList <+: rest) :
    after shapeKey (quote.literal content ++ rest) = after shapeKey rest := by
  rw [shapeKey_eq]
  cases quote with
  | single =>
      have whole : Quote.single.literal content ++ rest =
          '\'' :: (content ++ '\'' :: rest) := by simp [Quote.literal, Quote.mark]
      rw [whole, after_quoted (by decide) plain (other rfl) apart]
  | double =>
      apply after_append_of_not_mem
      simp [Quote.literal, Quote.mark, plain]

theorem after_blanks (blanks : Blanks) :
    after shapeKey (blanks.val ++ rest) = after shapeKey rest := by
  rw [shapeKey_eq]
  exact after_append_of_not_mem (blanks.not_mem (by decide))

theorem after_cons {c : Char} (plain : c ≠ '\'') :
    after shapeKey (c :: rest) = after shapeKey rest := by
  have whole : c :: rest = [c] ++ rest := rfl
  rw [shapeKey_eq, whole]
  exact after_append_of_not_mem (by simpa using plain.symm)

end Search

namespace TupleLiteral

/-- Only blanks, digits and commas stand between the parentheses. -/
theorem not_mem_inner {c : Char} (visible : isBlank c = false) (noDigit : c.isDigit = false)
    (noComma : c ≠ ',') (tuple : TupleLiteral) : c ∉ tuple.inner := by
  cases tuple with
  | empty blanks => exact blanks.not_mem visible
  | items first rest trailing single =>
      have items := not_mem_itemsText visible noDigit noComma (first :: rest)
      cases trailing with
      | none => simpa [inner, trailingText] using items
      | some blanks => simp [inner, trailingText, items, noComma, blanks.not_mem visible]

theorem parseU64_blanks (blanks : Blanks) : parseU64 (trim blanks.val) = none := by
  have nothing : trim blanks.val = [] := trim_eq_nil_iff.mpr fun c among =>
    isWhitespace_of_isBlank (blanks.property c among)
  rw [nothing]
  rfl

/-- The reader takes what follows the last comma for one more number. -/
theorem parseShape_inner (tuple : TupleLiteral) :
    parseShape tuple.inner = if tuple.trailingComma then none else some tuple.shape := by
  cases tuple with
  | empty blanks =>
      have nothing : trim blanks.val = [] := trim_eq_nil_iff.mpr fun c among =>
        isWhitespace_of_isBlank (blanks.property c among)
      rw [inner, parseShape, if_pos nothing]
      rfl
  | items first rest trailing single =>
      cases trailing with
      | none =>
          rw [inner, trailingText, List.append_nil, parseShape_itemsText]
          rfl
      | some blanks =>
          have visible : trim (itemsText (first :: rest) ++ ',' :: blanks.val) ≠ [] := by
            intro nothing
            have comma := trim_eq_nil_iff.mp nothing ',' (by simp)
            cases comma
          have noComma : ',' ∉ blanks.val := blanks.not_mem (by decide)
          rw [inner, trailingText, parseShape, if_neg visible,
            List.splitOn_append_cons_self, splitOn_itemsText (List.cons_ne_nil _ _),
            List.splitOn_eq_singleton noComma, List.mapM_append, mapM_items]
          simp [parseU64_blanks, trailingComma]

end TupleLiteral

namespace DictLiteral

variable {h : DictLiteral}

theorem quote_not_mem_name (key : Key) (quote : Quote) : quote.mark ∉ key.name := by
  cases key <;> cases quote <;> decide

theorem plainChar_of_mem {text : List Char} (stands : Analytics.verbatim text = true) :
    ∀ c ∈ text, plainChar c = true := by
  intro c among
  fun_induction Analytics.verbatim text with
  | case1 => cases among
  | case2 last =>
      rw [Bool.and_eq_true] at stands
      obtain rfl := List.mem_singleton.mp among
      exact stands.1
  | case3 first next rest inductionHypothesis =>
      rw [Bool.and_eq_true, Bool.and_eq_true] at stands
      rcases List.mem_cons.mp among with rfl | later
      · exact stands.1.1
      · exact inductionHypothesis stands.2 later

theorem not_mem_descr {c : Char} (special : plainChar c = false) : c ∉ h.descr.toList := by
  intro among
  rw [plainChar_of_mem h.verbatim c among] at special
  cases special

/-- What the reader expects after the name of the key tells how the colon stands. -/
theorem spelled_of_leads {beforeColon afterColon : Blanks} {rest : List Char}
    (here : ": (".toList <+: beforeColon.val ++ ':' :: (afterColon.val ++ '(' :: rest)) :
    beforeColon.val = [] ∧ afterColon.val = [' '] := by
  have expected : ": (".toList = [':', ' ', '('] := by decide
  rw [expected] at here
  obtain ⟨text, blank⟩ := beforeColon
  cases text with
  | cons c text =>
      obtain ⟨rfl, -⟩ := List.cons_prefix_cons.mp here
      cases blank ':' List.mem_cons_self
  | nil =>
      have later := (List.cons_prefix_cons.mp here).2
      obtain ⟨behind, blank⟩ := afterColon
      cases behind with
      | nil => cases (List.cons_prefix_cons.mp later).1
      | cons c behind =>
          obtain ⟨rfl, last⟩ := List.cons_prefix_cons.mp later
          cases behind with
          | nil => exact ⟨rfl, rfl⟩
          | cons d behind =>
              obtain rfl := (List.cons_prefix_cons.mp last).1
              cases blank '(' (by simp)

/-- A value is passed over. -/
theorem after_value {key : Key} {rest : List Char}
    (next : ¬":".toList <+: rest ∧ ¬"shape".toList <+: rest) :
    after shapeKey (h.value key ++ rest) = after shapeKey rest := by
  cases key with
  | descr =>
      apply after_literal (not_mem_descr (by decide))
      · exact fun _ key => next.1 ((show [':'] <+: ": (".toList by decide).trans key.2)
      · exact next.2
  | fortranOrder =>
      have plain : ∀ flag : Bool, '\'' ∉ (if flag then "True" else "False").toList := by decide
      rw [shapeKey_eq]
      exact after_append_of_not_mem (plain h.fortranOrder)
  | shape =>
      have plain := h.tuple.not_mem_inner (c := '\'') (by decide) (by decide) (by decide)
      rw [shapeKey_eq]
      apply after_append_of_not_mem
      simp [value, plain]

/-- An entry other than that of the shape, or with its key spelled otherwise, is passed over. -/
theorem after_entry {key : Key} {rest : List Char} (other : key = .shape → ¬h.Spelled)
    (next : ∀ c ∈ rest.head?, c ≠ ':' ∧ c ≠ 's') :
    after shapeKey (h.entry key ++ rest) = after shapeKey rest := by
  have nextColon : ¬":".toList <+: (h.spelling key).behind.val ++ rest :=
    not_prefix_of_blanks (by decide) (fun c first => (next c first).1) _
  have nextLetter : ¬"shape".toList <+: (h.spelling key).behind.val ++ rest :=
    not_leads_shape (fun c first => (next c first).2) _
  have misspelled : (h.spelling key).quote = .single →
      ¬(key.name = "shape".toList ∧ ": (".toList <+: (h.spelling key).beforeColon.val ++
        ':' :: ((h.spelling key).afterColon.val ++
          (h.value key ++ ((h.spelling key).behind.val ++ rest)))) := by
    rintro single ⟨named, here⟩
    cases key with
    | descr => cases named
    | fortranOrder => cases named
    | shape =>
        obtain ⟨beforeColon, afterColon⟩ := spelled_of_leads (by simpa [value] using here)
        exact other rfl ⟨single, beforeColon, afterColon⟩
  unfold entry
  simp only [List.append_assoc, List.cons_append]
  rw [after_blanks, after_literal (quote_not_mem_name key .single) misspelled
      (not_leads_shape (by simp) _),
    after_blanks, after_cons (by decide), after_blanks, after_value ⟨nextColon, nextLetter⟩,
    after_blanks]

/-- The entry of the shape where it is spelled as the reader expects it. -/
theorem entry_shape (spelled : h.Spelled) :
    h.entry .shape = (h.spelling .shape).before.val ++
      '\'' :: ("shape".toList ++ '\'' :: (": (".toList ++
        (h.tuple.inner ++ ')' :: (h.spelling .shape).behind.val))) := by
  have expected : ": (".toList = [':', ' ', '('] := by decide
  have key : Quote.single.literal (Key.name .shape) = '\'' :: ("shape".toList ++ ['\'']) := rfl
  have value : h.value .shape = '(' :: (h.tuple.inner ++ [')']) := rfl
  unfold entry
  rw [spelled.quote, spelled.beforeColon, spelled.afterColon, expected, key, value]
  simp only [List.append_assoc, List.cons_append, List.nil_append]

/-- It is found there. -/
theorem after_entry_shape {rest : List Char} (spelled : h.Spelled) :
    after shapeKey (h.entry .shape ++ rest) =
      some (h.tuple.inner ++ ')' :: ((h.spelling .shape).behind.val ++ rest)) := by
  have plain : '\'' ∉ (h.spelling .shape).before.val := (h.spelling .shape).before.not_mem (by decide)
  rw [entry_shape spelled, shapeKey_eq, List.append_assoc, after_append_of_not_mem plain]
  simp only [List.cons_append, List.append_assoc]
  exact after_quoted_key

theorem close_head : ∀ c ∈ h.close.head?, c ≠ ':' ∧ c ≠ 's' := by
  unfold close
  cases h.trailing <;> simp [TupleLiteral.trailingText]

theorem not_mem_close {c : Char} (visible : isBlank c = false) (noComma : c ≠ ',')
    (noBrace : c ≠ '}') : c ∉ h.close := by
  obtain ⟨space, lineFeed⟩ := ne_of_not_isBlank visible
  unfold close
  cases h.trailing with
  | none => simp [TupleLiteral.trailingText, noBrace, space, lineFeed]
  | some blanks =>
      simp [TupleLiteral.trailingText, noComma, noBrace, space, lineFeed, blanks.not_mem visible]

theorem after_close : after shapeKey h.close = none := by
  have plain : '\'' ∉ h.close := not_mem_close (by decide) (by decide) (by decide)
  rw [← List.append_nil h.close, shapeKey_eq, after_append_of_not_mem plain]
  rfl

/-- Where the key of the shape is misspelled nothing is found. -/
theorem after_entriesFrom_of_misspelled (misspelled : ¬h.Spelled) (keys : List Key) :
    after shapeKey (h.entriesFrom keys) = none := by
  fun_induction h.entriesFrom keys with
  | case1 => exact after_close
  | case2 key => rw [after_entry (fun _ => misspelled) close_head, after_close]
  | case3 key next keys inductionHypothesis =>
      rw [after_entry (fun _ => misspelled) (by simp), after_cons (by decide),
        inductionHypothesis]

/-- Where it is spelled as expected, the reader finds the shape among the entries. -/
theorem after_entriesFrom_of_spelled (spelled : h.Spelled) {keys : List Key}
    (among : .shape ∈ keys) :
    ∃ rest, after shapeKey (h.entriesFrom keys) = some (h.tuple.inner ++ ')' :: rest) := by
  fun_induction h.entriesFrom keys with
  | case1 => cases among
  | case2 key =>
      obtain rfl := List.mem_singleton.mp among
      exact ⟨_, after_entry_shape spelled⟩
  | case3 key next keys inductionHypothesis =>
      by_cases here : key = .shape
      · subst here
        exact ⟨_, after_entry_shape spelled⟩
      · have later := (List.mem_cons.mp among).resolve_left (Ne.symm here)
        rw [after_entry (fun same => absurd same here) (by simp), after_cons (by decide)]
        exact inductionHypothesis later

/-- What the reader makes of a header. -/
theorem readDict_text_iff (h : DictLiteral) :
    (∃ descr, readDict h.text = some (descr, h.tuple.shape)) ↔ h.Readable := by
  have opened : after shapeKey h.text = after shapeKey (h.entriesFrom h.order) :=
    after_cons (by decide)
  have parts : (h.text.splitOn '\'').length = h.text.count '\'' + 1 := length_splitOn h.text
  have among : Key.shape ∈ h.order := h.complete.mem_iff.mpr (by simp)
  have inside : ')' ∉ h.tuple.inner := h.tuple.not_mem_inner (by decide) (by decide) (by decide)
  constructor
  · rintro ⟨descr, read⟩
    have spelled : h.Spelled := by
      by_contra misspelled
      have nothing := after_entriesFrom_of_misspelled misspelled h.order
      rw [← opened] at nothing
      simp [readDict, nothing] at read
    obtain ⟨rest, found⟩ := after_entriesFrom_of_spelled spelled among
    rw [← opened] at found
    cases quoted : (h.text.splitOn '\'')[3]? with
    | none => simp [readDict, quoted] at read
    | some text =>
        obtain ⟨enough, -⟩ := List.getElem?_eq_some_iff.mp quoted
        rw [readDict_of_parts quoted found inside, h.tuple.parseShape_inner] at read
        cases comma : h.tuple.trailingComma with
        | true => simp [comma] at read
        | false => exact ⟨spelled, comma, by omega⟩
  · rintro ⟨spelled, comma, quotes⟩
    obtain ⟨rest, found⟩ := after_entriesFrom_of_spelled spelled among
    rw [← opened] at found
    obtain ⟨descr, quoted⟩ : ∃ descr, (h.text.splitOn '\'')[3]? = some descr :=
      ⟨_, List.getElem?_eq_getElem (by omega)⟩
    rw [readDict_of_parts quoted found inside, h.tuple.parseShape_inner, comma]
    exact ⟨_, rfl⟩

end DictLiteral

/-- The reader accepts a header with its shape exactly when it can make sense of it. -/
theorem readNpy_file_iff (h : Header) (data : List UInt8) :
    (∃ view, readNpy (h.file data) = .ok view ∧ view.shape = h.tuple.shape) ↔
      h.toDictLiteral.Readable := by
  rw [← h.readDict_text_iff, Header.file, readNpy_npyFile h.sized, String.toList_ofList]
  cases read : readDict h.text with
  | none => simp
  | some parts =>
      obtain ⟨descr, shape⟩ := parts
      simp

section Written

/-- The tuple of the writer, which has no comma after the last number. -/
def writtenTuple (shape : List UInt64) (plural : shape.length ≠ 1) : TupleLiteral :=
  match shape, plural with
  | [], _ => .empty .none
  | first :: rest, plural =>
      .items ⟨.none, first, .none⟩ (rest.map fun dim => ⟨.space, dim, .none⟩) none
        (fun single => absurd (by simpa using single) plural)

theorem writtenTuple_spec (shape : List UInt64) (plural : shape.length ≠ 1) :
    (writtenTuple shape plural).shape = shape ∧
      (writtenTuple shape plural).inner = itemsText (writtenItems shape) := by
  cases shape with
  | nil => exact ⟨rfl, rfl⟩
  | cons first rest =>
      constructor
      · simp [writtenTuple, TupleLiteral.shape, Function.comp_def]
      · exact List.append_nil _

/-- The dictionary of the writer. -/
def writtenDict (descr : String) (shape : List UInt64) (plural : shape.length ≠ 1)
    (stands : verbatim descr.toList = true) : DictLiteral where
  order := [.descr, .fortranOrder, .shape]
  complete := .refl _
  spelling key := ⟨if key = .descr then .none else .space, .single, .none, .space, .none⟩
  descr := descr
  descrQuote := .single
  verbatim := stands
  fortranOrder := false
  tuple := writtenTuple shape plural
  trailing := some .space
  padding := npyLen descr shape - ((utf8 (npyDict descr shape)).length + 1)

theorem DictLiteral.text_of_order {h : DictLiteral}
    (order : h.order = [.descr, .fortranOrder, .shape]) :
    h.text = '{' :: (h.entry .descr ++ ',' :: (h.entry .fortranOrder ++
      ',' :: (h.entry .shape ++ h.close))) := by
  rw [text, order]
  simp only [entriesFrom]

section Text

variable {descr : String} {shape : List UInt64} (plural : shape.length ≠ 1)
  (stands : verbatim descr.toList = true)

/-- An entry as the writer spells it. -/
theorem entry_writtenDict (key : Key) :
    (writtenDict descr shape plural stands).entry key =
      (if key = .descr then [] else [' ']) ++ '\'' :: (key.name ++
        '\'' :: (": ".toList ++ (writtenDict descr shape plural stands).value key)) := by
  have separator : ": ".toList = [':', ' '] := by decide
  have before : (if key = .descr then Blanks.none else Blanks.space).val =
      if key = .descr then [] else [' '] := by split <;> rfl
  rw [DictLiteral.entry, separator, ← before]
  simp [writtenDict, Quote.literal, Quote.mark, Blanks.none, Blanks.space]

theorem text_writtenDict :
    (writtenDict descr shape plural stands).text = (npyHeader descr shape).toList := by
  have order : (writtenDict descr shape plural stands).order =
      [.descr, .fortranOrder, .shape] := rfl
  have descrValue : (writtenDict descr shape plural stands).value .descr =
      '\'' :: (descr.toList ++ ['\'']) := rfl
  have orderValue : (writtenDict descr shape plural stands).value .fortranOrder =
      "False".toList := rfl
  have shapeValue : (writtenDict descr shape plural stands).value .shape =
      '(' :: (itemsText (writtenItems shape) ++ [')']) := by
    rw [← (writtenTuple_spec shape plural).2]
    rfl
  have close : (writtenDict descr shape plural stands).close =
      ", \x7d".toList ++ npyPadding descr shape := by
    have letters : ", \x7d".toList = [',', ' ', '}'] := by decide
    rw [letters]
    simp only [DictLiteral.close, writtenDict, TupleLiteral.trailingText, npyPadding,
      Blanks.space, List.cons_append, List.nil_append]
  have names : Key.descr.name = "descr".toList ∧
      Key.fortranOrder.name = "fortran_order".toList ∧ Key.shape.name = "shape".toList :=
    ⟨rfl, rfl, rfl⟩
  have orderText : ": False, ".toList = ": ".toList ++ ("False".toList ++ [',', ' ']) := by decide
  have shapeText : ": (".toList = ": ".toList ++ ['('] := by decide
  have separator : ", ".toList = [',', ' '] := by decide
  rw [DictLiteral.text_of_order order, entry_writtenDict, entry_writtenDict, entry_writtenDict,
    descrValue, orderValue, shapeValue, close, names.1, names.2.1, names.2.2, toList_npyHeader, orderText, shapeText,
    separator]
  simp only [if_true, reduceCtorEq, if_false, List.append_assoc, List.cons_append,
    List.nil_append]

end Text

namespace DictLiteral

variable {h : DictLiteral}

/-- What follows the name of the shape in the last place. -/
def shapeTail (h : DictLiteral) : List Char :=
  (h.spelling .shape).beforeColon.val ++ ':' :: ((h.spelling .shape).afterColon.val ++
    '(' :: (h.tuple.inner ++ ')' :: ((h.spelling .shape).behind.val ++ h.close)))

/-- An entry, from the mark that ends its key on. -/
theorem exists_entry_append (key : Key) (rest : List Char) :
    ∃ front, h.entry key ++ rest = front ++ (h.spelling key).quote.mark ::
      ((h.spelling key).beforeColon.val ++ ':' :: ((h.spelling key).afterColon.val ++
        (h.value key ++ ((h.spelling key).behind.val ++ rest)))) := by
  refine ⟨(h.spelling key).before.val ++ (h.spelling key).quote.mark :: key.name, ?_⟩
  simp only [entry, Quote.literal, List.append_assoc, List.cons_append, List.nil_append]

/-- After the last string of a dictionary there are no more marks, and a parenthesis only if the
shape stands last. -/
theorem exists_last_literal {keys : List Key} (nonempty : keys ≠ []) :
    ∃ front quote rest, h.entriesFrom keys = front ++ Quote.mark quote :: rest ∧
      (∀ q : Quote, q.mark ∉ rest) ∧ ('(' ∈ rest → rest = h.shapeTail) := by
  have noMark (q : Quote) (blanks : Blanks) : q.mark ∉ blanks.val :=
    blanks.not_mem (by cases q <;> decide)
  have noMarkClose (q : Quote) : q.mark ∉ h.close :=
    not_mem_close (by cases q <;> decide) (by cases q <;> decide) (by cases q <;> decide)
  have noParen (blanks : Blanks) : '(' ∉ blanks.val := blanks.not_mem (by decide)
  have noParenClose : '(' ∉ h.close := not_mem_close (by decide) (by decide) (by decide)
  fun_induction h.entriesFrom keys with
  | case1 => exact absurd rfl nonempty
  | case2 key =>
      obtain ⟨front, split⟩ := h.exists_entry_append key h.close
      rw [split]
      cases key with
      | descr =>
          have literal : h.value .descr =
              h.descrQuote.mark :: (h.descr.toList ++ [h.descrQuote.mark]) := rfl
          rw [literal]
          refine ⟨front ++ (h.spelling .descr).quote.mark :: ((h.spelling .descr).beforeColon.val ++
            ':' :: ((h.spelling .descr).afterColon.val ++ h.descrQuote.mark :: h.descr.toList)),
            h.descrQuote, (h.spelling .descr).behind.val ++ h.close, ?_, ?_, ?_⟩
          · simp only [List.append_assoc, List.cons_append, List.nil_append]
          · intro q
            rw [List.mem_append, not_or]
            exact ⟨noMark q _, noMarkClose q⟩
          · intro paren
            rcases List.mem_append.mp paren with blank | closing
            · exact absurd blank (noParen _)
            · exact absurd closing noParenClose
      | fortranOrder =>
          have word : h.value .fortranOrder = (if h.fortranOrder then "True" else "False").toList :=
            rfl
          have noParenWord : ∀ flag : Bool, '(' ∉ (if flag then "True" else "False").toList := by
            decide
          have noMarkWord (q : Quote) :
              ∀ flag : Bool, q.mark ∉ (if flag then "True" else "False").toList := by
            cases q <;> decide
          rw [word]
          refine ⟨front, _, _, rfl, ?_, ?_⟩
          · intro q
            have noColon : q.mark ≠ ':' := by cases q <;> decide
            simp [noMark, noMarkClose, noMarkWord, noColon]
          · intro paren
            simp [noParen, noParenClose, noParenWord] at paren
      | shape =>
          have parens : h.value .shape = '(' :: (h.tuple.inner ++ [')']) := rfl
          have tail : (h.spelling .shape).beforeColon.val ++
              ':' :: ((h.spelling .shape).afterColon.val ++
                (h.value .shape ++ ((h.spelling .shape).behind.val ++ h.close))) = h.shapeTail := by
            rw [parens, shapeTail]
            simp only [List.append_assoc, List.cons_append, List.nil_append]
          rw [tail]
          refine ⟨front, _, _, rfl, ?_, fun _ => rfl⟩
          intro q
          have noMarkInner : q.mark ∉ h.tuple.inner := h.tuple.not_mem_inner
            (by cases q <;> decide) (by cases q <;> decide) (by cases q <;> decide)
          have others : q.mark ≠ ':' ∧ q.mark ≠ '(' ∧ q.mark ≠ ')' := by cases q <;> decide
          simp [shapeTail, noMark, noMarkClose, noMarkInner, others]
  | case3 key next keys inductionHypothesis =>
      obtain ⟨front, quote, rest, split, others⟩ := inductionHypothesis (List.cons_ne_nil _ _)
      refine ⟨h.entry key ++ ',' :: front, quote, rest, ?_, others⟩
      rw [split, List.append_assoc, List.cons_append]

end DictLiteral

/-- Two ways to cut a list at a letter that does not come again are the same. -/
theorem eq_of_append_cons_last {α : Type} {first second before behind : List α} {x y : α}
    (same : before ++ x :: first = behind ++ y :: second) (noY : y ∉ first) (noX : x ∉ second) :
    x = y ∧ first = second := by
  rcases List.append_eq_append_iff.mp same with ⟨between, -, rest⟩ | ⟨between, -, rest⟩
  · cases between with
    | nil => exact List.cons.inj rest
    | cons z between =>
        rw [(List.cons.inj rest).2] at noY
        simp at noY
  · cases between with
    | nil =>
        obtain ⟨rfl, rfl⟩ := List.cons.inj rest
        exact ⟨rfl, rfl⟩
    | cons z between =>
        rw [(List.cons.inj rest).2] at noX
        simp at noX

/-- Files are told apart by their headers. -/
theorem utf8_injective {first second : String} (same : utf8 first = utf8 second) :
    first = second := by
  have read := fromUtf8_utf8 first
  rw [same, fromUtf8_utf8] at read
  exact (Option.some.inj read).symm

/-- What follows the last quotation mark of a written header. -/
def writtenTail (descr : String) (shape : List UInt64) : List Char :=
  [':', ' '] ++ '(' :: (itemsText (writtenItems shape) ++
    ')' :: (", \x7d".toList ++ npyPadding descr shape))

theorem not_mem_npyPadding {c : Char} (visible : isBlank c = false) (descr : String)
    (shape : List UInt64) : c ∉ npyPadding descr shape := by
  obtain ⟨space, lineFeed⟩ := ne_of_not_isBlank visible
  simp [npyPadding, space, lineFeed]

theorem exists_writtenTail (descr : String) (shape : List UInt64) :
    ∃ front, (npyHeader descr shape).toList = front ++ '\'' :: writtenTail descr shape := by
  have opening : ": (".toList = [':', ' ', '('] := by decide
  refine ⟨['{'] ++ '\'' :: ("descr".toList ++ '\'' :: (": ".toList ++ '\'' :: (descr.toList ++
    '\'' :: (", ".toList ++ '\'' :: ("fortran_order".toList ++ '\'' :: (": False, ".toList ++
      '\'' :: "shape".toList)))))), ?_⟩
  rw [toList_npyHeader, writtenTail, opening]
  simp only [List.append_assoc, List.cons_append, List.nil_append]

theorem mark_not_mem_writtenTail (descr : String) (shape : List UInt64) (q : Quote) :
    q.mark ∉ writtenTail descr shape := by
  have visible : isBlank q.mark = false := by cases q <;> decide
  have items : q.mark ∉ itemsText (writtenItems shape) :=
    not_mem_itemsText visible (by cases q <;> decide) (by cases q <;> decide) _
  have padding := not_mem_npyPadding visible descr shape
  have opening : q.mark ∉ [':', ' ', '(', ')'] := by cases q <;> decide
  have closing : q.mark ∉ ", \x7d".toList := by cases q <;> decide
  simp only [List.mem_cons, List.not_mem_nil, or_false, not_or] at opening
  simp only [writtenTail, List.mem_append, List.mem_cons, List.not_mem_nil, or_false, not_or]
  exact ⟨⟨opening.1, opening.2.1⟩, opening.2.2.1, items, opening.2.2.2, closing, padding⟩

/-- A header that is the written one has what the writer put between the parentheses. -/
theorem inner_of_text_eq {h : DictLiteral} {descr : String} {shape : List UInt64}
    (same : h.text = (npyHeader descr shape).toList) :
    h.tuple.inner = itemsText (writtenItems shape) := by
  have nonempty : h.order ≠ [] := by
    intro empty
    have length := h.complete.length_eq
    rw [empty] at length
    cases length
  obtain ⟨front, quote, rest, split, noMark, tail⟩ := h.exists_last_literal nonempty
  obtain ⟨front', written⟩ := exists_writtenTail descr shape
  rw [DictLiteral.text, split, written, ← List.cons_append] at same
  obtain ⟨-, rfl⟩ := eq_of_append_cons_last same (noMark .single)
    (mark_not_mem_writtenTail descr shape quote)
  have paren : '(' ∈ writtenTail descr shape := by simp [writtenTail]
  have noParenItems : '(' ∉ itemsText (writtenItems shape) :=
    not_mem_itemsText (by decide) (by decide) (by decide) _
  have noCloseItems : ')' ∉ itemsText (writtenItems shape) :=
    not_mem_itemsText (by decide) (by decide) (by decide) _
  have noParenRest : '(' ∉ itemsText (writtenItems shape) ++
      ')' :: (", \x7d".toList ++ npyPadding descr shape) := by
    have closing : '(' ∉ ", \x7d".toList := by decide
    have padding := not_mem_npyPadding (c := '(') (by decide) descr shape
    simp [noParenItems, padding]
  have noCloseRest : ')' ∉ ", \x7d".toList ++ npyPadding descr shape := by
    have closing : ')' ∉ ", \x7d".toList := by decide
    rw [List.mem_append, not_or]
    exact ⟨closing, not_mem_npyPadding (by decide) descr shape⟩
  have noParenColon : '(' ∉ [':', ' '] := by decide
  have shapeTail : writtenTail descr shape = ((h.spelling .shape).beforeColon.val ++
      ':' :: (h.spelling .shape).afterColon.val) ++
        '(' :: (h.tuple.inner ++ ')' :: ((h.spelling .shape).behind.val ++ h.close)) := by
    rw [List.append_assoc, List.cons_append]
    exact tail paren
  obtain ⟨-, -, parens⟩ :=
    (List.append_cons_inj_of_notMem noParenColon noParenRest).mp shapeTail
  obtain ⟨items, -, -⟩ :=
    (List.append_cons_inj_of_notMem noCloseItems noCloseRest).mp parens
  exact items.symm

/-- A tuple of one number has its comma. -/
theorem TupleLiteral.comma_of_single {tuple : TupleLiteral} (single : tuple.shape.length = 1) :
    ',' ∈ tuple.inner := by
  cases tuple with
  | empty blanks => cases single
  | items first rest trailing comma =>
      have alone : rest = [] := by simpa [shape] using single
      obtain ⟨blanks, rfl⟩ := Option.isSome_iff_exists.mp (comma alone)
      simp [inner, trailingText]

/-- What the writer writes between the parentheses is no tuple of one number. -/
theorem comma_not_mem_writtenItems {shape : List UInt64} (single : shape.length = 1) :
    ',' ∉ itemsText (writtenItems shape) := by
  obtain ⟨dim, rfl⟩ := List.length_eq_one_iff.mp single
  have item := (ShapeItem.mk .none dim .none).not_mem_text (c := ',') (by decide) (by decide)
  simpa [itemsText, writtenItems] using item

/-- A header that is a written file has its text. -/
theorem text_eq_of_file_eq {h : Header} {descr : String} {shape : List UInt64} {data : List UInt8}
    (same : writeNpy descr shape data = h.file data) :
    npyLen descr shape ≤ 65535 ∧ h.text = (npyHeader descr shape).toList := by
  have bytes : utf8 (npyHeader descr shape) = utf8 (.ofList h.text) := by
    rw [writeNpy_header, Header.file, npyFile] at same
    exact List.append_inj_right (List.append_cancel_right same) (by simp)
  have text := utf8_injective bytes
  refine ⟨?_, ?_⟩
  · have sized := h.sized
    rw [DictLiteral.length, ← bytes, length_npyHeader] at sized
    omega
  · rw [text, String.toList_ofList]

/-- The header of the writer, where it is one of the format. -/
def writtenHeader (descr : String) (shape : List UInt64) (plural : shape.length ≠ 1)
    (stands : verbatim descr.toList = true) (fits : npyLen descr shape ≤ 65535) : Header where
  toDictLiteral := writtenDict descr shape plural stands
  sized := by
    rw [DictLiteral.length, text_writtenDict, String.ofList_toList, length_npyHeader]
    exact Nat.lt_succ_of_le fits

theorem length_ne_one_of_file_eq {h : Header} {descr : String} {shape : List UInt64}
    {data : List UInt8} (denotes : h.tuple.shape = shape)
    (same : writeNpy descr shape data = h.file data) : shape.length ≠ 1 := by
  intro single
  have listed : h.tuple.shape.length = 1 := by
    rw [denotes]
    exact single
  have comma := TupleLiteral.comma_of_single listed
  rw [inner_of_text_eq (text_eq_of_file_eq same).2] at comma
  exact comma_not_mem_writtenItems single comma

/-- The writer makes a header of the format that says what it is given exactly for shapes that
are not of one dimension, descriptions that stand for themselves in quotes and headers that fit.
The reader takes the shape off a header of the format exactly when the key of the shape is
spelled as it expects, no comma ends the tuple and another string is in single quotes. -/
theorem npy_conforms_iff {descr : String}
    (noQuotes : '\'' ∉ descr.toList ∧ '"' ∉ descr.toList) (shape : List UInt64)
    (data : List UInt8) :
    ((∃ h : Header, h.descr = descr ∧ h.tuple.shape = shape ∧
        writeNpy descr shape data = h.file data ∧ 64 ∣ 10 + h.length) ↔
      shape.length ≠ 1 ∧ verbatim descr.toList = true ∧ npyLen descr shape ≤ 65535) ∧
    ∀ h : Header, h.descr = descr → h.tuple.shape = shape →
      ((∃ view, readNpy (h.file data) = .ok view ∧ view.shape = shape) ↔
        h.toDictLiteral.Readable) := by
  refine ⟨⟨?_, ?_⟩, ?_⟩
  · rintro ⟨h, rfl, denotes, same, -⟩
    exact ⟨length_ne_one_of_file_eq denotes same, h.verbatim, (text_eq_of_file_eq same).1⟩
  · rintro ⟨plural, stands, fits⟩
    have text := text_writtenDict plural stands
    refine ⟨writtenHeader descr shape plural stands fits, rfl, (writtenTuple_spec shape plural).1,
      ?_, ?_⟩
    · rw [writeNpy_eq fits, Header.file, writtenHeader, text, String.ofList_toList]
    · have aligned := (headerLen_spec ((utf8 (npyDict descr shape)).length + 1) 54).2
      rw [DictLiteral.length, writtenHeader, text, String.ofList_toList, length_npyHeader]
      unfold npyLen
      omega
  · rintro h - rfl
    exact readNpy_file_iff h data

end Written

section Instance

/-- A matrix of floats is written as the format has it. -/
theorem matrix_conforms :
    ∃ h : Header, h.descr = "<f4" ∧ h.tuple.shape = [2, 3] ∧
      writeNpy "<f4" [2, 3] [] = h.file [] ∧ 64 ∣ 10 + h.length := by
  have short := npyLen_le "<f4" [2, 3]
  have dict : (utf8 (npyDict "<f4" [2, 3])).length = 59 := by decide +kernel
  exact (npy_conforms_iff (by decide) [2, 3] []).1.mpr ⟨by decide, by decide, by omega⟩

/-- The header of a vector of three floats, as other tools write it. -/
def vectorHeader : Header where
  order := [.descr, .fortranOrder, .shape]
  complete := .refl _
  spelling key := ⟨if key = .descr then .none else .space, .single, .none, .space, .none⟩
  descr := "<f4"
  descrQuote := .single
  verbatim := by decide
  fortranOrder := false
  tuple := .items ⟨.none, 3, .none⟩ [] (some .none) (fun _ => rfl)
  trailing := some .space
  padding := 60
  sized := by decide +kernel

/-- A vector is not written as the format has it, and the header it should have is refused. -/
theorem not_npy_conforms :
    ¬((∀ (descr : String) (shape : List UInt64) (data : List UInt8),
          '\'' ∉ descr.toList ∧ '"' ∉ descr.toList →
          ∃ h : Header, h.descr = descr ∧ h.tuple.shape = shape ∧
            writeNpy descr shape data = h.file data) ∨
        ∀ (h : Header) (data : List UInt8),
          ∃ view, readNpy (h.file data) = .ok view ∧ view.shape = h.tuple.shape) := by
  rintro (conforms | accepts)
  · obtain ⟨h, -, denotes, same⟩ := conforms "<f4" [3] [] (by decide)
    exact length_ne_one_of_file_eq denotes same rfl
  · have comma := ((readNpy_file_iff vectorHeader []).mp (accepts vectorHeader [])).comma
    cases comma

end Instance

end Teleop.Analytics
