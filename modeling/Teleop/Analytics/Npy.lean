import Mathlib.Data.List.TakeWhile
import Teleop.Cloud.Bearer
import Teleop.Lib.Quoted

/-!
# Arrays for training

Writer and reader of the files that training takes: a prefix of ten bytes, a dictionary as text,
padded so that the data starts at a multiple of 64, and the data.  The reader finds the parts of
the dictionary by their quotes and parentheses.
-/

namespace Teleop.Analytics

open Teleop.Lib Teleop.Cloud

/-- `\x93NUMPY`. -/
def NPY_MAGIC : List UInt8 := 0x93 :: utf8 "NUMPY"

/-- Errors of the reader. -/
inductive NpyError where
  | tooShort
  | badMagic
  | badHeaderLen
  | badHeader
  deriving DecidableEq, Repr

/-- What a file says and holds. -/
structure NpyView where
  descr : String
  shape : List UInt64
  data : List UInt8
  deriving DecidableEq

/-- The loop that lengthens a header until it holds what it needs. -/
def headerLen (need hl : Nat) : Nat := if hl < need then headerLen need (hl + 64) else hl
termination_by need - hl

/-- The dimensions, joined. -/
def shapeStr (shape : List UInt64) : String :=
  ", ".intercalate (shape.map fun dim => toString dim.toNat)

/-- The dictionary of a header. -/
def npyDict (descr : String) (shape : List UInt64) : String :=
  "\x7b'descr': '" ++ descr ++ "', 'fortran_order': False, 'shape': (" ++ shapeStr shape ++ "), \x7d"

/-- The bytes of a file. -/
def writeNpy (descr : String) (shape : List UInt64) (data : List UInt8) : List UInt8 :=
  let dict := utf8 (npyDict descr shape)
  let need := dict.length + 1
  let hl := headerLen need 54
  let header := dict ++ .replicate (hl - need) 0x20 ++ [0x0A]
  NPY_MAGIC ++ [1, 0] ++ leBytes 2 (UInt16.ofNat hl).toNat ++ header ++ data

/-- What the reader takes the shape to start with. -/
def shapeKey : List Char := "'shape': (".toList

/-- The dimensions between the parentheses. -/
def parseShape (text : List Char) : Option (List UInt64) :=
  if trim text = [] then some []
  else (text.splitOn ',').mapM fun dim => parseU64 (trim dim)

/-- The parts of the dictionary that the reader uses. -/
def readDict (header : List Char) : Option (String × List UInt64) := do
  let descr ← (header.splitOn '\'')[3]?
  let rest ← after shapeKey header
  let shapeEnd ← position [')'] rest
  let shape ← parseShape (rest.take shapeEnd)
  return (.ofList descr, shape)

def readNpy (bytes : List UInt8) : Except NpyError NpyView :=
  if bytes.length < 10 then .error .tooShort
  else if bytes.take 6 ≠ NPY_MAGIC then .error .badMagic
  else
    let hl := ofLe ((bytes.drop 8).take 2)
    if bytes.length < 10 + hl then .error .badHeaderLen
    else
      match (fromUtf8 ((bytes.take (10 + hl)).drop 10)).bind fun text => readDict text.toList with
      | none => .error .badHeader
      | some (descr, shape) => .ok { descr, shape, data := bytes.drop (10 + hl) }

section Prefix

/-- A file with some text as its header. -/
def npyFile (header : String) (data : List UInt8) : List UInt8 :=
  NPY_MAGIC ++ [1, 0] ++ leBytes 2 (utf8 header).length ++ utf8 header ++ data

/-- The header is long enough, and a multiple of 64 away from where it starts. -/
theorem headerLen_spec (need hl : Nat) :
    need ≤ headerLen need hl ∧ headerLen need hl % 64 = hl % 64 := by
  fun_induction headerLen need hl with
  | case1 hl short inductionHypothesis =>
      refine ⟨inductionHypothesis.1, ?_⟩
      rw [inductionHypothesis.2]
      exact Nat.add_mod_right hl 64
  | case2 hl enough => exact ⟨Nat.not_lt.mp enough, rfl⟩

/-- It is lengthened no further than it must. -/
theorem headerLen_le (need hl : Nat) : headerLen need hl ≤ max hl (need + 63) := by
  fun_induction headerLen need hl with
  | case1 hl short inductionHypothesis => omega
  | case2 hl enough => exact Nat.le_max_left hl _

/-- The reader gets at the text of a header and at what follows it. -/
theorem readNpy_npyFile {header : String} (sized : (utf8 header).length < 2 ^ 16)
    (data : List UInt8) :
    readNpy (npyFile header data) =
      match readDict header.toList with
      | none => .error .badHeader
      | some (descr, shape) => .ok { descr, shape, data } := by
  have magic : NPY_MAGIC.length = 6 := by decide
  have front : (NPY_MAGIC ++ [1, 0] ++ leBytes 2 (utf8 header).length).length = 10 := by
    simp [magic]
  have whole : npyFile header data =
      NPY_MAGIC ++ [1, 0] ++ leBytes 2 (utf8 header).length ++ (utf8 header ++ data) := by
    simp [npyFile]
  have length : (npyFile header data).length = 10 + (utf8 header).length + data.length := by
    rw [whole, List.length_append, front, List.length_append, Nat.add_assoc]
  have start : (npyFile header data).take 6 = NPY_MAGIC := by
    simp only [npyFile, List.append_assoc]
    exact List.take_left' magic
  have field : ((npyFile header data).drop 8).take 2 = leBytes 2 (utf8 header).length := by
    have ahead : (NPY_MAGIC ++ [1, 0]).length = 8 := by simp [magic]
    rw [npyFile, List.append_assoc, List.append_assoc, List.drop_left' ahead]
    exact List.take_left' (length_leBytes _ _)
  have hl : ofLe (leBytes 2 (utf8 header).length) = (utf8 header).length := by
    rw [ofLe_leBytes]
    exact Nat.mod_eq_of_lt sized
  have text : ((npyFile header data).take (10 + (utf8 header).length)).drop 10 = utf8 header := by
    rw [List.drop_take, Nat.add_sub_cancel_left, whole, List.drop_left' front, List.take_left]
  have rest : (npyFile header data).drop (10 + (utf8 header).length) = data := by
    rw [← List.drop_drop, whole, List.drop_left' front, List.drop_left]
  unfold readNpy
  rw [if_neg (by omega), start, if_neg (not_not_intro rfl), field, hl]
  dsimp only
  rw [if_neg (by omega), text, rest, fromUtf8_utf8, Option.bind_some]

end Prefix

section Text

/-- Whitespace on both sides is trimmed off a text without any. -/
theorem trim_of_surrounded {before text behind : List Char}
    (blankBefore : ∀ c ∈ before, isWhitespace c = true)
    (blankBehind : ∀ c ∈ behind, isWhitespace c = true)
    (visible : ∀ c ∈ text, isWhitespace c = false) : trim (before ++ (text ++ behind)) = text := by
  rw [trim_eq_strip, strip_append blankBefore, strip_append_right blankBehind]
  exact trim_of_visible visible

/-- Nothing is left exactly of whitespace. -/
theorem trim_eq_nil_iff {text : List Char} :
    trim text = [] ↔ ∀ c ∈ text, isWhitespace c = true := strip_eq_nil_iff

theorem toString_ne_nil (n : Nat) : (toString n).toList ≠ [] := by
  have digits : (toString n).toList = Nat.toDigits 10 n := Nat.toList_repr
  rw [digits]
  exact Nat.toDigits_ne_nil

/-- Characters that may stand between the parts of a literal. -/
def isBlank (c : Char) : Bool := c ∈ [' ', '\t', '\n', '\r', '\x0c']

theorem ne_of_not_isBlank {c : Char} (visible : isBlank c = false) : c ≠ ' ' ∧ c ≠ '\n' := by
  constructor
  · rintro rfl
    cases visible
  · rintro rfl
    cases visible

abbrev Blanks := { text : List Char // ∀ c ∈ text, isBlank c = true }

/-- A dimension, with blanks around it. -/
structure ShapeItem where
  before : Blanks
  dim : UInt64
  behind : Blanks

def ShapeItem.text (item : ShapeItem) : List Char :=
  item.before.val ++ ((toString item.dim.toNat).toList ++ item.behind.val)

/-- Items with commas between them. -/
def itemsText (items : List ShapeItem) : List Char :=
  [','].intercalate (items.map ShapeItem.text)

theorem isWhitespace_of_isBlank {c : Char} (blank : isBlank c = true) : isWhitespace c = true := by
  simp only [isBlank, List.mem_cons, List.not_mem_nil, or_false, decide_eq_true_eq] at blank
  rcases blank with rfl | rfl | rfl | rfl | rfl <;> decide

/-- Blanks are none of the marks that a reader looks for. -/
theorem Blanks.not_mem {c : Char} (visible : isBlank c = false) (blanks : Blanks) :
    c ∉ blanks.val := by
  intro among
  rw [blanks.property c among] at visible
  cases visible

theorem parseU64_item (item : ShapeItem) : parseU64 (trim item.text) = some item.dim := by
  have trimmed : trim item.text = (toString item.dim.toNat).toList := by
    apply trim_of_surrounded
    · exact fun c among => isWhitespace_of_isBlank (item.before.property c among)
    · exact fun c among => isWhitespace_of_isBlank (item.behind.property c among)
    · exact isWhitespace_repr _
  rw [trimmed, parseU64_repr item.dim.toNat_lt]
  simp

/-- No digit is a comma or a parenthesis. -/
theorem ShapeItem.not_mem_text {c : Char} (visible : isBlank c = false)
    (noDigit : c.isDigit = false) (item : ShapeItem) : c ∉ item.text := by
  have digits : (toString item.dim.toNat).toList = Nat.toDigits 10 item.dim.toNat :=
    Nat.toList_repr
  have notDigit : c ∉ Nat.toDigits 10 item.dim.toNat := by
    intro among
    rw [Nat.isDigit_of_mem_toDigits (by decide) (by decide) among] at noDigit
    cases noDigit
  rw [text, List.mem_append, List.mem_append, digits]
  simp [item.before.not_mem visible, item.behind.not_mem visible, notDigit]

theorem not_mem_itemsText {c : Char} (visible : isBlank c = false) (noDigit : c.isDigit = false)
    (noComma : c ≠ ',') (items : List ShapeItem) : c ∉ itemsText items := by
  induction items with
  | nil => exact List.not_mem_nil
  | cons item items inductionHypothesis =>
      have own := item.not_mem_text visible noDigit
      cases items with
      | nil => simpa [itemsText] using own
      | cons next items =>
          unfold itemsText at inductionHypothesis ⊢
          rw [List.map_cons] at inductionHypothesis
          rw [List.map_cons, List.map_cons, List.intercalate_cons_cons, List.mem_append,
            List.mem_append, List.mem_singleton]
          simp [own, noComma, inductionHypothesis]

theorem splitOn_itemsText {items : List ShapeItem} (nonempty : items ≠ []) :
    (itemsText items).splitOn ',' = items.map ShapeItem.text := by
  apply List.splitOn_intercalate
  · intro text among
    obtain ⟨item, _, rfl⟩ := List.mem_map.mp among
    exact item.not_mem_text (by decide) (by decide)
  · simpa using nonempty

theorem mapM_items (items : List ShapeItem) :
    (items.map ShapeItem.text).mapM (fun dim => parseU64 (trim dim)) =
      some (items.map ShapeItem.dim) := by
  induction items with
  | nil => rfl
  | cons item items inductionHypothesis =>
      simp [List.mapM_cons, parseU64_item, inductionHypothesis]

/-- Dimensions with commas between them are read back. -/
theorem parseShape_itemsText (items : List ShapeItem) :
    parseShape (itemsText items) = some (items.map ShapeItem.dim) := by
  cases items with
  | nil => rfl
  | cons item items =>
      have visible : trim (itemsText (item :: items)) ≠ [] := by
        intro nothing
        obtain ⟨c, rest, digits⟩ := List.exists_cons_of_ne_nil (toString_ne_nil item.dim.toNat)
        have first : c ∈ (toString item.dim.toNat).toList := digits ▸ List.mem_cons_self
        have among : c ∈ itemsText (item :: items) := by
          have own : c ∈ item.text :=
            List.mem_append_right _ (List.mem_append_left _ first)
          cases items with
          | nil => simpa [itemsText] using own
          | cons next items => simp [itemsText, List.intercalate_cons_cons, own]
        have blank := trim_eq_nil_iff.mp nothing c among
        rw [isWhitespace_repr _ c first] at blank
        cases blank
      rw [parseShape, if_neg visible, splitOn_itemsText (List.cons_ne_nil _ _), mapM_items]

/-- What the reader makes of a dictionary with these parts. -/
theorem readDict_of_parts {header descr inner rest : List Char}
    (quoted : (header.splitOn '\'')[3]? = some descr)
    (found : after shapeKey header = some (inner ++ ')' :: rest)) (plain : ')' ∉ inner) :
    readDict header = (parseShape inner).map fun shape => (.ofList descr, shape) := by
  have shapeEnd : position [')'] (inner ++ ')' :: rest) = some inner.length :=
    position_singleton plain
  unfold readDict
  simp only [quoted, found, shapeEnd, Option.bind_eq_bind, Option.bind_some, List.take_left]
  cases parseShape inner <;> rfl

end Text

section RoundTrip

/-- No blanks. -/
def Blanks.none : Blanks := ⟨[], by simp⟩

def Blanks.space : Blanks := ⟨[' '], by simp [isBlank]⟩

/-- The items as the writer spells them. -/
def writtenItems : List UInt64 → List ShapeItem
  | [] => []
  | dim :: rest => ⟨.none, dim, .none⟩ :: rest.map fun dim => ⟨.space, dim, .none⟩

theorem map_dim_writtenItems (shape : List UInt64) :
    (writtenItems shape).map ShapeItem.dim = shape := by
  cases shape with
  | nil => rfl
  | cons dim rest => simp [writtenItems, Function.comp_def]

/-- A blank after a comma may as well stand before what follows. -/
theorem intercalate_comma_space (first : List Char) (others : List (List Char)) :
    [',', ' '].intercalate (first :: others) =
      [','].intercalate (first :: others.map (' ' :: ·)) := by
  induction others generalizing first with
  | nil => rfl
  | cons next others inductionHypothesis =>
      rw [List.intercalate_cons_cons, inductionHypothesis, List.map_cons,
        List.intercalate_cons_cons]
      simp

theorem toList_shapeStr (shape : List UInt64) :
    (shapeStr shape).toList = itemsText (writtenItems shape) := by
  cases shape with
  | nil => rfl
  | cons dim rest =>
      have separator : ", ".toList = [',', ' '] := by decide
      rw [shapeStr, String.toList_intercalate, separator, List.map_cons, List.map_cons,
        intercalate_comma_space]
      simp [itemsText, writtenItems, ShapeItem.text, Blanks.none, Blanks.space,
        Function.comp_def]

/-- The dictionary, part by part, with its padding and the line feed. -/
theorem toList_npyDict (descr : String) (shape : List UInt64) :
    (npyDict descr shape).toList =
      ['{'] ++ '\'' :: ("descr".toList ++ '\'' :: (": ".toList ++ '\'' :: (descr.toList ++
        '\'' :: (", ".toList ++ '\'' :: ("fortran_order".toList ++ '\'' :: (": False, ".toList ++
          '\'' :: ("shape".toList ++ '\'' :: (": (".toList ++
            (itemsText (writtenItems shape) ++ "), \x7d".toList))))))))) := by
  rw [← toList_shapeStr]
  simp [npyDict]

/-- The length of the header that the writer makes. -/
def npyLen (descr : String) (shape : List UInt64) : Nat :=
  headerLen ((utf8 (npyDict descr shape)).length + 1) 54

/-- The blanks and the line feed after the dictionary. -/
def npyPadding (descr : String) (shape : List UInt64) : List Char :=
  .replicate (npyLen descr shape - ((utf8 (npyDict descr shape)).length + 1)) ' ' ++ ['\n']

/-- The text of the header that the writer makes. -/
def npyHeader (descr : String) (shape : List UInt64) : String :=
  npyDict descr shape ++ .ofList (npyPadding descr shape)

theorem utf8_replicate_space (n : Nat) :
    utf8 (.ofList (.replicate n ' ' ++ ['\n'])) = .replicate n 0x20 ++ [0x0A] := by
  have space : String.utf8EncodeChar ' ' = [0x20] := by decide
  have lineFeed : String.utf8EncodeChar '\n' = [0x0A] := by decide
  unfold utf8
  rw [String.toList_ofList, List.flatMap_append, List.flatMap_singleton, lineFeed]
  congr 1
  induction n with
  | zero => rfl
  | succ n inductionHypothesis =>
      rw [List.replicate_succ, List.flatMap_cons, space, inductionHypothesis]
      rfl

theorem utf8_npyHeader (descr : String) (shape : List UInt64) :
    utf8 (npyHeader descr shape) = utf8 (npyDict descr shape) ++
      (.replicate (npyLen descr shape - ((utf8 (npyDict descr shape)).length + 1)) 0x20 ++
        [0x0A]) := by
  rw [npyHeader, utf8_append, npyPadding, utf8_replicate_space]

theorem length_npyHeader (descr : String) (shape : List UInt64) :
    (utf8 (npyHeader descr shape)).length = npyLen descr shape := by
  have enough := (headerLen_spec ((utf8 (npyDict descr shape)).length + 1) 54).1
  rw [utf8_npyHeader, List.length_append, List.length_append, List.length_replicate,
    List.length_singleton]
  unfold npyLen
  omega

theorem writeNpy_header (descr : String) (shape : List UInt64) (data : List UInt8) :
    writeNpy descr shape data =
      NPY_MAGIC ++ [1, 0] ++ leBytes 2 (UInt16.ofNat (npyLen descr shape)).toNat ++
        utf8 (npyHeader descr shape) ++ data := by
  rw [utf8_npyHeader]
  unfold writeNpy
  dsimp only
  rw [← npyLen]
  simp only [List.append_assoc]

/-- Where its length fits in two bytes, the header is what the file says it is. -/
theorem writeNpy_eq {descr : String} {shape : List UInt64}
    (fits : npyLen descr shape ≤ 65535) (data : List UInt8) :
    writeNpy descr shape data = npyFile (npyHeader descr shape) data := by
  have field : (UInt16.ofNat (npyLen descr shape)).toNat = npyLen descr shape :=
    UInt16.toNat_ofNat_of_lt' (Nat.lt_succ_of_le fits)
  rw [writeNpy_header, npyFile, length_npyHeader, field]

/-- What the reader searches for starts with the quoted name of the key. -/
theorem shapeKey_eq : shapeKey = '\'' :: ("shape".toList ++ '\'' :: ": (".toList) := by decide

/-- The header, part by part. -/
theorem toList_npyHeader (descr : String) (shape : List UInt64) :
    (npyHeader descr shape).toList =
      ['{'] ++ '\'' :: ("descr".toList ++ '\'' :: (": ".toList ++ '\'' :: (descr.toList ++
        '\'' :: (", ".toList ++ '\'' :: ("fortran_order".toList ++ '\'' :: (": False, ".toList ++
          '\'' :: ("shape".toList ++ '\'' :: (": (".toList ++
            (itemsText (writtenItems shape) ++ ')' ::
              (", \x7d".toList ++ npyPadding descr shape)))))))))) := by
  rw [npyHeader, String.toList_append, toList_npyDict, String.toList_ofList]
  simp

/-- The reader finds the parts of what the writer wrote. -/
theorem readDict_npyHeader {descr : String} (plain : '\'' ∉ descr.toList) (shape : List UInt64) :
    readDict (npyHeader descr shape).toList = some (descr, shape) := by
  have quoted : ((npyHeader descr shape).toList.splitOn '\'')[3]? = some descr.toList := by
    rw [toList_npyHeader, List.splitOn_append_cons_self_of_not_mem (by decide),
      List.splitOn_append_cons_self_of_not_mem (by decide),
      List.splitOn_append_cons_self_of_not_mem (by decide),
      List.splitOn_append_cons_self_of_not_mem plain]
    rfl
  have found : after shapeKey (npyHeader descr shape).toList =
      some (itemsText (writtenItems shape) ++ ')' :: (", \x7d".toList ++ npyPadding descr shape)) := by
    rw [toList_npyHeader, shapeKey_eq, after_append_of_not_mem (by decide),
      after_quoted (by decide) (by decide) (by simp) (by simp),
      after_append_of_not_mem (by decide),
      after_quoted (by decide) plain (by simp) (by simp),
      after_append_of_not_mem (by decide),
      after_quoted (by decide) (by decide) (by simp) (by simp),
      after_append_of_not_mem (by decide), after_quoted_key]
  have inside : ')' ∉ itemsText (writtenItems shape) :=
    not_mem_itemsText (by decide) (by decide) (by decide) _
  rw [readDict_of_parts quoted found inside, parseShape_itemsText, map_dim_writtenItems]
  simp

/-- What is written is read back, and the data starts at a multiple of 64. -/
theorem readNpy_writeNpy {descr : String} (plain : '\'' ∉ descr.toList ∧ ')' ∉ descr.toList)
    (shape : List UInt64) (data : List UInt8) (fits : npyLen descr shape ≤ 65535) :
    readNpy (writeNpy descr shape data) = .ok { descr, shape, data } ∧
      ∃ header, writeNpy descr shape data = header ++ data ∧
        header.length = 10 + npyLen descr shape ∧ 64 ∣ header.length := by
  have sized : (utf8 (npyHeader descr shape)).length < 2 ^ 16 := by
    rw [length_npyHeader]
    omega
  have aligned := (headerLen_spec ((utf8 (npyDict descr shape)).length + 1) 54).2
  have magic : NPY_MAGIC.length = 6 := by decide
  have length : (NPY_MAGIC ++ [1, 0] ++ leBytes 2 (utf8 (npyHeader descr shape)).length ++
      utf8 (npyHeader descr shape)).length = 10 + npyLen descr shape := by
    simp only [List.length_append, length_npyHeader, length_leBytes, magic, List.length_cons,
      List.length_nil]
  rw [writeNpy_eq fits]
  refine ⟨?_, _, rfl, length, ?_⟩
  · rw [readNpy_npyFile sized, readDict_npyHeader plain.1]
  · rw [length]
    unfold npyLen
    omega

theorem npyLen_le (descr : String) (shape : List UInt64) :
    npyLen descr shape ≤ max 54 ((utf8 (npyDict descr shape)).length + 64) := by
  have short := headerLen_le ((utf8 (npyDict descr shape)).length + 1) 54
  unfold npyLen
  omega

/-- A matrix of two rows. -/
theorem readNpy_writeNpy_matrix :
    readNpy (writeNpy "<u1" [2, 3] [1, 2, 3, 4, 5, 6]) =
      .ok { descr := "<u1", shape := [2, 3], data := [1, 2, 3, 4, 5, 6] } := by
  have short := npyLen_le "<u1" [2, 3]
  have dict : (utf8 (npyDict "<u1" [2, 3])).length = 59 := by decide +kernel
  exact (readNpy_writeNpy (by decide) [2, 3] [1, 2, 3, 4, 5, 6] (by omega)).1

end RoundTrip

end Teleop.Analytics
