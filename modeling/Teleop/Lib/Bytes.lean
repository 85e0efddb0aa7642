import Mathlib.Algebra.Ring.Nat
import Mathlib.Data.List.Basic

/-!
# Little-endian byte layouts

Dense records of fixed-width little-endian fields, the raw image of a C structure
without padding, written and read as a list of widths and values.
-/

namespace Teleop.Lib

def leBytes : (width : Nat) → Nat → List UInt8
  | 0, _ => []
  | width + 1, n => UInt8.ofNat n :: leBytes width (n / 256)

def ofLe : List UInt8 → Nat
  | [] => 0
  | byte :: rest => byte.toNat + 256 * ofLe rest

@[simp] theorem length_leBytes (width n : Nat) : (leBytes width n).length = width := by
  induction width generalizing n with
  | zero => rfl
  | succ width inductionHypothesis => rw [leBytes, List.length_cons, inductionHypothesis]

theorem ofLe_leBytes (width n : Nat) : ofLe (leBytes width n) = n % 256 ^ width := by
  induction width generalizing n with
  | zero =>
      rw [Nat.pow_zero, Nat.mod_one]
      rfl
  | succ width inductionHypothesis =>
      rw [leBytes, ofLe, inductionHypothesis, Nat.pow_succ', Nat.mod_mul]
      rfl

/-- The image of a record, given as the width and the value of each field. -/
def encodeFields : List (Nat × Nat) → List UInt8
  | [] => []
  | (width, value) :: rest => leBytes width value ++ encodeFields rest

/-- The values of fields of the given widths, read one after the other. -/
def decodeFields : List Nat → List UInt8 → List Nat
  | [], _ => []
  | width :: rest, bytes => ofLe (bytes.take width) :: decodeFields rest (bytes.drop width)

theorem length_encodeFields (fields : List (Nat × Nat)) :
    (encodeFields fields).length = (fields.map (·.1)).sum := by
  induction fields with
  | nil => rfl
  | cons field rest inductionHypothesis =>
      rw [encodeFields, List.length_append, length_leBytes, inductionHypothesis, List.map_cons,
        List.sum_cons]

/-- Fields are read off the front of some bytes alone. -/
theorem decodeFields_take {widths : List Nat} {n : Nat} (covers : widths.sum ≤ n)
    (bytes : List UInt8) : decodeFields widths (bytes.take n) = decodeFields widths bytes := by
  induction widths generalizing bytes n with
  | nil => rfl
  | cons width rest inductionHypothesis =>
      rw [List.sum_cons] at covers
      have first : width ≤ n := by omega
      rw [decodeFields, decodeFields, List.take_take, Nat.min_eq_left first, List.drop_take]
      rw [inductionHypothesis (by omega)]

/-- Reading back a record, whatever follows it. -/
theorem decodeFields_encodeFields (fields : List (Nat × Nat)) (rest : List UInt8) :
    decodeFields (fields.map (·.1)) (encodeFields fields ++ rest) =
      fields.map fun field => field.2 % 256 ^ field.1 := by
  induction fields with
  | nil => rfl
  | cons field others inductionHypothesis =>
      obtain ⟨width, value⟩ := field
      rw [encodeFields, List.map_cons, decodeFields, List.map_cons, List.append_assoc]
      rw [List.take_left' (length_leBytes width value), List.drop_left' (length_leBytes width value)]
      rw [ofLe_leBytes, inductionHypothesis]

@[simp] theorem ofNat_toNat_mod_one (x : UInt8) : UInt8.ofNat (x.toNat % 256 ^ 1) = x := by
  have bound : x.toNat < 256 ^ 1 := x.toNat_lt
  rw [Nat.mod_eq_of_lt bound]
  exact UInt8.ofNat_toNat

@[simp] theorem ofNat_toNat_mod_two (x : UInt16) : UInt16.ofNat (x.toNat % 256 ^ 2) = x := by
  have bound : x.toNat < 256 ^ 2 := x.toNat_lt
  rw [Nat.mod_eq_of_lt bound]
  exact UInt16.ofNat_toNat

@[simp] theorem ofNat_toNat_mod_four (x : UInt32) : UInt32.ofNat (x.toNat % 256 ^ 4) = x := by
  have bound : x.toNat < 256 ^ 4 := x.toNat_lt
  rw [Nat.mod_eq_of_lt bound]
  exact UInt32.ofNat_toNat

@[simp] theorem ofNat_toNat_mod_eight (x : UInt64) : UInt64.ofNat (x.toNat % 256 ^ 8) = x := by
  have bound : x.toNat < 256 ^ 8 := x.toNat_lt
  rw [Nat.mod_eq_of_lt bound]
  exact UInt64.ofNat_toNat

/-- The bytes of a text that holds no character past U+00FF. -/
def latin1 (text : String) : List UInt8 := text.toList.map fun character => .ofNat character.toNat

/-- The UTF-8 bytes of a text. -/
def utf8 (text : String) : List UInt8 := text.toList.flatMap String.utf8EncodeChar

@[simp] theorem utf8_append (first second : String) :
    utf8 (first ++ second) = utf8 first ++ utf8 second := by
  simp [utf8]

theorem utf8_ne_nil {text : String} (nonempty : text ≠ "") : utf8 text ≠ [] := by
  intro empty
  cases characters : text.toList with
  | nil => exact nonempty (String.toList_eq_nil_iff.mp characters)
  | cons c rest =>
      have size := c.utf8Size_pos
      rw [utf8, characters, List.flatMap_cons, List.append_eq_nil_iff] at empty
      rw [← String.length_utf8EncodeChar, empty.1] at size
      exact absurd size (Nat.lt_irrefl 0)

theorem utf8EncodeChar_ascii {c : Char} (ascii : c.toNat < 0x80) :
    String.utf8EncodeChar c = [UInt8.ofNat c.toNat] := by
  have small : ¬ 0x7F < c.toNat := Nat.not_lt.mpr (Nat.le_of_lt_succ ascii)
  simp [String.utf8EncodeChar, small]

/-- Every byte of a character beyond ASCII has its high bit set. -/
theorem high_of_utf8EncodeChar {c : Char} (wide : 0x80 ≤ c.toNat) :
    ∀ b ∈ String.utf8EncodeChar c, 0x80 ≤ b.toNat := by
  have beyond : ¬ c.val.toNat ≤ 0x7F := Nat.not_le.mpr wide
  intro b among
  unfold String.utf8EncodeChar at among
  simp only [beyond, if_false] at among
  split_ifs at among <;>
    simp only [List.mem_cons, List.not_mem_nil, or_false] at among <;>
    rcases among with rfl | rfl | rfl | rfl <;>
    simp only [UInt8.toNat_ofNat'] <;> omega

/-- An ASCII byte of a text is one of its characters, behind the bytes of those before it. -/
theorem exists_char_of_ascii {text : String} {k : Nat} {b : UInt8} (ascii : b.toNat < 0x80)
    (held : (utf8 text)[k]? = some b) :
    ∃ before c after, text.toList = before ++ c :: after ∧ (utf8 (.ofList before)).length = k ∧
      b = .ofNat c.toNat := by
  unfold utf8 at held ⊢
  generalize text.toList = characters at held ⊢
  induction characters generalizing k with
  | nil => cases held
  | cons c rest inductionHypothesis =>
      rw [List.flatMap_cons, List.getElem?_append] at held
      split at held
      · rename_i inside
        have small : c.toNat < 0x80 := by
          by_contra wide
          have high := high_of_utf8EncodeChar (Nat.not_lt.mp wide) b (List.mem_of_getElem? held)
          omega
        rw [utf8EncodeChar_ascii small] at held inside
        obtain rfl : k = 0 := by simpa using inside
        exact ⟨[], c, rest, rfl, by simp, (Option.some.inj held).symm⟩
      · rename_i beyond
        obtain ⟨before, found, after, rfl, length, same⟩ := inductionHypothesis held
        refine ⟨c :: before, found, after, rfl, ?_, same⟩
        simp only [String.toList_ofList, List.flatMap_cons, List.length_append] at length ⊢
        omega

end Teleop.Lib
