import Mathlib.Data.List.TakeWhile
import Teleop.Cloud.JsonDouble

/-!
# Decimal integers in the codec

The text of an integer is delimited as one number and read exactly; the doubles that are
integers below `10 ^ 15` are written as such a text, and larger ones as one that is read
back to the same double.
-/

namespace Teleop.Cloud

open Teleop.Lib

namespace JsonParser

/-- Nothing here continues a number. -/
def Ends (rest : List UInt8) : Prop :=
  ∀ c ∈ rest.head?, isDigit c = false ∧ c ≠ byte '.' ∧ c ≠ byte 'e' ∧ c ≠ byte 'E'

section Digits

variable {digits : List UInt8}

theorem takeWhile_digits (all : ∀ b ∈ digits, isDigit b = true) :
    digits.takeWhile isDigit = digits := by
  exact List.takeWhile_eq_self_iff.mpr all

theorem dropWhile_digits (all : ∀ b ∈ digits, isDigit b = true) :
    digits.dropWhile isDigit = [] := by
  exact List.dropWhile_eq_nil_iff.mpr all

/-- A digit is not a sign. -/
theorem skipOne_digits (all : ∀ b ∈ digits, isDigit b = true) (nonempty : digits ≠ [])
    (rest : List UInt8) : skipOne (· = byte '-') (digits ++ rest) = digits ++ rest := by
  obtain ⟨first, others, rfl⟩ := List.exists_cons_of_ne_nil nonempty
  have unsigned : first ≠ byte '-' := by
    rintro rfl
    exact absurd (all _ List.mem_cons_self) (by decide)
  simp [skipOne, unsigned]

theorem skipNumber_unsigned (all : ∀ b ∈ digits, isDigit b = true) {rest : List UInt8}
    (ends : Ends rest) : skipExponent (skipFraction (skipDigits (digits ++ rest))) = rest := by
  rw [skipDigits, List.dropWhile_append_of_pos all]
  cases rest with
  | nil => rfl
  | cons c rest =>
      obtain ⟨noDigit, noPoint, noLower, noUpper⟩ := ends c rfl
      simp [skipFraction, skipExponent, noDigit, noPoint, noLower, noUpper]

theorem skipNumber_digits (all : ∀ b ∈ digits, isDigit b = true) (nonempty : digits ≠ [])
    {rest : List UInt8} (ends : Ends rest) : skipNumber (digits ++ rest) = rest := by
  rw [skipNumber, skipOne_digits all nonempty, skipNumber_unsigned all ends]

theorem skipNumber_neg (all : ∀ b ∈ digits, isDigit b = true) {rest : List UInt8}
    (ends : Ends rest) : skipNumber (byte '-' :: (digits ++ rest)) = rest := by
  have signed : skipOne (· = byte '-') (byte '-' :: (digits ++ rest)) = digits ++ rest := by
    simp [skipOne]
  rw [skipNumber, signed, skipNumber_unsigned all ends]

theorem exactNumber_digits (all : ∀ b ∈ digits, isDigit b = true) (nonempty : digits ≠ []) :
    exactNumber digits = some (decimal digits : ℚ) := by
  have unsigned := skipOne_digits all nonempty []
  rw [List.append_nil] at unsigned
  have positive : digits.head? ≠ some (byte '-') := by
    intro signed
    exact absurd (all _ (List.mem_of_head? signed)) (by decide)
  simp [exactNumber, unsigned, takeWhile_digits all, dropWhile_digits all, nonempty, positive,
    skipFraction]

theorem exactNumber_neg (all : ∀ b ∈ digits, isDigit b = true) (nonempty : digits ≠ []) :
    exactNumber (byte '-' :: digits) = some (-(decimal digits : ℚ)) := by
  simp [exactNumber, skipOne, takeWhile_digits all, dropWhile_digits all, nonempty, skipFraction]

end Digits

/-- The digits of a number as bytes. -/
def digitBytes (n : Nat) : List UInt8 := (Nat.toDigits 10 n).map byte

theorem toNat_of_mem_toDigits {n : Nat} {c : Char} (among : c ∈ Nat.toDigits 10 n) :
    0x30 ≤ c.toNat ∧ c.toNat ≤ 0x39 := by
  have digit := Nat.isDigit_of_mem_toDigits (by decide) (by decide) among
  simp only [Char.isDigit, Bool.and_eq_true, decide_eq_true_eq] at digit
  exact digit

theorem plain_of_digit : ∀ k ≤ 0x39, 0x30 ≤ k →
    Plain (.ofNat k) ∧ isDigit (byte (.ofNat k)) = true := by
  decide

theorem plain_of_mem_toDigits {n : Nat} {c : Char} (among : c ∈ Nat.toDigits 10 n) :
    Plain c ∧ isDigit (byte c) = true := by
  obtain ⟨low, high⟩ := toNat_of_mem_toDigits among
  simpa [Char.ofNat_toNat] using plain_of_digit c.toNat high low

theorem isDigit_digitBytes (n : Nat) : ∀ b ∈ digitBytes n, isDigit b = true := by
  intro b among
  obtain ⟨c, digit, rfl⟩ := List.mem_map.mp among
  exact (plain_of_mem_toDigits digit).2

theorem digitBytes_ne_nil (n : Nat) : digitBytes n ≠ [] := by
  simp [digitBytes, Nat.toDigits_ne_nil]

/-- The bytes of digits have the value of their characters. -/
theorem foldl_digits {digits : List Char} (all : ∀ c ∈ digits, c.toNat ≤ 0x39) (value : Nat) :
    (digits.map byte).foldl (fun value b => value * 10 + (b.toNat - 0x30)) value =
      Nat.ofDigitChars 10 digits value := by
  induction digits generalizing value with
  | nil => simp
  | cons c rest inductionHypothesis =>
      have small : c.toNat < 256 := (all c List.mem_cons_self).trans_lt (by decide)
      have same : (byte c).toNat = c.toNat := by
        rw [byte, UInt8.toNat_ofNat']
        exact Nat.mod_eq_of_lt small
      rw [List.map_cons, List.foldl_cons, same, Nat.ofDigitChars_cons,
        inductionHypothesis fun c among => all c (List.mem_cons_of_mem _ among), Nat.mul_comm]
      rfl

theorem decimal_digitBytes (n : Nat) : decimal (digitBytes n) = n := by
  have all : ∀ c ∈ Nat.toDigits 10 n, c.toNat ≤ 0x39 := fun c among =>
    (toNat_of_mem_toDigits among).2
  rw [decimal, digitBytes, foldl_digits all, Nat.ofDigitChars_ten_toDigits]

theorem utf8_repr (n : Nat) : utf8 n.repr = digitBytes n := by
  rw [utf8_plain, Nat.toList_repr, digitBytes]
  intro c among
  rw [Nat.toList_repr] at among
  exact (plain_of_mem_toDigits among).1

theorem utf8_intRepr (n : ℤ) : utf8 (toString n) =
    if n < 0 then byte '-' :: digitBytes n.natAbs else digitBytes n.natAbs := by
  cases n with
  | ofNat n => exact utf8_repr n
  | negSucc n =>
      have text : toString (Int.negSucc n) = "-" ++ (n + 1).repr := rfl
      rw [if_pos (Int.negSucc_lt_zero n), text]
      simp only [utf8, String.toList_append, List.flatMap_append]
      exact congrArg (byte '-' :: ·) (utf8_repr (n + 1))

/-- The text of an integer has its value. -/
theorem exactNumber_intRepr (n : ℤ) : exactNumber (utf8 (toString n)) = some (n : ℚ) := by
  have value := decimal_digitBytes n.natAbs
  have all := isDigit_digitBytes n.natAbs
  have nonempty := digitBytes_ne_nil n.natAbs
  rw [utf8_intRepr]
  split
  case isTrue negative =>
      rw [exactNumber_neg all nonempty, value]
      have cast : (n : ℚ) = -((n.natAbs : ℤ) : ℚ) := by
        rw [Int.ofNat_natAbs_of_nonpos negative.le]
        simp
      rw [cast]
      simp
  case isFalse nonneg =>
      rw [exactNumber_digits all nonempty, value]
      have cast : ((n.natAbs : ℤ) : ℚ) = n := by rw [Int.natAbs_of_nonneg (not_lt.mp nonneg)]
      rw [← cast]
      simp

/-- The text of an integer is delimited as one number. -/
theorem skipNumber_intRepr (n : ℤ) {rest : List UInt8} (ends : Ends rest) :
    skipNumber (utf8 (toString n) ++ rest) = rest := by
  rw [utf8_intRepr]
  split
  · exact skipNumber_neg (isDigit_digitBytes _) ends
  · exact skipNumber_digits (isDigit_digitBytes _) (digitBytes_ne_nil _) ends

theorem parseNumber_intRepr (n : ℤ) {rest : List UInt8} (ends : Ends rest) :
    parseNumber (utf8 (toString n) ++ rest) = .ok (Binary64.round n, rest) := by
  have exact : JsonNumber.parse (utf8 (toString n)) = some (Binary64.round n) := by
    show (exactNumber _).map Binary64.round = _
    rw [exactNumber_intRepr, Option.map_some]
  have text : (utf8 (toString n) ++ rest).take
      ((utf8 (toString n) ++ rest).length - rest.length) = utf8 (toString n) := by
    rw [List.length_append, Nat.add_sub_cancel, List.take_left]
  unfold parseNumber
  simp only [skipNumber_intRepr n ends, text, exact]

end JsonParser

section Integers

variable {n : ℤ}

/-- An integer of at most 53 bits is a double. -/
theorem round_intCast (small : |n| < 2 ^ 53) :
    ∃ representable bounded, Binary64.round n = .finite n representable bounded := by
  have representable : Binary64.Representable n := Binary64.representable_intCast small
  have bounded : |(n : ℚ)| < 2 ^ 1024 := by
    calc |(n : ℚ)|
      _ < 2 ^ 53 := by exact_mod_cast small
      _ ≤ 2 ^ 1024 := pow_le_pow_right₀ (by norm_num) (by decide)
  exact ⟨representable, bounded, Binary64.round_of_representable representable bounded⟩

theorem truncate_intCast (n : ℤ) : truncate n = n := by
  simp [truncate]

theorem lt_round {m : ℤ} (small : |m| < 2 ^ 53) (other : |n| < 2 ^ 53) :
    FloatOps.lt (Binary64.round m) (Binary64.round n) = decide (m < n) := by
  obtain ⟨_, _, first⟩ := round_intCast small
  obtain ⟨_, _, second⟩ := round_intCast other
  rw [first, second]
  show decide ((m : ℚ) < n) = _
  simp

theorem abs_round (small : |n| < 2 ^ 53) :
    FloatOps.abs (Binary64.round n) = Binary64.round ((|n| : ℤ) : ℚ) := by
  have zero : (0 : Binary64) = Binary64.round ((0 : ℤ) : ℚ) := rfl
  unfold FloatOps.abs
  rw [zero, lt_round small (by norm_num)]
  by_cases negative : n < 0
  · obtain ⟨_, _, rounded⟩ := round_intCast small
    rw [rounded, abs_of_neg negative]
    simp only [negative, decide_true, if_true]
    show Binary64.round (-(n : ℚ)) = _
    push_cast
    rfl
  · rw [abs_of_nonneg (not_lt.mp negative)]
    simp [negative]

theorem ofRat_limit :
    (FloatOps.ofRat (10 ^ 15) : Binary64) = Binary64.round ((10 ^ 15 : ℤ) : ℚ) := by
  push_cast
  rfl

/-- An integer of at most fifteen digits is written as it is. -/
theorem writeNumber_round (small : |n| < 10 ^ 15) :
    Json.writeNumber (Binary64.round n) = toString n := by
  have exact : |n| < 2 ^ 53 := small.trans (by norm_num)
  obtain ⟨representable, bounded, rounded⟩ := round_intCast exact
  have whole : JsonNumber.fract (Binary64.round n) = (0 : Binary64) := by
    rw [rounded]
    show Binary64.round (n - (truncate n : ℤ)) = Binary64.round 0
    rw [truncate_intCast, sub_self]
  have finite : JsonNumber.isFinite (Binary64.round n) = true := by
    rw [rounded]
    rfl
  have integer : JsonNumber.toInt64 (Binary64.round n) = Int64.ofInt n := by
    rw [rounded]
    show Int64.ofInt (max (-2 ^ 63) (min (truncate n) (2 ^ 63 - 1))) = Int64.ofInt n
    obtain ⟨low, high⟩ := abs_lt.mp small
    rw [truncate_intCast, min_eq_left (by omega), max_eq_right (by omega)]
  have below :
      FloatOps.lt (FloatOps.abs (Binary64.round n)) (FloatOps.ofRat (10 ^ 15)) = true := by
    rw [abs_round exact, ofRat_limit, lt_round (by rwa [abs_abs]) (by norm_num)]
    simpa using small
  have zero : FloatOps.eq (0 : Binary64) 0 = true := by decide +kernel
  obtain ⟨low, high⟩ := abs_lt.mp small
  rw [Json.writeNumber, finite, whole, zero, below, integer]
  show toString (Int64.ofInt n).toInt = toString n
  rw [Int64.toInt_ofInt_of_le]
  all_goals omega

end Integers

section Naturals

namespace JsonDouble

/-- A candidate reads as the value it is a candidate for. -/
theorem nearest_of_candidate {value unit : ℚ} {digits : Nat}
    (found : candidate value unit = some digits) :
    Binary64.nearest (digits * unit) = value := by
  simp only [candidate] at found
  split at found
  · rename_i reads
    cases found
    simp only [Bool.and_eq_true, decide_eq_true_eq] at reads
    exact reads.1
  split at found
  · rename_i reads
    cases found
    exact_mod_cast of_decide_eq_true reads
  · cases found

/-- A natural number reads as itself. -/
theorem candidate_one {m : Nat} (representable : Binary64.Representable m) :
    candidate m 1 = some m := by
  simp [candidate, Binary64.nearest_of_representable representable]

/-- The search for a natural number ends before the powers are negative. -/
theorem shortest_natCast {m : Nat} (representable : Binary64.Representable m) (steps : Nat)
    (power : ℤ) (nonneg : 0 ≤ power) (enough : power < steps) :
    ∃ (digits power' : Nat), shortest m steps power = (digits, (power' : ℤ)) ∧
      Binary64.nearest ((digits * 10 ^ power' : Nat) : ℚ) = m := by
  induction steps generalizing power with
  | zero => exact absurd enough (not_lt.mpr nonneg)
  | succ steps inductionHypothesis =>
      obtain ⟨n, rfl⟩ := Int.eq_ofNat_of_zero_le nonneg
      cases found : candidate m (10 ^ (n : ℤ)) with
      | some digits =>
          refine ⟨digits, n, by simp only [shortest, found], ?_⟩
          have read := nearest_of_candidate found
          push_cast
          exact_mod_cast read
      | none =>
          have positive : n ≠ 0 := by
            rintro rfl
            rw [Int.ofNat_zero, zpow_zero, candidate_one representable] at found
            cases found
          obtain ⟨digits, power, result, read⟩ :=
            inductionHypothesis (n - 1) (by omega) (by push_cast at enough; omega)
          refine ⟨digits, power, ?_, read⟩
          simp only [shortest, found]
          exact result

end JsonDouble

theorem lt_abs_finite {m : Nat} (representable : Binary64.Representable m)
    (bounded : |(m : ℚ)| < 2 ^ 1024) (large : 10 ^ 15 ≤ m) :
    FloatOps.lt (FloatOps.abs (Binary64.finite m representable bounded))
      (FloatOps.ofRat (10 ^ 15)) = false := by
  obtain ⟨_, _, zero⟩ := round_intCast (show |(0 : ℤ)| < 2 ^ 53 by norm_num)
  obtain ⟨_, _, limit⟩ := round_intCast (show |(10 ^ 15 : ℤ)| < 2 ^ 53 by norm_num)
  have nonneg : FloatOps.lt (Binary64.finite m representable bounded) 0 = false := by
    have origin : (0 : Binary64) = Binary64.round ((0 : ℤ) : ℚ) := rfl
    rw [origin, zero]
    exact decide_eq_false (not_lt.mpr (by simp))
  rw [FloatOps.abs, nonneg, if_neg Bool.false_ne_true, ofRat_limit, limit]
  exact decide_eq_false (not_lt.mpr (by exact_mod_cast large))

/-- The text of a natural number that is a double is that of an integer that rounds to it. -/
theorem writeNumber_natCast {m : Nat} (representable : Binary64.Representable m)
    (bounded : |(m : ℚ)| < 2 ^ 1024) :
    ∃ n : ℤ, Json.writeNumber (Binary64.finite m representable bounded) = toString n ∧
      Binary64.round n = .finite m representable bounded := by
  have rounded := Binary64.round_of_representable representable bounded
  by_cases small : m < 10 ^ 15
  · have digits : |(m : ℤ)| < 10 ^ 15 := by
      rw [abs_of_nonneg (Int.natCast_nonneg m)]
      exact_mod_cast small
    have text := writeNumber_round digits
    rw [Int.cast_natCast, rounded] at text
    exact ⟨m, text, by rw [Int.cast_natCast, rounded]⟩
  · have large : 10 ^ 15 ≤ m := Nat.not_lt.mp small
    have positive : (0 : ℚ) < m := by
      exact_mod_cast (show 0 < 10 ^ 15 by decide).trans_le large
    have power : 0 ≤ Int.log 10 (m : ℚ) + 1 := by
      rw [Int.log_natCast]
      positivity
    obtain ⟨digits, power, found, read⟩ := JsonDouble.shortest_natCast representable
      (Int.log 10 (m : ℚ) + 1 + 1074).toNat (Int.log 10 (m : ℚ) + 1) power (by omega)
    refine ⟨(digits * 10 ^ power : Nat), ?_, ?_⟩
    · have text : JsonDouble.displayPositive m = toString (digits * 10 ^ power) := by
        simp only [JsonDouble.displayPositive, found, JsonDouble.decimalText, Int.natCast_nonneg,
          if_true, Int.toNat_natCast]
      have display : JsonNumber.display (Binary64.finite m representable bounded) =
          toString (digits * 10 ^ power) := by
        show JsonDouble.display _ = _
        rw [JsonDouble.display, if_neg positive.ne', if_neg positive.not_gt, text]
      rw [Json.writeNumber, lt_abs_finite representable bounded large, Bool.and_false,
        if_neg Bool.false_ne_true, display]
      rfl
    · rw [Int.cast_natCast]
      have fits : |Binary64.nearest ((digits * 10 ^ power : Nat) : ℚ)| < 2 ^ 1024 := by rwa [read]
      rw [Binary64.round, dif_pos fits]
      simp only [read]

end Naturals

end Teleop.Cloud
