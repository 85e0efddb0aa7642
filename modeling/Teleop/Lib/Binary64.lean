import Mathlib.Algebra.Order.Field.Rat
import Mathlib.Algebra.Ring.Nat
import Mathlib.Data.Int.Log
import Mathlib.Data.Rat.Floor
import Mathlib.Tactic.Linarith
import Mathlib.Tactic.NormNum
import Mathlib.Tactic.Ring
import Teleop.Lib.FloatOps

/-!
# Binary64

Rationals rounded to a significand of 53 bits, half way cases to the even one, with the
exponents of the format.  The sign of a zero is not kept.
-/

namespace Teleop.Lib

/-- The nearest integer, the even one from half way. -/
def roundEven (q : ℚ) : ℤ :=
  if q - ⌊q⌋ < 1 / 2 then ⌊q⌋
  else if 1 / 2 < q - ⌊q⌋ then ⌊q⌋ + 1
  else if ⌊q⌋ % 2 = 0 then ⌊q⌋
  else ⌊q⌋ + 1

theorem roundEven_eq (q : ℚ) :
    roundEven q = ⌊q⌋ ∨ (roundEven q = ⌊q⌋ + 1 ∧ (⌊q⌋ : ℚ) < q) := by
  unfold roundEven
  split_ifs with below above
  · exact .inl rfl
  · exact .inr ⟨rfl, by linarith⟩
  · exact .inl rfl
  · exact .inr ⟨rfl, by linarith⟩

@[simp] theorem roundEven_intCast (n : ℤ) : roundEven n = n := by
  simp [roundEven]

/-- Rounding does not pass an integer. -/
theorem roundEven_le {q : ℚ} {n : ℤ} (bound : q ≤ n) : roundEven q ≤ n := by
  have floor : ⌊q⌋ ≤ n := Int.cast_le.mp ((Int.floor_le q).trans bound)
  rcases roundEven_eq q with same | ⟨up, proper⟩
  · rw [same]
    exact floor
  · have below : (⌊q⌋ : ℚ) < n := proper.trans_le bound
    rw [up]
    exact Int.cast_lt.mp below

theorem le_roundEven {q : ℚ} {n : ℤ} (bound : n ≤ q) : n ≤ roundEven q := by
  have floor : n ≤ ⌊q⌋ := Int.le_floor.mpr bound
  rcases roundEven_eq q with same | ⟨up, -⟩
  · rw [same]
    exact floor
  · rw [up]
    exact floor.trans (le_add_of_nonneg_right zero_le_one)

theorem abs_roundEven_le {q : ℚ} {n : ℤ} (bound : |q| ≤ n) : |roundEven q| ≤ n := by
  obtain ⟨low, high⟩ := abs_le.mp bound
  exact abs_le.mpr ⟨le_roundEven (by simpa using low), roundEven_le high⟩

namespace Binary64

/-- A significand of 53 bits at an exponent of the format. -/
def Representable (q : ℚ) : Prop :=
  ∃ m k : ℤ, |m| < 2 ^ 53 ∧ -1074 ≤ k ∧ q = m * 2 ^ k

/-- The exponent of the last bit of the significand. -/
def lastBit (q : ℚ) : ℤ := max (Int.log 2 |q| - 52) (-1074)

/-- Rounds to a significand of 53 bits, whatever the exponent. -/
def nearest (q : ℚ) : ℚ := roundEven (q / 2 ^ lastBit q) * 2 ^ lastBit q

theorem two_zpow_pos (k : ℤ) : (0 : ℚ) < 2 ^ k := zpow_pos two_pos k

/-- Before rounding the significand is below `2 ^ 53`. -/
theorem abs_significand_lt (q : ℚ) : |q / 2 ^ lastBit q| < 2 ^ 53 := by
  rw [abs_div, abs_of_pos (two_zpow_pos _), div_lt_iff₀ (two_zpow_pos _)]
  have bound := Int.lt_zpow_succ_log_self (b := 2) Nat.one_lt_two |q|
  have exponent : Int.log 2 |q| + 1 ≤ 53 + lastBit q := by
    have := le_max_left (Int.log 2 |q| - 52) (-1074)
    unfold lastBit
    linarith
  calc |q|
    _ < 2 ^ (Int.log 2 |q| + 1) := by exact_mod_cast bound
    _ ≤ 2 ^ (53 + lastBit q) := zpow_le_zpow_right₀ one_le_two exponent
    _ = 2 ^ 53 * 2 ^ lastBit q := by
      rw [zpow_add₀ two_ne_zero]
      norm_cast

theorem representable_nearest (q : ℚ) : Representable (nearest q) := by
  have exponent : -1074 ≤ lastBit q := le_max_right _ _
  have bound : |roundEven (q / 2 ^ lastBit q)| ≤ 2 ^ 53 :=
    abs_roundEven_le (by exact_mod_cast (abs_significand_lt q).le)
  rcases bound.lt_or_eq with proper | carried
  · exact ⟨_, _, proper, exponent, rfl⟩
  · -- A carry out of the significand moves the last bit up by one.
    have half : ∃ m : ℤ, |m| < 2 ^ 53 ∧ roundEven (q / 2 ^ lastBit q) = m * 2 := by
      rcases abs_eq (by norm_num) |>.mp carried with positive | negative
      · exact ⟨2 ^ 52, by norm_num, by rw [positive]; norm_num⟩
      · exact ⟨-2 ^ 52, by norm_num, by rw [negative]; norm_num⟩
    obtain ⟨m, small, doubled⟩ := half
    refine ⟨m, lastBit q + 1, small, by linarith, ?_⟩
    rw [nearest, doubled, zpow_add₀ two_ne_zero]
    push_cast
    ring

theorem nearest_of_representable {q : ℚ} (representable : Representable q) : nearest q = q := by
  obtain ⟨m, k, small, exponent, rfl⟩ := representable
  by_cases zero : m = 0
  · simp [nearest, zero, roundEven]
  -- The last bit lies at or below the exponent `k`, so the significand is an integer.
  have positive : (0 : ℚ) < |(m * 2 ^ k : ℚ)| := by
    rw [abs_mul, abs_of_pos (two_zpow_pos k)]
    exact mul_pos (abs_pos.mpr (Int.cast_ne_zero.mpr zero)) (two_zpow_pos k)
  have magnitude : |(m * 2 ^ k : ℚ)| < 2 ^ (53 + k) := by
    rw [abs_mul, abs_of_pos (two_zpow_pos k), zpow_add₀ two_ne_zero]
    exact mul_lt_mul_of_pos_right (by exact_mod_cast small) (two_zpow_pos k)
  have log : Int.log 2 |(m * 2 ^ k : ℚ)| < 53 + k :=
    (Int.lt_zpow_iff_log_lt Nat.one_lt_two positive).mp (by exact_mod_cast magnitude)
  have le : lastBit (m * 2 ^ k : ℚ) ≤ k := max_le (by linarith) exponent
  obtain ⟨shift, split⟩ := Int.eq_ofNat_of_zero_le (sub_nonneg.mpr le)
  have integral : (m * 2 ^ k : ℚ) / 2 ^ lastBit (m * 2 ^ k : ℚ) = ((m * 2 ^ shift : ℤ) : ℚ) := by
    rw [mul_div_assoc, ← zpow_sub₀ two_ne_zero, split]
    push_cast
    norm_cast
  rw [nearest, integral, roundEven_intCast, ← integral]
  exact div_mul_cancel₀ _ (two_zpow_pos _).ne'

theorem nearest_eq_iff {q : ℚ} : nearest q = q ↔ Representable q :=
  ⟨fun same => same ▸ representable_nearest q, nearest_of_representable⟩

end Binary64

/-- A value of the format. -/
inductive Binary64 where
  | finite (value : ℚ) (representable : Binary64.Representable value)
      (bounded : |value| < 2 ^ 1024)
  | infinite (negative : Bool)
  | nan
  deriving DecidableEq

namespace Binary64

/-- Rounds to the format; beyond its largest value lie the infinities. -/
def round (q : ℚ) : Binary64 :=
  if bounded : |nearest q| < 2 ^ 1024 then
    .finite (nearest q) (representable_nearest q) bounded
  else .infinite (q < 0)

theorem round_of_representable {q : ℚ} (representable : Representable q)
    (bounded : |q| < 2 ^ 1024) : round q = .finite q representable bounded := by
  have same := nearest_of_representable representable
  simp [round, same, bounded]

def lt : Binary64 → Binary64 → Bool
  | finite x _ _, finite y _ _ => x < y
  | finite _ _ _, infinite negative => !negative
  | infinite negative, finite _ _ _ => negative
  | infinite true, infinite false => true
  | _, _ => false

def eq : Binary64 → Binary64 → Bool
  | finite x _ _, finite y _ _ => x = y
  | infinite negative, infinite other => negative = other
  | _, _ => false

def add : Binary64 → Binary64 → Binary64
  | finite x _ _, finite y _ _ => round (x + y)
  | infinite negative, finite _ _ _ | finite _ _ _, infinite negative => infinite negative
  | infinite negative, infinite other => if negative = other then infinite negative else nan
  | _, _ => nan

def neg : Binary64 → Binary64
  | finite x _ _ => round (-x)
  | infinite negative => infinite !negative
  | nan => nan

def mul : Binary64 → Binary64 → Binary64
  | finite x _ _, finite y _ _ => round (x * y)
  | infinite negative, finite x _ _ | finite x _ _, infinite negative =>
      if x = 0 then nan else infinite (negative ^^ (x < 0))
  | infinite negative, infinite other => infinite (negative ^^ other)
  | _, _ => nan

def div : Binary64 → Binary64 → Binary64
  | finite x _ _, finite y _ _ =>
      if y ≠ 0 then round (x / y) else if x = 0 then nan else infinite (x < 0)
  | finite _ _ _, infinite _ => round 0
  | infinite negative, finite y _ _ => infinite (negative ^^ (y < 0))
  | _, _ => nan

instance : FloatOps Binary64 where
  zero := round 0
  add := add
  sub x y := add x (neg y)
  mul := mul
  div := div
  neg := neg
  ofRat := round
  lt := lt
  le x y := lt x y || eq x y
  eq := eq

/-- The integers below `2 ^ 53` are exact. -/
theorem representable_intCast {n : ℤ} (small : |n| < 2 ^ 53) : Representable n :=
  ⟨n, 0, small, by norm_num, by simp⟩

section Integers

theorem two_zpow_of_nonneg {k : ℤ} (nonneg : 0 ≤ k) : (2 : ℚ) ^ k = ((2 ^ k.toNat : ℤ) : ℚ) := by
  obtain ⟨n, rfl⟩ := Int.eq_ofNat_of_zero_le nonneg
  simp

/-- A power of two bounds what is rounded if it bounds the value. -/
theorem nearest_le_two_zpow {q : ℚ} {k : ℤ} (nonneg : 0 ≤ q) (exponent : -1074 ≤ k)
    (bound : q ≤ 2 ^ k) : nearest q ≤ 2 ^ k := by
  rcases nonneg.eq_or_lt with rfl | positive
  · have zero : nearest 0 = 0 := by simp [nearest, roundEven]
    rw [zero]
    exact (two_zpow_pos k).le
  have log : Int.log 2 |q| ≤ k := by
    rw [abs_of_pos positive]
    have mono := Int.log_mono_right (b := 2) positive bound
    have power := Int.log_zpow (R := ℚ) Nat.one_lt_two k
    push_cast at power
    exact mono.trans_eq power
  have le : lastBit q ≤ k := max_le (by linarith) exponent
  have power : (2 : ℚ) ^ (k - lastBit q) = ((2 ^ (k - lastBit q).toNat : ℤ) : ℚ) :=
    two_zpow_of_nonneg (sub_nonneg.mpr le)
  have significand : q / 2 ^ lastBit q ≤ ((2 ^ (k - lastBit q).toNat : ℤ) : ℚ) := by
    rw [← power, zpow_sub₀ two_ne_zero]
    exact div_le_div_of_nonneg_right bound (two_zpow_pos _).le
  have rounded : (roundEven (q / 2 ^ lastBit q) : ℚ) ≤ 2 ^ (k - lastBit q) := by
    rw [power]
    exact_mod_cast roundEven_le significand
  calc nearest q
    _ ≤ 2 ^ (k - lastBit q) * 2 ^ lastBit q :=
      mul_le_mul_of_nonneg_right rounded (two_zpow_pos _).le
    _ = 2 ^ k := by rw [← zpow_add₀ two_ne_zero, sub_add_cancel]

/-- A natural number is rounded to a natural number. -/
theorem nearest_natCast (n : Nat) : ∃ m : Nat, nearest n = m := by
  by_cases small : n < 2 ^ 53
  · have exact : Representable ((n : ℤ) : ℚ) := representable_intCast (by simpa using small)
    exact ⟨n, nearest_of_representable (by simpa using exact)⟩
  · have log : 53 ≤ Int.log 2 |(n : ℚ)| := by
      have large : 2 ^ 53 ≤ n := Nat.not_lt.mp small
      have digits : 53 ≤ Nat.log 2 n := (Nat.le_log_iff_pow_le Nat.one_lt_two (by omega)).mpr large
      rw [abs_of_nonneg n.cast_nonneg, Int.log_natCast]
      exact_mod_cast digits
    have nonneg : 0 ≤ lastBit n := le_max_of_le_left (by linarith)
    have significand : 0 ≤ roundEven (n / 2 ^ lastBit n) := by
      apply le_roundEven
      rw [Int.cast_zero]
      exact div_nonneg n.cast_nonneg (two_zpow_pos _).le
    refine ⟨(roundEven (n / 2 ^ lastBit n)).toNat * 2 ^ (lastBit n).toNat, ?_⟩
    have whole : ((roundEven ((n : ℚ) / 2 ^ lastBit n)).toNat : ℚ) =
        roundEven (n / 2 ^ lastBit n) := by
      exact_mod_cast Int.toNat_of_nonneg significand
    rw [nearest]
    push_cast
    rw [whole]
    congr 1
    exact_mod_cast two_zpow_of_nonneg nonneg

/-- An id of 64 bits is rounded to at most `2 ^ 64`. -/
theorem round_natCast {n : Nat} (small : n < 2 ^ 64) :
    ∃ m : Nat, nearest n = m ∧ m ≤ 2 ^ 64 ∧ ∃ representable bounded,
      round n = .finite m representable bounded := by
  obtain ⟨m, same⟩ := nearest_natCast n
  have bound : m ≤ 2 ^ 64 := by
    have le := nearest_le_two_zpow (k := 64) n.cast_nonneg (by decide)
      (by exact_mod_cast small.le)
    rw [same] at le
    exact_mod_cast le
  have representable : Representable (m : ℚ) := same ▸ representable_nearest n
  have bounded : |(m : ℚ)| < 2 ^ 1024 := by
    rw [abs_of_nonneg m.cast_nonneg]
    calc (m : ℚ)
      _ ≤ 2 ^ 64 := by exact_mod_cast bound
      _ < 2 ^ 1024 := pow_lt_pow_right₀ one_lt_two (by decide)
  have fits : |nearest n| < 2 ^ 1024 := by rwa [same]
  refine ⟨m, same, bound, representable, bounded, ?_⟩
  rw [round, dif_pos fits]
  simp only [same]

end Integers

end Binary64

end Teleop.Lib
