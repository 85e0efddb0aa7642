import Mathlib.Algebra.Ring.Nat
import Mathlib.Data.UInt

/-!
# Checked and saturating 64-bit arithmetic

The operators of a language whose arithmetic is trapped on overflow, the saturating
product, and what is lost when a sum is truncated part by part.
-/

namespace Teleop.Lib

/-- `a + b`; `none` on overflow. -/
def checkedAdd (a b : UInt64) : Option UInt64 :=
  if a.toNat + b.toNat < 2 ^ 64 then some (a + b) else none

/-- `a - b`; `none` on underflow. -/
def checkedSub (a b : UInt64) : Option UInt64 := if b ≤ a then some (a - b) else none

/-- `a * b`; `none` on overflow. -/
def checkedMul (a b : UInt64) : Option UInt64 :=
  if a.toNat * b.toNat < 2 ^ 64 then some (a * b) else none

/-- `a - b` in `i32`; `none` on overflow. -/
def checkedSubI32 (a b : Int32) : Option Int32 :=
  if -2 ^ 31 ≤ a.toInt - b.toInt ∧ a.toInt - b.toInt < 2 ^ 31 then some (a - b) else none

/-- `u64::saturating_mul`. -/
def saturatingMul (a b : UInt64) : UInt64 :=
  if a.toNat * b.toNat < 2 ^ 64 then a * b else .ofNat (2 ^ 64 - 1)

/-- `u64::saturating_add`. -/
def saturatingAdd (a b : UInt64) : UInt64 :=
  if a.toNat + b.toNat < 2 ^ 64 then a + b else .ofNat (2 ^ 64 - 1)

theorem checkedAdd_eq_some_iff {a b sum : UInt64} :
    checkedAdd a b = some sum ↔ a.toNat + b.toNat < 2 ^ 64 ∧ sum = a + b := by
  simp [checkedAdd, eq_comm]

theorem checkedMul_eq_some_iff {a b product : UInt64} :
    checkedMul a b = some product ↔ a.toNat * b.toNat < 2 ^ 64 ∧ product = a * b := by
  simp [checkedMul, eq_comm]

theorem checkedAdd_of_lt {a b : UInt64} (fits : a.toNat + b.toNat < 2 ^ 64) :
    checkedAdd a b = some (a + b) ∧ (a + b).toNat = a.toNat + b.toNat := by
  refine ⟨if_pos fits, ?_⟩
  rw [UInt64.toNat_add, Nat.mod_eq_of_lt fits]

theorem checkedSub_of_le {a b : UInt64} (le : b.toNat ≤ a.toNat) :
    checkedSub a b = some (a - b) ∧ (a - b).toNat = a.toNat - b.toNat := by
  have ordered : b ≤ a := UInt64.le_iff_toNat_le.mpr le
  exact ⟨if_pos ordered, UInt64.toNat_sub_of_le _ _ ordered⟩

theorem checkedMul_of_lt {a b : UInt64} (fits : a.toNat * b.toNat < 2 ^ 64) :
    checkedMul a b = some (a * b) ∧ (a * b).toNat = a.toNat * b.toNat := by
  refine ⟨if_pos fits, ?_⟩
  rw [UInt64.toNat_mul, Nat.mod_eq_of_lt fits]

/-- A difference that fits is the true one. -/
theorem checkedSubI32_eq_some_iff {a b difference : Int32} :
    checkedSubI32 a b = some difference ↔ difference.toInt = a.toInt - b.toInt := by
  have wrapped : (a - b).toInt = (a.toInt - b.toInt).bmod (2 ^ 32) := Int32.toInt_sub a b
  have low := difference.le_toInt
  have high := difference.toInt_lt
  unfold checkedSubI32
  constructor
  · intro subtracted
    split at subtracted
    · rename_i fits
      obtain rfl := Option.some.inj subtracted
      rw [wrapped]
      exact Int.bmod_eq_of_le (by omega) (by omega)
    · cases subtracted
  · intro value
    rw [if_pos (by omega)]
    congr 1
    apply Int32.toInt.inj
    rw [wrapped, ← value]
    exact Int.bmod_eq_of_le (by omega) (by omega)

@[simp] theorem toNat_saturatingMul (a b : UInt64) :
    (saturatingMul a b).toNat = min (a.toNat * b.toNat) (2 ^ 64 - 1) := by
  unfold saturatingMul
  split
  · rename_i fits
    rw [UInt64.toNat_mul, Nat.mod_eq_of_lt fits]
    omega
  · rename_i large
    have greatest : (UInt64.ofNat (2 ^ 64 - 1)).toNat = 2 ^ 64 - 1 := by decide
    rw [greatest]
    omega

theorem toNat_saturatingAdd (a b : UInt64) :
    (saturatingAdd a b).toNat = min (a.toNat + b.toNat) (2 ^ 64 - 1) := by
  unfold saturatingAdd
  split
  · rename_i fits
    rw [UInt64.toNat_add, Nat.mod_eq_of_lt fits]
    omega
  · rename_i large
    have greatest : (UInt64.ofNat (2 ^ 64 - 1)).toNat = 2 ^ 64 - 1 := by decide
    rw [greatest]
    omega

/-- A sum from the quotients and the remainders of its parts. -/
theorem sum_eq_quotients_add_remainders (d : Nat) (parts : List Nat) :
    parts.sum = d * (parts.map (· / d)).sum + (parts.map (· % d)).sum := by
  induction parts with
  | nil => rfl
  | cons part rest inductionHypothesis =>
      have division := Nat.div_add_mod part d
      simp only [List.map_cons, List.sum_cons]
      rw [Nat.mul_add]
      omega

/-- Truncating part by part loses nothing exactly when the remainders make up no whole. -/
theorem sum_quotients_eq_iff {d : Nat} (positive : 0 < d) (parts : List Nat) :
    (parts.map (· / d)).sum = parts.sum / d ↔ (parts.map (· % d)).sum < d := by
  have whole : parts.sum / d = (parts.map (· / d)).sum + (parts.map (· % d)).sum / d := by
    rw [sum_eq_quotients_add_remainders d parts, Nat.mul_add_div positive]
  rw [whole, ← Nat.div_eq_zero_iff_lt positive]
  omega

end Teleop.Lib
