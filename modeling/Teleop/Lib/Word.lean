import Mathlib.Data.Nat.Bitwise
import Mathlib.Data.Nat.Dist

/-!
# Machine words and serial numbers

Saturating arithmetic on 64-bit times, and 32-bit serial numbers: counters that
wrap, read through the unbounded numbers they stand for.
-/

namespace Teleop.Lib

/-- `u64::saturating_sub`. -/
def saturatingSub (a b : UInt64) : UInt64 := if b ≤ a then a - b else 0

/-- `u64::abs_diff`. -/
def absDiff (a b : UInt64) : UInt64 := if b ≤ a then a - b else b - a

@[simp] theorem toNat_saturatingSub (a b : UInt64) :
    (saturatingSub a b).toNat = a.toNat - b.toNat := by
  unfold saturatingSub
  split
  · rename_i le
    exact UInt64.toNat_sub_of_le _ _ le
  · rename_i lt
    rw [UInt64.le_iff_toNat_le] at lt
    simp
    omega

theorem toNat_absDiff (a b : UInt64) : (absDiff a b).toNat = Nat.dist a.toNat b.toNat := by
  unfold absDiff Nat.dist
  split
  · rename_i le
    rw [UInt64.toNat_sub_of_le _ _ le]
    rw [UInt64.le_iff_toNat_le] at le
    omega
  · rename_i lt
    have le : a ≤ b := UInt64.le_of_lt (UInt64.not_le.mp lt)
    rw [UInt64.toNat_sub_of_le _ _ le]
    rw [UInt64.le_iff_toNat_le] at le
    omega

/-- The serial number that stands for `n`. -/
abbrev serial (n : Nat) : UInt32 := UInt32.ofNat n

theorem toNat_serial (n : Nat) : (serial n).toNat = n % 2 ^ 32 := by simp

theorem serial_add (n k : Nat) : serial (n + k) = serial n + serial k := by
  apply UInt32.toNat.inj
  simp

/-- Ahead by less than a full turn, the wrapping difference is the true one. -/
theorem toNat_serial_sub {a b : Nat} (le : b ≤ a) (near : a - b < 2 ^ 32) :
    (serial a - serial b).toNat = a - b := by
  rw [UInt32.toNat_sub, toNat_serial, toNat_serial]
  omega

/-- Behind by at most a full turn, the wrapping difference is the complement. -/
theorem toNat_serial_sub_of_lt {a b : Nat} (lt : a < b) (near : b - a ≤ 2 ^ 32) :
    (serial a - serial b).toNat = 2 ^ 32 - (b - a) := by
  rw [UInt32.toNat_sub, toNat_serial, toNat_serial]
  omega

/-- The wrapping difference from the serial number of any integer. -/
theorem toNat_ofInt_sub_serial (n : Int) (base : Nat) :
    (UInt32.ofInt n - serial base).toNat = ((n - base) % 2 ^ 32).toNat := by
  rw [UInt32.toNat_sub, UInt32.ofInt, toNat_serial, toNat_serial]
  omega

theorem ofInt_natCast (n : Nat) : UInt32.ofInt n = serial n := by
  apply UInt32.toNat.inj
  rw [UInt32.ofInt, toNat_serial, toNat_serial]
  omega

/-- Stepping towards a different number shortens the wrapping distance by one. -/
theorem toNat_sub_add_one {a b : UInt32} (apart : a ≠ b) :
    (a - (b + 1)).toNat + 1 = (a - b).toNat := by
  have different : a.toNat ≠ b.toNat := fun equal => apart (UInt32.toNat.inj equal)
  have boundA := a.toNat_lt
  have boundB := b.toNat_lt
  rw [UInt32.toNat_sub, UInt32.toNat_sub, UInt32.toNat_add, UInt32.toNat_one]
  omega

/-- Of two numbers ahead of a third, the nearer one lies behind the farther one. -/
theorem toNat_sub_of_nearer {a b c : UInt32} (nearer : (a - c).toNat < (b - c).toNat) :
    (a - b).toNat = 2 ^ 32 - ((b - c).toNat - (a - c).toNat) := by
  have boundA := a.toNat_lt
  have boundB := b.toNat_lt
  have boundC := c.toNat_lt
  rw [UInt32.toNat_sub, UInt32.toNat_sub] at nearer
  rw [UInt32.toNat_sub, UInt32.toNat_sub, UInt32.toNat_sub]
  omega

/-- Of two numbers ahead of a third, the farther one is ahead of the nearer one. -/
theorem toNat_sub_of_farther {a b c : UInt32} (farther : (b - c).toNat ≤ (a - c).toNat) :
    (a - b).toNat = (a - c).toNat - (b - c).toNat := by
  have boundA := a.toNat_lt
  have boundB := b.toNat_lt
  have boundC := c.toNat_lt
  rw [UInt32.toNat_sub, UInt32.toNat_sub] at farther
  rw [UInt32.toNat_sub, UInt32.toNat_sub, UInt32.toNat_sub]
  omega

/-- `a.wrapping_sub(b) as i32 > 0`: strictly ahead in serial-number order. -/
def serialAhead (a b : UInt32) : Bool := decide (0 < (a - b).toInt32)

/-- Ahead means ahead by at least one and by less than half a turn. -/
theorem serialAhead_iff (a b : UInt32) :
    serialAhead a b = true ↔ 0 < (a - b).toNat ∧ (a - b).toNat < 2 ^ 31 := by
  unfold serialAhead
  rw [decide_eq_true_iff, Int32.lt_iff_toInt_lt]
  have bound := (a - b).toNat_lt
  have signed : (a - b).toInt32.toInt = ((a - b).toNat : Int).bmod (2 ^ 32) :=
    BitVec.toInt_eq_toNat_bmod (a - b).toBitVec
  rw [signed, Int.bmod_def]
  simp
  omega

/-- Bit `i` of a 32-bit map. -/
def bit (map : UInt32) (i : Nat) : Bool := map.toNat.testBit i

@[simp] theorem bit_zero (i : Nat) : bit 0 i = false := by simp [bit]

theorem bit_of_le (map : UInt32) {i : Nat} (large : 32 ≤ i) : bit map i = false := by
  apply Nat.testBit_lt_two_pow
  exact Nat.lt_of_lt_of_le map.toNat_lt (Nat.pow_le_pow_right (by omega) large)

theorem toNat_mask {d : UInt32} (small : d.toNat < 32) :
    ((1 : UInt32) <<< d).toNat = 2 ^ d.toNat := by
  rw [UInt32.toNat_shiftLeft, Nat.mod_eq_of_lt small, UInt32.toNat_one, Nat.one_shiftLeft]
  exact Nat.mod_eq_of_lt (Nat.pow_lt_pow_right (by omega) small)

theorem and_mask_ne_zero_iff (map : UInt32) {d : UInt32} (small : d.toNat < 32) :
    map &&& (1 <<< d) ≠ 0 ↔ bit map d.toNat = true := by
  rw [Ne, ← UInt32.toNat_inj, UInt32.toNat_and, toNat_mask small, Nat.and_two_pow]
  cases set : map.toNat.testBit d.toNat <;> simp [bit, set]

theorem bit_or_mask (map : UInt32) {d : UInt32} (small : d.toNat < 32) (i : Nat) :
    bit (map ||| (1 <<< d)) i = (bit map i || decide (d.toNat = i)) := by
  unfold bit
  rw [UInt32.toNat_or, toNat_mask small, Nat.testBit_or, Nat.testBit_two_pow]

theorem bit_and_not_mask (map : UInt32) {d : UInt32} (small : d.toNat < 32) (i : Nat) :
    bit (map &&& ~~~(1 <<< d)) i = (bit map i && !decide (d.toNat = i)) := by
  have bound : 2 ^ d.toNat < 2 ^ 32 := Nat.pow_lt_pow_right (by decide) small
  have size : UInt32.size - 1 - 2 ^ d.toNat = 2 ^ 32 - (2 ^ d.toNat + 1) := by
    have whole : UInt32.size = 2 ^ 32 := rfl
    omega
  unfold bit
  rw [UInt32.toNat_and, UInt32.toNat_not, toNat_mask small, Nat.testBit_and, size,
    Nat.testBit_two_pow_sub_succ bound, Nat.testBit_two_pow]
  by_cases inside : i < 32
  · simp [inside]
  · have clear : map.toNat.testBit i = false := bit_of_le map (Nat.not_lt.mp inside)
    simp [clear]

@[simp] theorem bit_shiftRight_one (map : UInt32) (i : Nat) :
    bit (map >>> 1) i = bit map (i + 1) := by
  unfold bit
  rw [UInt32.toNat_shiftRight, Nat.testBit_shiftRight]
  simp [Nat.add_comm]

theorem and_one_ne_zero_iff (map : UInt32) : map &&& 1 ≠ 0 ↔ bit map 0 = true :=
  and_mask_ne_zero_iff map (d := 0) (by decide)

end Teleop.Lib
