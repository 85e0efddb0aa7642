import Mathlib.Data.Nat.Bitwise

/-!
# Cursors of a ring buffer

Positions are counted without bound and kept in 64-bit words that wrap.  Words of
positions less than a full turn apart differ by the true distance, and masking
with a power of two finds the cell of a position.
-/

namespace Teleop.Lib

/-- The word that stands for position `n`. -/
abbrev cursor (n : Nat) : UInt64 := UInt64.ofNat n

theorem toNat_cursor (n : Nat) : (cursor n).toNat = n % 2 ^ 64 := by simp

theorem cursor_add_one (n : Nat) : cursor n + 1 = cursor (n + 1) := by
  apply UInt64.toNat.inj
  simp

theorem cursor_sub_one (n : Nat) : cursor (n + 1) - 1 = cursor n := by
  rw [← cursor_add_one, UInt64.add_sub_cancel]

theorem toNat_cursor_sub {a b : Nat} (le : b ≤ a) (near : a - b < 2 ^ 64) :
    (cursor a - cursor b).toNat = a - b := by
  rw [UInt64.toNat_sub, toNat_cursor, toNat_cursor]
  omega

theorem toNat_cursor_sub_of_lt {a b : Nat} (lt : a < b) (near : b - a ≤ 2 ^ 64) :
    (cursor a - cursor b).toNat = 2 ^ 64 - (b - a) := by
  rw [UInt64.toNat_sub, toNat_cursor, toNat_cursor]
  omega

/-- Positions with the same word are the same or at least a full turn apart. -/
theorem cursor_inj {a b : Nat} (le : b ≤ a) (near : a - b < 2 ^ 64) (same : cursor a = cursor b) :
    a = b := by
  have distance := toNat_cursor_sub le near
  rw [same, UInt64.sub_self] at distance
  have zero : a - b = 0 := distance.symm
  omega

theorem cursor_eq_of_sub_eq_zero {a b : UInt64} (zero : a - b = 0) : a = b := by
  apply UInt64.toNat.inj
  have difference := congrArg UInt64.toNat zero
  have boundA := a.toNat_lt
  have boundB := b.toNat_lt
  rw [UInt64.toNat_sub, UInt64.toNat_zero] at difference
  omega

/-- The difference read as signed is negative exactly from half a turn on. -/
theorem toInt64_neg_iff (word : UInt64) : word.toInt64 < 0 ↔ 2 ^ 63 ≤ word.toNat := by
  rw [Int64.lt_iff_toInt_lt]
  have bound := word.toNat_lt
  have signed : word.toInt64.toInt = (word.toNat : Int).bmod (2 ^ 64) :=
    BitVec.toInt_eq_toNat_bmod word.toBitVec
  rw [signed, Int.bmod_def]
  simp
  omega

/-- `pos & (cap - 1)`. -/
def maskIndex (cap pos : Nat) : Nat := (cursor pos &&& (cursor cap - 1)).toNat

theorem maskIndex_two_pow {k : Nat} (small : k ≤ 63) (pos : Nat) :
    maskIndex (2 ^ k) pos = pos % 2 ^ k := by
  have fits : 2 ^ k < 2 ^ 64 := Nat.pow_lt_pow_right (by decide) (by omega)
  have positive : 1 ≤ 2 ^ k := Nat.one_le_two_pow
  have mask : (cursor (2 ^ k) - 1).toNat = 2 ^ k - 1 := by
    rw [UInt64.toNat_sub, toNat_cursor, Nat.mod_eq_of_lt fits, UInt64.toNat_one]
    omega
  have divides : 2 ^ k ∣ 2 ^ 64 := Nat.pow_dvd_pow 2 (by omega)
  unfold maskIndex
  rw [UInt64.toNat_and, mask, toNat_cursor, Nat.and_two_pow_sub_one_eq_mod,
    Nat.mod_mod_of_dvd _ divides]

/-- Positions less than a lap apart have different cells. -/
theorem eq_of_same_cell {cap a b : Nat} (le : a ≤ b) (near : b < a + cap)
    (same : a % cap = b % cap) : a = b := by
  have multiple : (b - a) % cap = 0 := Nat.sub_mod_eq_zero_of_mod_eq same.symm
  rw [Nat.mod_eq_of_lt (by omega)] at multiple
  omega

/-- Under a capacity that rounding up produces, positions of one lap have different cells. -/
theorem maskIndex_ne {cap m n : Nat} (rounded : cap = 0 ∨ ∃ k ≤ 63, cap = 2 ^ k) (lt : m < n)
    (near : n < m + cap) : maskIndex cap m ≠ maskIndex cap n := by
  intro same
  obtain zero | ⟨k, small, power⟩ := rounded
  · omega
  · rw [power, maskIndex_two_pow small, maskIndex_two_pow small] at same
    have equal := eq_of_same_cell (by omega) (by omega) same
    omega

end Teleop.Lib
