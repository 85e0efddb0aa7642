import Teleop.Link.BurstErrors

/-!
# The checksum one bit at a time

The definition that the lookup table speeds up: the bits of a string enter the reflected
register in the order of transmission, each with a pass of its own.
-/

namespace Teleop.Link

open Teleop.Lib.ShiftRegister

/-- One bit: the register moves down, and takes the polynomial in when the bit that falls out
is not the one that enters. -/
def crcBit (c : UInt32) (bit : Bool) : UInt32 :=
  if c.toNat.testBit 0 ≠ bit then (c >>> 1) ^^^ 0xEDB88320 else c >>> 1

/-- Reflected CRC-32, the least significant bit of every byte first. -/
def crc32Bitwise (data : List UInt8) : UInt32 :=
  (bitsOf data).foldl crcBit 0xFFFFFFFF ^^^ 0xFFFFFFFF

example : crc32Bitwise [0x31, 0x32, 0x33, 0x34, 0x35, 0x36, 0x37, 0x38, 0x39] = 0xCBF43926 := by
  decide +kernel

theorem toBitVec_crcBit (c : UInt32) (bit : Bool) :
    (crcBit c bit).toBitVec = step crcPoly (c.toBitVec ^^^ BitVec.ofNat 32 bit.toNat) := by
  have lowest : c.toBitVec.getLsbD 0 = c.toNat.testBit 0 := rfl
  rw [step_enter (by decide), lowest]
  unfold crcBit
  by_cases same : c.toNat.testBit 0 = bit
  · rw [if_neg (not_not.mpr same), if_neg (not_not.mpr same)]
    rfl
  · rw [if_pos same, if_pos same, UInt32.toBitVec_xor, BitVec.xor_comm]
    rfl

theorem toBitVec_foldl_crcBit (bits : List Bool) (c : UInt32) :
    (bits.foldl crcBit c).toBitVec = feed crcPoly c.toBitVec bits := by
  induction bits generalizing c with
  | nil => rfl
  | cons bit rest inductionHypothesis =>
      rw [List.foldl_cons, inductionHypothesis, toBitVec_crcBit, feed_cons]

/-- A lookup does what the eight bits of the byte do one after the other. -/
theorem crcByte_eq_foldl_crcBit (c : UInt32) (b : UInt8) :
    crcByte c b = (byteBits b).foldl crcBit c := by
  apply UInt32.toBitVec_inj.mp
  rw [toBitVec_crcByte, toBitVec_foldl_crcBit]

theorem foldl_crcByte_eq_foldl_crcBit (data : List UInt8) (c : UInt32) :
    data.foldl crcByte c = (bitsOf data).foldl crcBit c := by
  induction data generalizing c with
  | nil => rfl
  | cons b rest inductionHypothesis =>
      rw [List.foldl_cons, inductionHypothesis, crcByte_eq_foldl_crcBit, bitsOf_cons,
        List.foldl_append]

/-- The table-driven checksum of every string is the one computed bit by bit. -/
theorem crc32_eq_crc32Bitwise (data : List UInt8) : crc32 data = crc32Bitwise data := by
  have start : (~~~ 0 : UInt32) = 0xFFFFFFFF := by decide
  have complement (c : UInt32) : ~~~ c = c ^^^ 0xFFFFFFFF := by
    apply UInt32.toBitVec_inj.mp
    rw [UInt32.toBitVec_not, UInt32.toBitVec_xor]
    exact (BitVec.xor_allOnes).symm
  unfold crc32 crc32Bitwise
  rw [foldl_crcByte_eq_foldl_crcBit, start, complement]

end Teleop.Link
