import Mathlib.Algebra.Ring.Nat
import Mathlib.Data.List.Basic

/-!
# Streams cut into blocks

A writer hands over blocks of one size and keeps what is left.  However the stream arrives,
the blocks and the rest make it up; padding the rest makes a last block of it.
-/

namespace Teleop.Lib

universe u

variable {α : Type u} {size : Nat} {stream rest : List α} {blocks : List (List α)}

/-- A stream as whole blocks and what is left of it. -/
structure Blocks (size : Nat) (stream : List α) (blocks : List (List α)) (rest : List α) :
    Prop where
  whole : blocks.flatten ++ rest = stream
  sized : ∀ block ∈ blocks, block.length = size

/-- A stream, filled up to whole blocks. -/
def padded (size : Nat) (filler : α) (stream : List α) : List α :=
  stream ++ .replicate ((size - stream.length % size) % size) filler

theorem length_padded_le (positive : 0 < size) (filler : α) (stream : List α) :
    (padded size filler stream).length ≤ stream.length + size := by
  have missing := Nat.mod_lt (size - stream.length % size) positive
  rw [padded, List.length_append, List.length_replicate]
  exact Nat.add_le_add_left (Nat.le_of_lt missing) _

/-- Behind the stream there is nothing but filling. -/
theorem eq_filler_of_getElem {filler x : α} {i : Nat} (behind : stream.length ≤ i)
    (there : (padded size filler stream)[i]? = some x) : x = filler := by
  rw [padded, List.getElem?_append_right behind] at there
  exact List.eq_of_mem_replicate (List.mem_of_getElem? there)

theorem Blocks.nil (size : Nat) : Blocks size ([] : List α) [] [] where
  whole := rfl
  sized := by simp

namespace Blocks

theorem append (cut : Blocks size stream blocks rest) (data : List α) :
    Blocks size (stream ++ data) blocks (rest ++ data) where
  whole := by rw [← List.append_assoc, cut.whole]
  sized := cut.sized

/-- The next block leaves the rest. -/
theorem next (cut : Blocks size stream blocks rest) (enough : size ≤ rest.length) :
    Blocks size stream (blocks ++ [rest.take size]) (rest.drop size) where
  whole := by
    rw [List.flatten_concat, List.append_assoc, List.take_append_drop, cut.whole]
  sized := by
    intro block among
    rcases List.mem_append.mp among with before | last
    · exact cut.sized block before
    · rw [List.mem_singleton.mp last, List.length_take, Nat.min_eq_left enough]

theorem length_flatten (cut : Blocks size stream blocks rest) :
    blocks.flatten.length = blocks.length * size := by
  rw [List.length_flatten, List.map_congr_left cut.sized, List.map_const',
    List.sum_replicate_nat]

theorem length_rest (cut : Blocks size stream blocks rest) (short : rest.length < size) :
    rest.length = stream.length % size := by
  rw [← cut.whole, List.length_append, cut.length_flatten,
    Nat.mul_add_mod_of_lt short]

/-- With nothing left the stream is whole blocks already. -/
theorem padded_of_whole (cut : Blocks size stream blocks []) (filler : α) :
    padded size filler stream = stream := by
  have none : stream.length % size = 0 := by
    rw [← cut.whole, List.append_nil, cut.length_flatten, Nat.mul_mod_left]
  rw [padded, none, Nat.sub_zero, Nat.mod_self, List.replicate_zero, List.append_nil]

/-- What is left, filled up, is the last block. -/
theorem pad (cut : Blocks size stream blocks rest) (left : rest ≠ []) (short : rest.length < size)
    (filler : α) :
    Blocks size (padded size filler stream)
      (blocks ++ [rest ++ .replicate (size - rest.length) filler]) [] where
  whole := by
    have positive : 0 < rest.length := List.length_pos_iff.mpr left
    have missing : (size - stream.length % size) % size = size - rest.length := by
      rw [← cut.length_rest short]
      exact Nat.mod_eq_of_lt (by omega)
    rw [padded, missing, List.append_nil, List.flatten_concat, ← List.append_assoc, cut.whole]
  sized := by
    intro block among
    rcases List.mem_append.mp among with before | last
    · exact cut.sized block before
    · rw [List.mem_singleton.mp last, List.length_append, List.length_replicate]
      omega

theorem dvd_length (cut : Blocks size stream blocks []) : size ∣ stream.length := by
  rw [← cut.whole, List.append_nil, cut.length_flatten]
  exact Nat.dvd_mul_left size blocks.length

end Blocks

end Teleop.Lib
