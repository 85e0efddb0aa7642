import Mathlib.Data.UInt
import Mathlib.Data.List.Basic

/-!
# The file below

What a direct file needs of the platform, and how the one of Unix provides it: a block is
written by as many calls as the kernel takes for it.
-/

namespace Teleop.Analytics

/-- What succeeds as a whole succeeds in each of its parts. -/
theorem ok_of_bind {E α β : Type} {first : Except E α} {then_ : α → Except E β} {result : β}
    (both : (first >>= then_) = .ok result) :
    ∃ value, first = .ok value ∧ then_ value = .ok result := by
  cases first with
  | error e => cases both
  | ok value => exact ⟨value, rfl, both⟩

theorem bind_of_ok {E α β : Type} {first : Except E α} {then_ : α → Except E β} {value : α}
    {result : Except E β} (done : first = .ok value) (rest : then_ value = result) :
    (first >>= then_) = result := by
  rw [done]
  exact rest

/-- What a raw file promises: it is truncated when it is opened, a block that was written
stands at its end, a flush changes nothing of it, and offsets are signed 64-bit numbers. -/
structure Backend (B : Type) (E : Type) where
  contents : B → List UInt8
  opened : B
  writeBlock : B → List UInt8 → Except E B
  flush : B → Except E B
  truncated : contents opened = []
  appends : ∀ {b written : B} {block : List UInt8}, writeBlock b block = .ok written →
    contents written = contents b ++ block
  keeps : ∀ {b flushed : B}, flush b = .ok flushed → contents flushed = contents b
  limited : ∀ b, (contents b).length < 2 ^ 63

/-- The calls of the kernel on a regular file opened for writing: a write takes a positive
number of the bytes it is given, or fails. -/
structure Kernel (K : Type) (E : Type) where
  contents : K → List UInt8
  opened : K
  write : K → List UInt8 → Except E (Nat × K)
  fsync : K → K
  truncated : contents opened = []
  counted : ∀ {k later : K} {buf : List UInt8} {n : Nat}, write k buf = .ok (n, later) →
    buf ≠ [] → 0 < n ∧ n ≤ buf.length ∧ contents later = contents k ++ buf.take n
  synced : ∀ k, contents (fsync k) = contents k
  limited : ∀ k, (contents k).length < 2 ^ 63

namespace RawFile

variable {K E : Type} (kernel : Kernel K E)

/-- Writes what is left of a block, one call after the other. -/
def writeLoop : Nat → K → List UInt8 → Except E K
  | 0, k, _ => .ok k
  | fuel + 1, k, block =>
      if block = [] then .ok k
      else do
        let (n, later) ← kernel.write k block
        writeLoop fuel later (block.drop n)

/-- Writes exactly the block. -/
def writeBlock (k : K) (block : List UInt8) : Except E K :=
  writeLoop kernel block.length k block

/-- Every call writes something, so there are no more calls than bytes. -/
theorem contents_writeLoop {fuel : Nat} {k written : K} {block : List UInt8}
    (enough : block.length ≤ fuel) (wrote : writeLoop kernel fuel k block = .ok written) :
    kernel.contents written = kernel.contents k ++ block := by
  induction fuel generalizing k block with
  | zero =>
      cases wrote
      rw [List.length_eq_zero_iff.mp (Nat.le_zero.mp enough), List.append_nil]
  | succ fuel inductionHypothesis =>
      rw [writeLoop] at wrote
      split at wrote
      · rename_i empty
        cases wrote
        rw [empty, List.append_nil]
      · rename_i nonempty
        obtain ⟨⟨n, later⟩, called, further⟩ := ok_of_bind wrote
        obtain ⟨positive, fits, grown⟩ := kernel.counted called nonempty
        have fewer : (block.drop n).length ≤ fuel := by
          rw [List.length_drop]
          omega
        rw [inductionHypothesis fewer further, grown, List.append_assoc, List.take_append_drop]

/-- The raw file of Unix. -/
def backend : Backend K E where
  contents := kernel.contents
  opened := kernel.opened
  writeBlock := writeBlock kernel
  flush k := .ok (kernel.fsync k)
  truncated := kernel.truncated
  appends wrote := contents_writeLoop kernel (Nat.le_refl _) wrote
  keeps flushed := by
    cases flushed
    exact kernel.synced _
  limited := kernel.limited

end RawFile

end Teleop.Analytics
