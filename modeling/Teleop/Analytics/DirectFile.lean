import Teleop.Lib.Blocks
import Teleop.Analytics.RawFile

/-!
# Direct writing in sectors

Bytes are staged in a buffer and handed to the backend a sector at a time.  Whatever is
written, the sectors handed over and the staged bytes make it up; a flush fills the last
sector with zeros.
-/

namespace Teleop.Analytics

open Teleop.Lib

/-- Alignment and length multiple of what is handed to the backend. -/
def SECTOR_SIZE : Nat := 4096

def STAGING_CAP : Nat := SECTOR_SIZE * 16

/-- The staging buffer as it is allocated, with whatever was there before. -/
structure AlignedBuf where
  bytes : List UInt8
  sized : bytes.length = STAGING_CAP

/-- A file and its staging buffer, of which the first `stagingLen` bytes are occupied.
`blocks` is what the backend was given so far, which no step reads. -/
structure DirectFile (B : Type) where
  backend : B
  staging : List UInt8
  stagingLen : Nat
  written : UInt64
  blocks : List (List UInt8)

/-- `staging[start..start + data.len()].copy_from_slice(data)`. -/
def copyFromSlice (staging : List UInt8) (start : Nat) (data : List UInt8) : List UInt8 :=
  staging.take start ++ data ++ staging.drop (start + data.length)

/-- `staging.copy_within(from..to, 0)`. -/
def copyWithin (staging : List UInt8) (start stop : Nat) : List UInt8 :=
  copyFromSlice staging 0 ((staging.take stop).drop start)

namespace DirectFile

variable {B E : Type} (backend : Backend B E)

/-- Opens a file for writing, truncated. -/
def openFile (memory : AlignedBuf) : DirectFile B where
  backend := backend.opened
  staging := memory.bytes
  stagingLen := 0
  written := 0
  blocks := []

/-- Hands whole sectors over while there are any. -/
def spill : Nat → DirectFile B → Except E (DirectFile B)
  | 0, file => .ok file
  | fuel + 1, file =>
      if SECTOR_SIZE ≤ file.stagingLen then do
        let block := file.staging.take SECTOR_SIZE
        let b ← backend.writeBlock file.backend block
        spill fuel { file with
          backend := b
          staging := copyWithin file.staging SECTOR_SIZE file.stagingLen
          stagingLen := file.stagingLen - SECTOR_SIZE
          written := file.written + .ofNat SECTOR_SIZE
          blocks := file.blocks ++ [block] }
      else .ok file

/-- Stages as much of the data as there is space for, and hands sectors over. -/
def writeLoop : Nat → DirectFile B → List UInt8 → Except E (DirectFile B)
  | 0, file, _ => .ok file
  | fuel + 1, file, data =>
      if data = [] then .ok file
      else do
        let space := STAGING_CAP - file.stagingLen
        let taken := min space data.length
        let staged ← spill backend (file.stagingLen + taken) { file with
          staging := copyFromSlice file.staging file.stagingLen (data.take taken)
          stagingLen := file.stagingLen + taken }
        writeLoop fuel staged (data.drop taken)

/-- Appends data. -/
def write (file : DirectFile B) (data : List UInt8) : Except E (DirectFile B) :=
  writeLoop backend data.length file data

/-- Hands over the last partial sector, filled with zeros. -/
def fillSector (file : DirectFile B) : Except E (DirectFile B) :=
  if 0 < file.stagingLen then do
    let staging := copyFromSlice file.staging file.stagingLen
      (.replicate (SECTOR_SIZE - file.stagingLen) 0)
    let block := staging.take SECTOR_SIZE
    let b ← backend.writeBlock file.backend block
    pure { file with
      backend := b
      staging := staging
      stagingLen := 0
      written := file.written + .ofNat SECTOR_SIZE
      blocks := file.blocks ++ [block] }
  else .ok file

/-- Flushes the last partial sector and the backend. -/
def flush (file : DirectFile B) : Except E (DirectFile B) := do
  let filled ← file.fillSector backend
  let b ← backend.flush filled.backend
  pure { filled with backend := b }

end DirectFile

section Buffer

variable {staging data : List UInt8} {start : Nat}

theorem length_copyFromSlice (inside : start + data.length ≤ staging.length) :
    (copyFromSlice staging start data).length = staging.length := by
  simp only [copyFromSlice, List.length_append, List.length_take, List.length_drop]
  omega

/-- The occupied part grows by what is copied behind it. -/
theorem take_copyFromSlice (data : List UInt8) (inside : start ≤ staging.length) :
    (copyFromSlice staging start data).take (start + data.length) = staging.take start ++ data := by
  have length : (staging.take start ++ data).length = start + data.length := by
    rw [List.length_append, List.length_take, Nat.min_eq_left inside]
  rw [copyFromSlice, ← length, List.take_left]

/-- Moving the occupied part to the front drops what was before it. -/
theorem take_copyWithin {stop : Nat} (inside : stop ≤ staging.length) :
    (copyWithin staging start stop).take (stop - start) = (staging.take stop).drop start := by
  have length : ((staging.take stop).drop start).length = stop - start := by
    rw [List.length_drop, List.length_take, Nat.min_eq_left inside]
  have copied := take_copyFromSlice ((staging.take stop).drop start)
    (Nat.zero_le staging.length)
  rw [Nat.zero_add, length] at copied
  exact copied

theorem length_copyWithin {stop : Nat} (inside : stop ≤ staging.length) :
    (copyWithin staging start stop).length = staging.length := by
  apply length_copyFromSlice
  rw [List.length_drop, List.length_take, Nat.min_eq_left inside]
  omega

end Buffer

namespace DirectFile

variable {B E : Type} {backend : Backend B E} {file target : DirectFile B} {stream : List UInt8}

/-- The sectors handed over and the staged bytes make up the stream. -/
structure Holds (backend : Backend B E) (file : DirectFile B) (stream : List UInt8) : Prop where
  size : file.staging.length = STAGING_CAP
  fits : file.stagingLen ≤ STAGING_CAP
  cut : Blocks SECTOR_SIZE stream file.blocks (file.staging.take file.stagingLen)
  contents : backend.contents file.backend = file.blocks.flatten
  written : file.written.toNat = (backend.contents file.backend).length

/-- Between two calls less than a sector is staged. -/
structure Settled (backend : Backend B E) (file : DirectFile B) (stream : List UInt8) : Prop
    extends Holds backend file stream where
  short : file.stagingLen < SECTOR_SIZE

theorem Holds.length_staged (holds : Holds backend file stream) :
    (file.staging.take file.stagingLen).length = file.stagingLen := by
  rw [List.length_take, holds.size, Nat.min_eq_left holds.fits]

theorem settled_openFile (memory : AlignedBuf) :
    Settled backend (openFile backend memory) [] where
  size := memory.sized
  fits := Nat.zero_le _
  cut := .nil SECTOR_SIZE
  contents := backend.truncated
  written := by
    rw [openFile, backend.truncated]
    rfl
  short := show 0 < SECTOR_SIZE by decide

/-- Staging data behind what is staged. -/
theorem Holds.stage (holds : Holds backend file stream) (data : List UInt8)
    (space : file.stagingLen + data.length ≤ STAGING_CAP) :
    Holds backend
      { file with
        staging := copyFromSlice file.staging file.stagingLen data
        stagingLen := file.stagingLen + data.length } (stream ++ data) := by
  have size := holds.size
  have fits := holds.fits
  refine { holds with size := ?_, fits := space, cut := ?_ }
  · rw [length_copyFromSlice (by omega), size]
  · rw [take_copyFromSlice data (by omega)]
    exact holds.cut.append data

/-- A block that ends the file keeps the count of its bytes. -/
theorem Holds.count (holds : Holds backend file stream) {block : List UInt8} {b : B}
    (sized : block.length = SECTOR_SIZE)
    (wrote : backend.writeBlock file.backend block = .ok b) :
    backend.contents b = (file.blocks ++ [block]).flatten ∧
      (file.written + .ofNat SECTOR_SIZE).toNat = (backend.contents b).length := by
  have grown := backend.appends wrote
  have limit := backend.limited b
  have before := holds.written
  have sector : SECTOR_SIZE = 4096 := rfl
  constructor
  · rw [grown, holds.contents, List.flatten_concat]
  · rw [grown, List.length_append, sized] at limit ⊢
    rw [UInt64.toNat_add, before, UInt64.toNat_ofNat_of_lt' (by decide)]
    exact Nat.mod_eq_of_lt (by omega)

/-- Handing the first sector over and moving the rest to the front. -/
theorem Holds.hand (holds : Holds backend file stream) (enough : SECTOR_SIZE ≤ file.stagingLen)
    {b : B} (wrote : backend.writeBlock file.backend (file.staging.take SECTOR_SIZE) = .ok b) :
    Holds backend
      { file with
        backend := b
        staging := copyWithin file.staging SECTOR_SIZE file.stagingLen
        stagingLen := file.stagingLen - SECTOR_SIZE
        written := file.written + .ofNat SECTOR_SIZE
        blocks := file.blocks ++ [file.staging.take SECTOR_SIZE] } stream := by
  have size := holds.size
  have fits := holds.fits
  have first : (file.staging.take file.stagingLen).take SECTOR_SIZE =
      file.staging.take SECTOR_SIZE := by
    rw [List.take_take, Nat.min_eq_left enough]
  have sized : (file.staging.take SECTOR_SIZE).length = SECTOR_SIZE := by
    rw [List.length_take]
    omega
  obtain ⟨contents, written⟩ := holds.count sized wrote
  refine ⟨?_, Nat.le_trans (Nat.sub_le _ _) fits, ?_, contents, written⟩
  · exact (length_copyWithin (by omega)).trans size
  · rw [take_copyWithin (by omega), ← first]
    apply holds.cut.next
    rw [holds.length_staged]
    exact enough

/-- What the inner loop leaves is less than a sector. -/
theorem Holds.spill {fuel : Nat} (holds : Holds backend file stream)
    (enough : file.stagingLen ≤ fuel) (spilled : spill backend fuel file = .ok target) :
    Settled backend target stream := by
  have positive : 0 < SECTOR_SIZE := by decide
  induction fuel generalizing file with
  | zero =>
      cases spilled
      exact { holds with short := by omega }
  | succ fuel inductionHypothesis =>
      rw [DirectFile.spill] at spilled
      split at spilled
      · rename_i whole
        obtain ⟨b, wrote, further⟩ := ok_of_bind spilled
        apply inductionHypothesis (holds.hand whole wrote) ?_ further
        dsimp only
        omega
      · rename_i short
        cases spilled
        exact { holds with short := Nat.not_le.mp short }

/-- Writing appends to the stream. -/
theorem Settled.writeLoop {fuel : Nat} {data : List UInt8} (settled : Settled backend file stream)
    (enough : data.length ≤ fuel)
    (wrote : writeLoop backend fuel file data = .ok target) :
    Settled backend target (stream ++ data) := by
  induction fuel generalizing file stream data with
  | zero =>
      cases wrote
      obtain rfl := List.length_eq_zero_iff.mp (Nat.le_zero.mp enough)
      rw [List.append_nil]
      exact settled
  | succ fuel inductionHypothesis =>
      rw [DirectFile.writeLoop] at wrote
      split at wrote
      · rename_i empty
        cases wrote
        rw [empty, List.append_nil]
        exact settled
      · rename_i nonempty
        dsimp only at wrote
        generalize some : min (STAGING_CAP - file.stagingLen) data.length = taken at wrote
        have positive := List.length_pos_iff.mpr nonempty
        have short := settled.short
        have wide : SECTOR_SIZE < STAGING_CAP := by decide
        have front : (data.take taken).length = taken := by
          rw [List.length_take]
          omega
        have staged := settled.stage (data.take taken) (by omega)
        rw [front] at staged
        obtain ⟨next, spilled, rest⟩ := ok_of_bind wrote
        have further := inductionHypothesis (staged.spill (Nat.le_refl _) spilled)
          (by rw [List.length_drop]; omega) rest
        rwa [List.append_assoc, List.take_append_drop] at further

theorem Settled.write {data : List UInt8} (settled : Settled backend file stream)
    (wrote : file.write backend data = .ok target) : Settled backend target (stream ++ data) :=
  settled.writeLoop (Nat.le_refl _) wrote

/-- The last sector is what is staged and zeros. -/
theorem Settled.last (settled : Settled backend file stream) :
    (copyFromSlice file.staging file.stagingLen
        (.replicate (SECTOR_SIZE - file.stagingLen) 0)).take SECTOR_SIZE =
      file.staging.take file.stagingLen ++ .replicate (SECTOR_SIZE - file.stagingLen) 0 := by
  have size := settled.size
  have fits := settled.fits
  have copied := take_copyFromSlice
    (.replicate (SECTOR_SIZE - file.stagingLen) 0)
    (show file.stagingLen ≤ file.staging.length by omega)
  rwa [List.length_replicate, Nat.add_sub_cancel' settled.short.le] at copied

/-- Filling the last sector fills the stream up to whole sectors. -/
theorem Settled.fillSector (settled : Settled backend file stream)
    (filled : file.fillSector backend = .ok target) :
    Settled backend target (padded SECTOR_SIZE 0 stream) ∧ target.stagingLen = 0 := by
  have size := settled.size
  have short := settled.short
  have wide : SECTOR_SIZE < STAGING_CAP := by decide
  have staged := settled.length_staged
  rw [DirectFile.fillSector] at filled
  split at filled
  · rename_i left
    obtain ⟨b, wrote, whole⟩ := ok_of_bind filled
    obtain rfl := Except.ok.inj whole
    have cut := settled.cut.pad (List.length_pos_iff.mp (by rw [staged]; exact left))
      (by rw [staged]; exact short) 0
    rw [staged] at cut
    rw [settled.last] at wrote
    have sized := cut.sized _ (List.mem_append_right _ (List.mem_singleton_self _))
    obtain ⟨contents, written⟩ := settled.toHolds.count sized wrote
    rw [settled.last]
    refine ⟨⟨⟨?_, Nat.zero_le _, cut, contents, written⟩, show 0 < SECTOR_SIZE by decide⟩, rfl⟩
    exact (length_copyFromSlice (by rw [List.length_replicate]; omega)).trans size
  · rename_i none
    obtain rfl := Except.ok.inj filled
    have empty : file.stagingLen = 0 := Nat.eq_zero_of_not_pos none
    have cut := settled.cut
    rw [empty, List.take_zero] at cut
    rw [cut.padded_of_whole]
    exact ⟨settled, empty⟩

theorem Settled.flush (settled : Settled backend file stream)
    (flushed : file.flush backend = .ok target) :
    Settled backend target (padded SECTOR_SIZE 0 stream) ∧ target.stagingLen = 0 := by
  obtain ⟨filled, padding, finished⟩ := ok_of_bind flushed
  obtain ⟨b, synced, whole⟩ := ok_of_bind finished
  obtain rfl := Except.ok.inj whole
  have kept := backend.keeps synced
  obtain ⟨full, empty⟩ := settled.fillSector padding
  refine ⟨{ full with contents := ?_, written := ?_ }, empty⟩
  · rw [kept, full.contents]
  · rw [kept, full.written]

/-- A flushed file is its stream, filled up to whole sectors. -/
theorem Settled.whole (settled : Settled backend file stream) (empty : file.stagingLen = 0) :
    backend.contents file.backend = stream ∧ SECTOR_SIZE ∣ (backend.contents file.backend).length ∧
      (backend.contents file.backend).length = file.written.toNat ∧
      ∀ block ∈ file.blocks, block.length = SECTOR_SIZE := by
  have cut := settled.cut
  rw [empty, List.take_zero] at cut
  have contents : backend.contents file.backend = stream := by
    rw [settled.contents, ← cut.whole, List.append_nil]
  refine ⟨contents, ?_, settled.written.symm, cut.sized⟩
  rw [contents]
  exact cut.dvd_length

end DirectFile

/-- A backend that takes every block with which the file stays within a length. -/
structure Backend.Accepts {B E : Type} (backend : Backend B E) (limit : Nat) : Prop where
  write : ∀ b block, (backend.contents b).length + block.length ≤ limit →
    ∃ written, backend.writeBlock b block = .ok written
  flush : ∀ b, ∃ flushed, backend.flush b = .ok flushed

namespace DirectFile

variable {B E : Type} {backend : Backend B E} {limit : Nat} {file : DirectFile B}
  {stream : List UInt8} (accepts : backend.Accepts limit)

include accepts

theorem Holds.spill_accepted (fuel : Nat) (holds : Holds backend file stream)
    (room : stream.length ≤ limit) : ∃ target, DirectFile.spill backend fuel file = .ok target := by
  induction fuel generalizing file with
  | zero => exact ⟨file, rfl⟩
  | succ fuel inductionHypothesis =>
      rw [DirectFile.spill]
      split
      · rename_i whole
        have total := congrArg List.length holds.cut.whole
        have front : (file.staging.take SECTOR_SIZE).length ≤ SECTOR_SIZE := List.length_take_le ..
        rw [List.length_append, holds.length_staged, ← holds.contents] at total
        obtain ⟨b, wrote⟩ := accepts.write file.backend (file.staging.take SECTOR_SIZE) (by omega)
        obtain ⟨target, spilled⟩ := inductionHypothesis (holds.hand whole wrote)
        exact ⟨target, bind_of_ok wrote spilled⟩
      · exact ⟨file, rfl⟩

theorem Settled.writeLoop_accepted (fuel : Nat) {data : List UInt8}
    (settled : Settled backend file stream) (room : stream.length + data.length ≤ limit) :
    ∃ target, DirectFile.writeLoop backend fuel file data = .ok target := by
  induction fuel generalizing file stream data with
  | zero => exact ⟨file, rfl⟩
  | succ fuel inductionHypothesis =>
      rw [DirectFile.writeLoop]
      split
      · exact ⟨file, rfl⟩
      · dsimp only
        generalize some : min (STAGING_CAP - file.stagingLen) data.length = taken
        have fits := settled.fits
        have front : (data.take taken).length = taken := by
          rw [List.length_take]
          omega
        have staged := settled.stage (data.take taken) (by omega)
        rw [front] at staged
        have total : (stream ++ data.take taken).length + (data.drop taken).length ≤ limit := by
          rw [List.length_append, List.length_drop]
          omega
        obtain ⟨next, spilled⟩ := staged.spill_accepted accepts
          (file.stagingLen + taken) (by omega)
        obtain ⟨target, wrote⟩ := inductionHypothesis (staged.spill (Nat.le_refl _) spilled) total
        exact ⟨target, bind_of_ok spilled wrote⟩

/-- Within the limit a write succeeds. -/
theorem Settled.write_accepted (settled : Settled backend file stream) (data : List UInt8)
    (room : stream.length + data.length ≤ limit) :
    ∃ target, file.write backend data = .ok target :=
  settled.writeLoop_accepted accepts data.length room

/-- Within the limit a flush succeeds. -/
theorem Settled.flush_accepted (settled : Settled backend file stream)
    (room : (padded SECTOR_SIZE 0 stream).length ≤ limit) :
    ∃ target, file.flush backend = .ok target := by
  have filled : ∃ target, file.fillSector backend = .ok target := by
    rw [DirectFile.fillSector]
    split
    · rename_i left
      have staged := settled.length_staged
      have cut := settled.cut.pad (List.length_pos_iff.mp (by rw [staged]; exact left))
        (by rw [staged]; exact settled.short) 0
      have total := congrArg List.length cut.whole
      have contents := congrArg List.length settled.contents
      rw [List.append_nil, List.flatten_concat, List.length_append, ← contents,
        staged, ← settled.last] at total
      obtain ⟨b, wrote⟩ := accepts.write file.backend _ (total.le.trans room)
      exact ⟨_, bind_of_ok wrote rfl⟩
    · exact ⟨file, rfl⟩
  obtain ⟨target, filled⟩ := filled
  obtain ⟨b, flushed⟩ := accepts.flush target.backend
  exact ⟨{ target with backend := b }, bind_of_ok filled (bind_of_ok flushed rfl)⟩

end DirectFile

end Teleop.Analytics
