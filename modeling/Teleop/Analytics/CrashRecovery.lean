import Teleop.Analytics.Shutdown

/-!
# A recording that was cut off

Frames are only ever appended, so what a crash leaves on the disk is the front of what was to be
written, cut anywhere.  A reader gets every frame that is there as a whole, and nothing else.
-/

namespace Teleop.Analytics

open Teleop.Lib Teleop.Ring FdrEntry

section Parser

variable {entries : List FdrEntry} {cut : Nat}

theorem size_pos : 0 < SIZE := by decide

/-- Less than a frame is none. -/
theorem parseLoop_of_short (fuel : Nat) {data : List UInt8} (short : data.length < SIZE) :
    parseLoop fuel data = [] := by
  cases fuel with
  | zero => rfl
  | succ fuel =>
      have none : fromBytesAligned data = none := dif_pos short
      rw [parseLoop, none]

/-- A cut inside the frames, or in what is left of the one after them. -/
theorem parseLoop_take (rest : List UInt8) {fuel : Nat}
    (ordinary : ∀ e ∈ entries, e.kind? ≠ some .endMarker)
    (inside : cut < (entries.length + 1) * SIZE) (enough : cut / SIZE ≤ fuel) :
    parseLoop fuel ((frames entries ++ rest).take cut) = entries.take (cut / SIZE) := by
  have within : ((frames entries ++ rest).take cut).length ≤ cut := List.length_take_le _ _
  induction entries generalizing cut fuel with
  | nil =>
      rw [List.length_nil, Nat.zero_add, Nat.one_mul] at inside
      rw [List.take_nil]
      exact parseLoop_of_short fuel (Nat.lt_of_le_of_lt within inside)
  | cons e others inductionHypothesis =>
      obtain ⟨first, later⟩ := List.forall_mem_cons.mp ordinary
      rcases Nat.lt_or_ge cut SIZE with short | long
      · rw [Nat.div_eq_of_lt short, List.take_zero]
        exact parseLoop_of_short fuel (Nat.lt_of_le_of_lt within short)
      · obtain ⟨further, rfl⟩ := Nat.exists_eq_add_of_le long
        rw [Nat.add_div_left further size_pos] at enough ⊢
        obtain ⟨fuel, rfl⟩ := Nat.exists_eq_succ_of_ne_zero
          (Nat.ne_of_gt (Nat.lt_of_lt_of_le (Nat.succ_pos _) enough))
        have split : (frames (e :: others) ++ rest).take (SIZE + further) =
            e.bytesOf ++ (frames others ++ rest).take further := by
          have unfolded : frames (e :: others) ++ rest = e.bytesOf ++ (frames others ++ rest) := by
            rw [frames, List.flatMap_cons, List.append_assoc]
            rfl
          rw [unfolded, List.take_append, length_bytesOf, Nat.add_sub_cancel_left,
            List.take_of_length_le]
          rw [length_bytesOf]
          exact Nat.le_add_right _ _
        have less : further < (others.length + 1) * SIZE := by
          rw [List.length_cons, Nat.succ_mul, Nat.add_comm] at inside
          exact Nat.lt_of_add_lt_add_right inside
        rw [split, parseLoop, fromBytesAligned_bytesOf, List.drop_left' (length_bytesOf e)]
        dsimp only
        rw [if_neg first, inductionHypothesis later less (Nat.le_of_succ_le_succ enough)
          (List.length_take_le _ _), List.take_succ_cons]

/-- A cut through frames that no end marker follows. -/
theorem parseEntries_take_frames (ordinary : ∀ e ∈ entries, e.kind? ≠ some .endMarker)
    (inside : cut ≤ (frames entries).length) :
    parseEntries ((frames entries).take cut) = entries.take (cut / SIZE) := by
  have within : cut < (entries.length + 1) * SIZE := by
    rw [length_frames] at inside
    rw [Nat.succ_mul]
    exact Nat.lt_of_le_of_lt inside (Nat.lt_add_of_pos_right size_pos)
  have found := parseLoop_take [] ordinary within (Nat.div_le_self cut SIZE)
  rw [List.append_nil] at found
  rw [parseEntries, List.length_take, Nat.min_eq_left inside]
  exact found

/-- A cut through a closed recording. -/
theorem parseEntries_take_image (ordinary : ∀ e ∈ entries, e.kind? ≠ some .endMarker)
    (cut : Nat) :
    parseEntries ((FdrWriter.image entries).take cut) = entries.take (cut / SIZE) := by
  rw [FdrWriter.image, padded, List.append_assoc]
  generalize List.replicate _ (0 : UInt8) = zeros
  rcases Nat.lt_or_ge cut ((entries.length + 1) * SIZE) with inside | beyond
  · apply parseLoop_take _ ordinary inside
    have frame : cut / SIZE < entries.length + 1 := (Nat.div_lt_iff_lt_mul size_pos).mpr inside
    have wide := Nat.le_mul_of_pos_right entries.length size_pos
    have part := Nat.div_le_self cut SIZE
    rw [List.length_take, List.length_append, length_frames]
    omega
  · have frame : entries.length + 1 ≤ cut / SIZE := (Nat.le_div_iff_mul_le size_pos).mpr beyond
    rw [Nat.succ_mul, ← length_frames] at beyond
    have split : (frames entries ++ (endOfStream.bytesOf ++ zeros)).take cut =
        frames entries ++ (endOfStream.bytesOf ++
          zeros.take (cut - (frames entries).length - SIZE)) := by
      rw [List.take_append, List.take_of_length_le (Nat.le_of_add_right_le beyond),
        List.take_append, length_bytesOf, List.take_of_length_le]
      rw [length_bytesOf]
      exact Nat.le_sub_of_add_le' beyond
    have all : entries.takeWhile (fun e => e.kind? ≠ some .endMarker) = entries := by
      apply List.takeWhile_eq_self_iff.mpr
      intro e among
      exact decide_eq_true (ordinary e among)
    rw [split, parseEntries_frames, all, List.take_of_length_le (Nat.le_of_succ_le frame)]

end Parser

/-- A reader gets of the entries exactly those that are on the disk as a whole. -/
def Salvages (entries : List FdrEntry) (disk : List UInt8) : Prop :=
  parseEntries disk = entries.take (disk.length / SIZE)

section Files

variable {B E : Type} {backend : Backend B E} {file : DirectFile B} {entries : List FdrEntry}
  {disk : List UInt8}

/-- On the disk is the front of the frames, less than a sector of them is staged. -/
theorem prefix_of_settled (settled : file.Settled backend (frames entries)) :
    backend.contents file.backend <+: frames entries ∧
      (frames entries).length < (backend.contents file.backend).length + SECTOR_SIZE := by
  have whole := settled.cut.whole
  rw [← settled.contents] at whole
  refine ⟨⟨_, whole⟩, ?_⟩
  rw [← whole, List.length_append, settled.length_staged]
  exact Nat.add_lt_add_left settled.short _

theorem salvages_of_settled (settled : file.Settled backend (frames entries))
    (ordinary : ∀ e ∈ entries, e.kind? ≠ some .endMarker)
    (front : disk <+: backend.contents file.backend) :
    Salvages entries disk ∧ disk.length / SIZE ≤ entries.length := by
  have cut := front.trans (prefix_of_settled settled).1
  have found := parseEntries_take_frames ordinary cut.length_le
  rw [← List.prefix_iff_eq_take.mp cut] at found
  refine ⟨found, ?_⟩
  apply Nat.div_le_of_le_mul
  rw [Nat.mul_comm, ← length_frames]
  exact cut.length_le

/-- Eight frames at most are staged. -/
theorem length_le_of_settled (settled : file.Settled backend (frames entries)) :
    entries.length ≤ (backend.contents file.backend).length / SIZE + 8 := by
  have missing := (prefix_of_settled settled).2
  have sector : SECTOR_SIZE = 4096 := rfl
  have size : SIZE = 528 := rfl
  rw [length_frames, size, sector] at missing
  rw [size]
  omega

theorem contents_of_closed (settled : file.Settled backend (FdrWriter.image entries))
    (unstaged : file.stagingLen = 0) :
    backend.contents file.backend = FdrWriter.image entries :=
  (settled.whole unstaged).1

theorem salvages_of_closed (settled : file.Settled backend (FdrWriter.image entries))
    (unstaged : file.stagingLen = 0) (ordinary : ∀ e ∈ entries, e.kind? ≠ some .endMarker)
    (front : disk <+: backend.contents file.backend) : Salvages entries disk := by
  rw [contents_of_closed settled unstaged] at front
  have found := parseEntries_take_image ordinary disk.length
  rwa [← List.prefix_iff_eq_take.mp front] at found

end Files

namespace Recorder

/-- How many frames are popped and not written yet. -/
def inHand {B E : Type} (rec : Recorder B E) : Nat :=
  match rec.storage with
  | .writing _ _ => 1
  | _ => 0

/-- What a crash leaves of a recording. -/
structure Recoverable {B E : Type} (backend : Backend B E) (rec : Recorder B E) : Prop where
  /-- The frames that were taken out of the ring are those accepted first, -/
  inOrder : rec.ring.popped <+: rec.ring.accepted
  /-- of which a reader gets the ones that are there as a whole, whatever part of the disk is left; -/
  salvaged : ∀ disk, disk <+: backend.contents rec.file.backend → Salvages rec.ring.popped disk
  /-- not there are one in hand and eight that are staged, at most, -/
  missing : rec.ring.popped.length ≤
    (backend.contents rec.file.backend).length / SIZE + rec.inHand + 8
  /-- and none once the file is closed. -/
  closed : ∀ total, rec.storage = .finished (.ok total) →
    parseEntries (backend.contents rec.file.backend) = rec.ring.popped

section Crashes

variable {B E : Type} {backend : Backend B E} {memory : AlignedBuf} {rec : Recorder B E}

/-- While the storage thread works, all it has popped is in the file or in its hand. -/
theorem recoverable_of_settled (inOrder : rec.ring.popped <+: rec.ring.accepted)
    (ordinary : ∀ e ∈ rec.ring.accepted, e.kind? ≠ some .endMarker) {written held : List FdrEntry}
    (popped : rec.ring.popped = written ++ held) (inHand : held.length = rec.inHand)
    (settled : rec.file.Settled backend (frames written))
    (unfinished : ∀ total, rec.storage ≠ .finished (.ok total)) : Recoverable backend rec where
  inOrder := inOrder
  salvaged disk front := by
    have inner : ∀ e ∈ written, e.kind? ≠ some .endMarker := by
      intro e among
      apply ordinary e (inOrder.subset _)
      rw [popped]
      exact List.mem_append_left _ among
    obtain ⟨salvages, small⟩ := salvages_of_settled settled inner front
    rw [Salvages, popped, List.take_append_of_le_length small]
    exact salvages
  missing := by
    have staged := length_le_of_settled settled
    rw [popped, List.length_append, inHand]
    omega
  closed total finished := absurd finished (unfinished total)

theorem recoverable_of_closed (inOrder : rec.ring.popped <+: rec.ring.accepted)
    (ordinary : ∀ e ∈ rec.ring.accepted, e.kind? ≠ some .endMarker)
    (settled : rec.file.Settled backend (FdrWriter.image rec.ring.popped))
    (unstaged : rec.file.stagingLen = 0) : Recoverable backend rec := by
  have inner : ∀ e ∈ rec.ring.popped, e.kind? ≠ some .endMarker :=
    fun e among => ordinary e (inOrder.subset among)
  have contents := contents_of_closed settled unstaged
  refine ⟨inOrder, fun disk front => salvages_of_closed settled unstaged inner front, ?_, ?_⟩
  · have room : rec.ring.popped.length * SIZE ≤ (FdrWriter.image rec.ring.popped).length := by
      rw [FdrWriter.image, padded, List.length_append, FdrWriter.length_marked, Nat.succ_mul,
        Nat.add_assoc]
      exact Nat.le_add_right _ _
    rw [contents]
    have whole := (Nat.le_div_iff_mul_le size_pos).mpr room
    omega
  · intro _ _
    rw [contents, FdrWriter.parseEntries_image]
    apply List.takeWhile_eq_self_iff.mpr
    intro e among
    exact decide_eq_true (inner e among)

/-- Whenever the power fails, however the accesses of the producer and of the storage thread are
interleaved and as long as no write has failed: a reader gets exactly the frames that are on the
disk as a whole, in the order in which they were accepted. -/
theorem recoverable_of_reachable (capacity : Nat)
    (reached : (threads backend (Threads.withCapacity capacity) memory).Reachable rec)
    (ordinary : ∀ e ∈ rec.ring.accepted, e.kind? ≠ some .endMarker)
    (unfailed : ∀ error, rec.storage ≠ .finished (.error error)) : Recoverable backend rec := by
  have holds := holds_of_reachable (Threads.rounded_withCapacity capacity) reached
  have inOrder := holds.fifo.inOrder
  have file := holds.file
  unfold FileHolds at file
  cases stage : rec.storage with
  | draining n | checking | closing =>
      rw [stage] at file
      apply recoverable_of_settled inOrder ordinary (List.append_nil _).symm _ file
      · simp [stage]
      · simp [inHand, stage]
  | writing n e =>
      rw [stage] at file
      obtain ⟨written, popped, settled⟩ := file
      apply recoverable_of_settled inOrder ordinary popped _ settled
      · simp [stage]
      · simp [inHand, stage]
  | finished result =>
      cases result with
      | error failure => exact absurd stage (unfailed failure)
      | ok total =>
          rw [stage] at file
          exact recoverable_of_closed inOrder ordinary file.1 file.2

end Crashes

section Instance

/-- A frame is recorded while the one before it is drained. -/
def overlapping (mark : UInt8) : List Action :=
  [.tryRecord .gps [mark] 1, .storage, .producer, .storage, .producer, .storage, .producer,
    .storage, .producer, .storage, .storage]

/-- Nine frames are recorded; eight of them are written, and the ninth is in hand. -/
def nineRecords : List Action :=
  [.tryRecord .gps [0] 1, .producer, .producer, .producer, .producer] ++
    [1, 2, 3, 4, 5, 6, 7, 8].flatMap overlapping ++ List.replicate 5 .storage

/-- The power fails with seven of nine frames on the disk. -/
theorem recoverable_nineRecords : ∃ rec : Recorder FileBytes Unit,
    (threads memoryFile (Threads.withCapacity 4) staleMemory).Reachable rec ∧
      rec.ring.popped.length = 9 ∧ rec.inHand = 1 ∧
      (memoryFile.contents rec.file.backend).length = SECTOR_SIZE ∧
      Recoverable memoryFile rec := by
  have found : (TransitionSystem.perform (Recorder.next memoryFile (Threads.withCapacity 4))
      (openRecorder memoryFile staleMemory) nineRecords).any (fun rec =>
        decide (rec.ring.popped.length = 9 ∧ rec.inHand = 1 ∧
          (memoryFile.contents rec.file.backend).length = SECTOR_SIZE ∧
          ∀ e ∈ rec.ring.accepted, e.kind? ≠ some .endMarker)) = true := by
    decide +kernel
  obtain ⟨rec, performed, summary⟩ := (Option.any_eq_true _ _).mp found
  obtain ⟨nine, held, sector, ordinary⟩ := of_decide_eq_true summary
  have reached : (threads memoryFile (Threads.withCapacity 4) staleMemory).Reachable rec :=
    TransitionSystem.reachable_of_perform rfl performed
  have unfailed : ∀ error, rec.storage ≠ .finished (.error error) := by
    intro error stage
    simp [inHand, stage] at held
  exact ⟨rec, reached, nine, held, sector, recoverable_of_reachable 4 reached ordinary unfailed⟩

end Instance

end Recorder

end Teleop.Analytics
