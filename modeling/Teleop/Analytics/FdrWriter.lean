import Mathlib.Data.List.TakeWhile
import Teleop.Analytics.DirectFile
import Teleop.Analytics.FdrEntry
import Teleop.Ring.Spsc

/-!
# The writer of the flight recorder

Frames are pushed into a ring and drained into a direct file.  In whatever groups they are
drained, the closed file is read back as the frames that were pushed, whole sectors of it.
-/

namespace Teleop.Analytics

open Teleop.Lib Teleop.Ring FdrEntry

/-- The consumer side: it drains the ring into the file. -/
structure FdrWriter (B : Type) where
  ring : SpscRing FdrEntry
  file : DirectFile B

namespace FdrWriter

variable {B E : Type} (backend : Backend B E)

def drainLoop : Nat → Nat → FdrWriter B → Except E (Nat × FdrWriter B)
  | 0, n, writer => .ok (n, writer)
  | fuel + 1, n, writer =>
      match writer.ring.pop with
      | none => .ok (n, writer)
      | some (e, ring) => do
          let file ← writer.file.write backend e.bytesOf
          drainLoop fuel (n + 1) { ring := ring, file := file }

/-- Drains every frame the ring holds, and says how many. -/
def drainOnce (writer : FdrWriter B) : Except E (Nat × FdrWriter B) :=
  drainLoop backend (writer.ring.items.length + 1) 0 writer

/-- The end marker and the flush with which the storage thread closes the file. -/
def close (file : DirectFile B) : Except E (DirectFile B) := do
  let marked ← file.write backend endOfStream.bytesOf
  marked.flush backend

variable {backend} {writer target : FdrWriter B} {drained : List FdrEntry}

/-- A drain writes the frames of the ring in order and leaves it empty. -/
theorem settled_drainLoop {fuel n count : Nat}
    (settled : writer.file.Settled backend (frames drained))
    (enough : writer.ring.items.length < fuel)
    (done : drainLoop backend fuel n writer = .ok (count, target)) :
    target.file.Settled backend (frames (drained ++ writer.ring.items)) ∧
      target.ring.items = [] ∧ count = n + writer.ring.items.length := by
  induction fuel generalizing writer drained n with
  | zero => exact absurd enough (Nat.not_lt_zero _)
  | succ fuel inductionHypothesis =>
      rw [drainLoop] at done
      cases popped : writer.ring.pop with
      | none =>
          rw [popped] at done
          cases done
          have empty := SpscRing.items_of_pop_none popped
          rw [empty, List.append_nil]
          exact ⟨settled, rfl, rfl⟩
      | some pair =>
          obtain ⟨e, ring⟩ := pair
          rw [popped] at done
          obtain ⟨file, wrote, further⟩ := ok_of_bind done
          have items := SpscRing.items_of_pop popped
          have next := settled.write wrote
          rw [← frames_concat] at next
          have fewer : ring.items.length < fuel := by
            rw [items, List.length_cons] at enough
            exact Nat.lt_of_succ_lt_succ enough
          obtain ⟨full, empty, counted⟩ := inductionHypothesis next fewer further
          rw [List.append_assoc, List.singleton_append] at full
          rw [items, List.length_cons]
          refine ⟨full, empty, ?_⟩
          dsimp only at counted
          omega

theorem settled_drainOnce {count : Nat}
    (settled : writer.file.Settled backend (frames drained))
    (done : writer.drainOnce backend = .ok (count, target)) :
    target.file.Settled backend (frames (drained ++ writer.ring.items)) ∧
      target.ring.items = [] ∧ count = writer.ring.items.length := by
  obtain ⟨full, empty, counted⟩ := settled_drainLoop settled (Nat.lt_succ_self _) done
  exact ⟨full, empty, counted.trans (Nat.zero_add _)⟩

/-- A closed file holds the frames, the end marker and zeros up to whole sectors. -/
def image (entries : List FdrEntry) : List UInt8 :=
  padded SECTOR_SIZE 0 (frames entries ++ endOfStream.bytesOf)

theorem close_settled {file closed : DirectFile B} (settled : file.Settled backend (frames drained))
    (done : close backend file = .ok closed) :
    closed.Settled backend (image drained) ∧ closed.stagingLen = 0 := by
  obtain ⟨marked, wrote, flushed⟩ := ok_of_bind done
  exact (settled.write wrote).flush flushed

theorem length_marked (entries : List FdrEntry) :
    (frames entries ++ endOfStream.bytesOf).length = (entries.length + 1) * SIZE := by
  rw [List.length_append, length_frames, length_bytesOf, Nat.succ_mul]

theorem length_image_le (entries : List FdrEntry) :
    (image entries).length ≤ (entries.length + 1) * SIZE + SECTOR_SIZE := by
  have filled := length_padded_le (show 0 < SECTOR_SIZE by decide) 0
    (frames entries ++ endOfStream.bytesOf)
  rwa [length_marked] at filled

/-- Files of different length are different: the end marker of the longer one stands where
the shorter one has zeros. -/
theorem image_ne {fewer entries : List FdrEntry} (short : fewer.length < entries.length) :
    image entries ≠ image fewer := by
  intro same
  have mark : endOfStream.bytesOf[10]? = some 255 := by decide
  have there : (image entries)[entries.length * SIZE + 10]? = some 255 := by
    have inside : entries.length * SIZE + 10 < (frames entries ++ endOfStream.bytesOf).length := by
      rw [length_marked, Nat.succ_mul]
      exact Nat.add_lt_add_left (by decide) _
    rw [image, padded, List.getElem?_append_left inside,
      List.getElem?_append_right (by rw [length_frames]; exact Nat.le_add_right _ _), length_frames,
      Nat.add_sub_cancel_left]
    exact mark
  rw [same] at there
  have behind : (frames fewer ++ endOfStream.bytesOf).length ≤ entries.length * SIZE + 10 := by
    rw [length_marked]
    exact (Nat.mul_le_mul_right SIZE short).trans (Nat.le_add_right _ _)
  exact absurd (eq_filler_of_getElem behind there) (by decide)

theorem parseEntries_image (entries : List FdrEntry) :
    parseEntries (image entries) = entries.takeWhile fun e => e.kind? ≠ some .endMarker := by
  rw [image, padded, List.append_assoc]
  exact parseEntries_frames entries _

end FdrWriter

section Sessions

variable {B E : Type} (backend : Backend B E)

/-- What is done with a recorder: a frame is pushed, or the ring is drained once. -/
inductive Op where
  | push (e : FdrEntry)
  | drainOnce

/-- A writer, and the frames its ring has accepted so far. -/
structure Session (B : Type) where
  writer : FdrWriter B
  accepted : List FdrEntry

namespace Session

/-- A new ring and a new file. -/
def openSession (memory : AlignedBuf) (capacity : Nat) : Session B where
  writer := { ring := .withCapacity capacity, file := .openFile backend memory }
  accepted := []

def step (session : Session B) : Op → Except E (Session B)
  | .push e =>
      match session.writer.ring.push e with
      | .ok ring => .ok {
          writer := { session.writer with ring := ring }
          accepted := session.accepted ++ [e] }
      | .error _ => .ok session
  | .drainOnce => do
      let (_, writer) ← session.writer.drainOnce backend
      .ok { session with writer := writer }

def run : Session B → List Op → Except E (Session B)
  | session, [] => .ok session
  | session, op :: rest => do
      let next ← session.step backend op
      run next rest

variable {backend} {session target : Session B}

/-- What was accepted is in the file or still in the ring. -/
def Holds (backend : Backend B E) (session : Session B) : Prop :=
  ∃ drained, session.writer.file.Settled backend (frames drained) ∧
    drained ++ session.writer.ring.items = session.accepted

theorem holds_step (holds : session.Holds backend) {op : Op}
    (stepped : session.step backend op = .ok target) : target.Holds backend := by
  obtain ⟨drained, settled, accepted⟩ := holds
  cases op with
  | push e =>
      rw [step] at stepped
      split at stepped
      · rename_i ring pushed
        cases stepped
        refine ⟨drained, settled, ?_⟩
        rw [SpscRing.items_of_push pushed, ← accepted, List.append_assoc]
      · cases stepped
        exact ⟨drained, settled, accepted⟩
  | drainOnce =>
      obtain ⟨⟨count, writer⟩, done, result⟩ := ok_of_bind stepped
      cases result
      obtain ⟨full, empty, -⟩ := FdrWriter.settled_drainOnce settled done
      refine ⟨drained ++ session.writer.ring.items, full, ?_⟩
      rw [empty, List.append_nil, accepted]

theorem holds_run (holds : session.Holds backend) {ops : List Op}
    (ran : session.run backend ops = .ok target) : target.Holds backend := by
  induction ops generalizing session with
  | nil =>
      cases ran
      exact holds
  | cons op rest inductionHypothesis =>
      obtain ⟨next, stepped, further⟩ := ok_of_bind ran
      exact inductionHypothesis (holds_step holds stepped) further

theorem run_append {first second : List Op} (ran : session.run backend (first ++ second) = .ok target) :
    ∃ middle, session.run backend first = .ok middle ∧ middle.run backend second = .ok target := by
  induction first generalizing session with
  | nil => exact ⟨session, rfl, ran⟩
  | cons op rest inductionHypothesis =>
      obtain ⟨next, stepped, further⟩ := ok_of_bind ran
      obtain ⟨middle, before, after⟩ := inductionHypothesis further
      exact ⟨middle, bind_of_ok stepped before, after⟩

/-- After a last drain everything accepted is in the file. -/
theorem settled_of_drained (holds : session.Holds backend)
    (ran : session.run backend [.drainOnce] = .ok target) :
    target.writer.file.Settled backend (frames target.accepted) := by
  obtain ⟨drained, settled, accepted⟩ := holds
  obtain ⟨next, stepped, finished⟩ := ok_of_bind ran
  cases finished
  obtain ⟨⟨count, writer⟩, done, result⟩ := ok_of_bind stepped
  cases result
  obtain ⟨full, -, -⟩ := FdrWriter.settled_drainOnce settled done
  rwa [accepted] at full

theorem holds_openSession (memory : AlignedBuf) (capacity : Nat) :
    (openSession backend memory capacity).Holds backend :=
  ⟨[], DirectFile.settled_openFile memory, rfl⟩

end Session

/-- In whatever groups the frames are drained, the closed file is read back as the frames
that were accepted; it consists of whole sectors, as many bytes as were counted. -/
theorem Session.parse_closed {backend : Backend B E} {memory : AlignedBuf} {capacity : Nat}
    {ops : List Op} {session : Session B} {file : DirectFile B}
    (recorded : (openSession backend memory capacity).run backend (ops ++ [.drainOnce]) =
      .ok session)
    (closed : FdrWriter.close backend session.writer.file = .ok file)
    (ordinary : ∀ e ∈ session.accepted, e.kind? ≠ some .endMarker) :
    parseEntries (backend.contents file.backend) = session.accepted ∧
      SECTOR_SIZE ∣ (backend.contents file.backend).length ∧
      (backend.contents file.backend).length = file.written.toNat ∧
      ∀ block ∈ file.blocks, block.length = SECTOR_SIZE := by
  obtain ⟨middle, ran, drained⟩ := run_append recorded
  have settled := settled_of_drained (holds_run (holds_openSession memory capacity) ran) drained
  obtain ⟨whole, empty⟩ := FdrWriter.close_settled settled closed
  obtain ⟨contents, sectors, counted, sized⟩ := whole.whole empty
  refine ⟨?_, sectors, counted, sized⟩
  rw [contents, FdrWriter.parseEntries_image]
  apply List.takeWhile_eq_self_iff.mpr
  intro e among
  exact decide_eq_true (ordinary e among)

end Sessions

section Accepted

variable {B E : Type} {backend : Backend B E} {limit : Nat} (accepts : backend.Accepts limit)

include accepts

theorem FdrWriter.drainLoop_accepted {writer : FdrWriter B} {drained : List FdrEntry}
    (settled : writer.file.Settled backend (frames drained))
    (room : (frames (drained ++ writer.ring.items)).length ≤ limit) (fuel n : Nat) :
    ∃ result, drainLoop backend fuel n writer = .ok result := by
  induction fuel generalizing writer drained n with
  | zero => exact ⟨_, rfl⟩
  | succ fuel inductionHypothesis =>
      rw [drainLoop]
      cases popped : writer.ring.pop with
      | none => exact ⟨_, rfl⟩
      | some pair =>
          obtain ⟨e, ring⟩ := pair
          have items := SpscRing.items_of_pop popped
          rw [items, ← List.singleton_append, ← List.append_assoc] at room
          have part : (frames drained).length + e.bytesOf.length ≤ limit := by
            rw [← List.length_append, ← frames_concat]
            rw [frames_append, List.length_append] at room
            exact Nat.le_of_add_right_le room
          obtain ⟨file, wrote⟩ := settled.write_accepted accepts e.bytesOf part
          have next := settled.write wrote
          rw [← frames_concat] at next
          have later : ∃ result, drainLoop backend fuel (n + 1) ⟨ring, file⟩ = .ok result :=
            inductionHypothesis next room (n + 1)
          obtain ⟨result, done⟩ := later
          exact ⟨result, bind_of_ok wrote done⟩

/-- Within the limit of the backend a session does not fail. -/
theorem Session.run_accepted {session : Session B} (holds : session.Holds backend) (ops : List Op)
    (room : (session.accepted.length + ops.length) * SIZE ≤ limit) :
    ∃ target, session.run backend ops = .ok target ∧
      target.accepted.length ≤ session.accepted.length + ops.length := by
  induction ops generalizing session with
  | nil => exact ⟨session, rfl, Nat.le_refl _⟩
  | cons op rest inductionHypothesis =>
      obtain ⟨next, stepped, grown⟩ : ∃ next, session.step backend op = .ok next ∧
          next.accepted.length ≤ session.accepted.length + 1 := by
        cases op with
        | push e =>
            rw [step]
            split
            · exact ⟨_, rfl, by rw [List.length_append, List.length_singleton]⟩
            · exact ⟨_, rfl, Nat.le_succ _⟩
        | drainOnce =>
            obtain ⟨drained, settled, accepted⟩ := holds
            have fits : (frames (drained ++ session.writer.ring.items)).length ≤ limit := by
              rw [accepted, length_frames]
              exact (Nat.mul_le_mul_right SIZE (Nat.le_add_right _ _)).trans room
            obtain ⟨⟨count, writer⟩, done⟩ :=
              FdrWriter.drainLoop_accepted accepts settled fits _ 0
            exact ⟨_, bind_of_ok done rfl, Nat.le_succ _⟩
      have bound : next.accepted.length + rest.length ≤
          session.accepted.length + (rest.length + 1) := by
        omega
      rw [List.length_cons] at room ⊢
      obtain ⟨target, ran, length⟩ := inductionHypothesis (holds_step holds stepped)
        ((Nat.mul_le_mul_right SIZE bound).trans room)
      exact ⟨target, bind_of_ok stepped ran, length.trans bound⟩

theorem FdrWriter.close_accepted {file : DirectFile B} {drained : List FdrEntry}
    (settled : file.Settled backend (frames drained)) (room : (image drained).length ≤ limit) :
    ∃ closed, close backend file = .ok closed := by
  have part : (frames drained).length + endOfStream.bytesOf.length ≤ limit := by
    rw [image, padded, List.length_append, List.length_append] at room
    omega
  obtain ⟨marked, wrote⟩ := settled.write_accepted accepts _ part
  obtain ⟨closed, flushed⟩ := (settled.write wrote).flush_accepted accepts room
  exact ⟨closed, bind_of_ok wrote flushed⟩

end Accepted

section Instance

/-- Contents no longer than a file can be. -/
abbrev FileBytes := { bytes : List UInt8 // bytes.length < 2 ^ 63 }

/-- A file in memory that takes every write whole. -/
def memoryKernel : Kernel FileBytes Unit where
  contents k := k.val
  opened := ⟨[], by decide⟩
  write k buf :=
    if room : (k.val ++ buf).length < 2 ^ 63 then .ok (buf.length, ⟨k.val ++ buf, room⟩)
    else .error ()
  fsync k := k
  truncated := rfl
  counted := by
    intro k later buf n wrote nonempty
    split at wrote
    · cases wrote
      exact ⟨List.length_pos_iff.mpr nonempty, Nat.le_refl _, by rw [List.take_length]⟩
    · cases wrote
  synced _ := rfl
  limited k := k.property

abbrev memoryFile : Backend FileBytes Unit := RawFile.backend memoryKernel

theorem accepts_memoryFile : memoryFile.Accepts (2 ^ 63 - 1) where
  write := by
    intro b block room
    have fits : (b.val ++ block).length < 2 ^ 63 := by
      rw [List.length_append]
      have short : b.val.length + block.length ≤ 2 ^ 63 - 1 := room
      omega
    cases block with
    | nil => exact ⟨b, rfl⟩
    | cons x rest =>
        have called : memoryKernel.write b (x :: rest) =
            .ok ((x :: rest).length, ⟨b.val ++ x :: rest, fits⟩) := dif_pos fits
        have finished : RawFile.writeLoop memoryKernel rest.length ⟨b.val ++ x :: rest, fits⟩
            ((x :: rest).drop (x :: rest).length) = .ok ⟨b.val ++ x :: rest, fits⟩ := by
          rw [List.drop_length]
          cases rest with
          | nil => rfl
          | cons y rest => rfl
        exact ⟨_, bind_of_ok called finished⟩
  flush b := ⟨_, rfl⟩

/-- A buffer as the allocator returns it. -/
def staleMemory : AlignedBuf where
  bytes := .replicate STAGING_CAP 0xFF
  sized := List.length_replicate

def gpsFrame (timestampNs : UInt64) : FdrEntry where
  timestampNs := timestampNs
  payloadLen := .ofNat 64
  kind := RecordKind.gps.toU8
  pad := 0
  reserved := 0
  payload := .replicate MAX_PAYLOAD 1
  sized := List.length_replicate ..

/-- Frames that the ring has room for are all accepted. -/
theorem Session.accepted_of_pushes {B E : Type} {backend : Backend B E}
    {session target : Session B} {entries : List FdrEntry}
    (room : session.writer.ring.items.length + entries.length ≤ session.writer.ring.capacity)
    (ran : session.run backend (entries.map .push ++ [.drainOnce]) = .ok target) :
    target.accepted = session.accepted ++ entries := by
  induction entries generalizing session with
  | nil =>
      obtain ⟨next, drained, finished⟩ := ok_of_bind ran
      cases finished
      obtain ⟨result, -, rest⟩ := ok_of_bind drained
      cases rest
      exact (List.append_nil _).symm
  | cons e others inductionHypothesis =>
      rw [List.length_cons] at room
      obtain ⟨next, pushed, further⟩ := ok_of_bind ran
      rw [step] at pushed
      split at pushed
      · rename_i ring grown
        cases pushed
        have items := SpscRing.items_of_push grown
        have capacity := SpscRing.capacity_of_push grown
        rw [inductionHypothesis _ further, List.append_assoc, List.singleton_append]
        dsimp only
        rw [items, capacity, List.length_append, List.length_singleton]
        omega
      · rename_i full
        exact absurd (SpscRing.full_of_push full) (by omega)

/-- Nine frames, one sector and a part of another. -/
def nineFrames : List FdrEntry := (List.range 9).map fun i => gpsFrame (.ofNat i)

theorem ordinary_nineFrames : ∀ e ∈ nineFrames, e.kind? ≠ some .endMarker := by
  intro e among
  obtain ⟨i, -, rfl⟩ := List.mem_map.mp among
  exact show some RecordKind.gps ≠ some RecordKind.endMarker by decide

theorem Session.parse_closed_nine :
    ∃ session file,
      (openSession memoryFile staleMemory 16).run memoryFile
        (nineFrames.map .push ++ [.drainOnce]) = .ok session ∧
      FdrWriter.close memoryFile session.writer.file = .ok file ∧
      parseEntries (memoryFile.contents file.backend) = nineFrames ∧
      (memoryFile.contents file.backend).length = file.written.toNat := by
  have holds : (openSession memoryFile staleMemory 16).Holds
      memoryFile := holds_openSession staleMemory 16
  obtain ⟨session, ran, -⟩ := run_accepted accepts_memoryFile holds
    (nineFrames.map .push ++ [.drainOnce]) (by decide)
  have accepted : session.accepted = nineFrames := accepted_of_pushes (by decide) ran
  obtain ⟨middle, before, drained⟩ := run_append ran
  have settled := settled_of_drained (holds_run holds before) drained
  obtain ⟨file, closed⟩ := FdrWriter.close_accepted accepts_memoryFile settled (by
    rw [accepted]
    exact (FdrWriter.length_image_le _).trans (by decide))
  have ordinary : ∀ e ∈ session.accepted, e.kind? ≠ some .endMarker := by
    rw [accepted]
    exact ordinary_nineFrames
  obtain ⟨parsed, -, counted, -⟩ := parse_closed ran closed ordinary
  exact ⟨session, file, ran, closed, by rw [← accepted]; exact parsed, counted⟩

end Instance

end Teleop.Analytics
