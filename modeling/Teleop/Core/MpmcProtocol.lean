import Teleop.Core.Mpmc

/-!
# The protocol of positions and cells

Which call holds which position of the ring, and what the cells then show: the
positions from the dequeue to the enqueue counter are written or being written,
those up to a lap behind the dequeue counter are released or being read.  Every
atomic access of every call keeps this, as long as no compare-exchange succeeds
on a counter that has turned round completely since it was loaded.
-/

namespace Teleop.Core

open Teleop.Lib

universe u

variable {T : Type u}

/-- Claimed the enqueue position and did not publish it yet. -/
def Call.Writes : Call T → Nat → Prop
  | .pushWrite _ pos, p | .pushPublish pos, p => pos = p
  | _, _ => False

/-- Claimed the dequeue position and did not release its cell yet. -/
def Call.Reads : Call T → Nat → Prop
  | .popRead pos, p | .popRelease pos _, p => pos = p
  | _, _ => False

def Writing (entry : Option (Call T)) (p : Nat) : Prop := ∃ call, entry = some call ∧ call.Writes p

def Reading (entry : Option (Call T)) (p : Nat) : Prop := ∃ call, entry = some call ∧ call.Reads p

@[simp] theorem writing_some (call : Call T) (p : Nat) : Writing (some call) p ↔ call.Writes p := by
  simp [Writing]

@[simp] theorem reading_some (call : Call T) (p : Nat) : Reading (some call) p ↔ call.Reads p := by
  simp [Reading]

@[simp] theorem writing_none (p : Nat) : ¬ Writing (none : Option (Call T)) p := by simp [Writing]

@[simp] theorem reading_none (p : Nat) : ¬ Reading (none : Option (Call T)) p := by simp [Reading]

namespace MpmcRing

def HasSeq (ring : MpmcRing T) (p seq : Nat) : Prop :=
  ∃ cell, ring.cell p = some cell ∧ cell.seq = seq

theorem HasSeq.unique {ring : MpmcRing T} {p first second : Nat} (left : ring.HasSeq p first)
    (right : ring.HasSeq p second) : first = second := by
  obtain ⟨cell, held, rfl⟩ := left
  obtain ⟨other, heldToo, rfl⟩ := right
  rw [held] at heldToo
  cases heldToo
  rfl

theorem HasSeq.congr {ring : MpmcRing T} {p other seq : Nat} (has : ring.HasSeq p seq)
    (same : maskIndex ring.cap other = maskIndex ring.cap p) : ring.HasSeq other seq := by
  unfold HasSeq cell at has ⊢
  rwa [same]

/-- What holds of a call at each of its stages, given the values pushed so far by position. -/
def CallHolds (ring : MpmcRing T) (pushed : List T) : Call T → Prop
  | .pushLoad _ | .pushed _ | .popLoad | .popped _ => True
  | .pushCheck _ pos => pos ≤ ring.enqueuePos
  | .pushClaim _ pos => pos ≤ ring.enqueuePos ∧ (pos = ring.enqueuePos → ring.HasSeq pos pos)
  | .pushWrite value pos => ring.dequeuePos ≤ pos ∧ pushed[pos]? = some value ∧ ring.HasSeq pos pos
  | .pushPublish pos =>
      ring.dequeuePos ≤ pos ∧
        ∃ value, pushed[pos]? = some value ∧ ring.cell pos = some ⟨pos, some value⟩
  | .popCheck pos => pos ≤ ring.dequeuePos
  | .popClaim pos => pos ≤ ring.dequeuePos ∧ (pos = ring.dequeuePos → ring.HasSeq pos (pos + 1))
  | .popRead pos =>
      pos < ring.dequeuePos ∧ ring.enqueuePos ≤ pos + ring.cap ∧
        ∃ value, pushed[pos]? = some value ∧ ring.cell pos = some ⟨pos + 1, some value⟩
  | .popRelease pos value =>
      pos < ring.dequeuePos ∧ ring.enqueuePos ≤ pos + ring.cap ∧ pushed[pos]? = some value ∧
        ring.HasSeq pos (pos + 1)

/-- The ring, the calls in progress by identifier and the values pushed so far agree. -/
structure Protocol (ring : MpmcRing T) (calls : Nat → Option (Call T)) (pushed : List T) :
    Prop where
  rounded : ring.Rounded
  enqueued : ring.enqueuePos = pushed.length
  le : ring.dequeuePos ≤ ring.enqueuePos
  room : ring.enqueuePos ≤ ring.dequeuePos + ring.cap
  full : ∀ p value, ring.dequeuePos ≤ p → pushed[p]? = some value →
    (∀ id, ¬ Writing (calls id) p) → ring.cell p = some ⟨p + 1, some value⟩
  free : ∀ p, ring.enqueuePos ≤ p → p < ring.dequeuePos + ring.cap →
    (∀ id q, Reading (calls id) q → q + ring.cap ≠ p) → ring.HasSeq p p
  holds : ∀ id call, calls id = some call → ring.CallHolds pushed call
  oneWriter : ∀ id other p, Writing (calls id) p → Writing (calls other) p → id = other
  oneReader : ∀ id other p, Reading (calls id) p → Reading (calls other) p → id = other

section Facts

variable {ring : MpmcRing T} {calls : Nat → Option (Call T)} {pushed : List T}

theorem CallHolds.of_writes {call : Call T} {p : Nat} (holds : ring.CallHolds pushed call)
    (writes : call.Writes p) :
    ring.dequeuePos ≤ p ∧ p < pushed.length ∧ ring.HasSeq p p := by
  cases call with
  | pushWrite value pos =>
      obtain rfl : pos = p := writes
      exact ⟨holds.1, (List.getElem?_eq_some_iff.mp holds.2.1).1, holds.2.2⟩
  | pushPublish pos =>
      obtain rfl : pos = p := writes
      obtain ⟨late, value, pushedHere, held⟩ := holds
      exact ⟨late, (List.getElem?_eq_some_iff.mp pushedHere).1, _, held, rfl⟩
  | _ => exact absurd writes id

theorem CallHolds.of_reads {call : Call T} {p : Nat} (holds : ring.CallHolds pushed call)
    (reads : call.Reads p) :
    p < ring.dequeuePos ∧ ring.enqueuePos ≤ p + ring.cap ∧ ring.HasSeq p (p + 1) ∧
      ∃ value, pushed[p]? = some value := by
  cases call with
  | popRead pos =>
      obtain rfl : pos = p := reads
      obtain ⟨early, near, value, pushedHere, held⟩ := holds
      exact ⟨early, near, ⟨_, held, rfl⟩, value, pushedHere⟩
  | popRelease pos value =>
      obtain rfl : pos = p := reads
      exact ⟨holds.1, holds.2.1, holds.2.2.2, value, holds.2.2.1⟩
  | _ => exact absurd reads id

theorem Protocol.of_writing (protocol : ring.Protocol calls pushed) {id p : Nat}
    (writing : Writing (calls id) p) :
    ring.dequeuePos ≤ p ∧ p < ring.enqueuePos ∧ ring.HasSeq p p := by
  obtain ⟨call, held, writes⟩ := writing
  rw [protocol.enqueued]
  exact (protocol.holds id call held).of_writes writes

theorem Protocol.of_reading (protocol : ring.Protocol calls pushed) {id p : Nat}
    (reading : Reading (calls id) p) :
    p < ring.dequeuePos ∧ ring.enqueuePos ≤ p + ring.cap ∧ ring.HasSeq p (p + 1) ∧
      ∃ value, pushed[p]? = some value := by
  obtain ⟨call, held, reads⟩ := reading
  exact (protocol.holds id call held).of_reads reads

/-- The cell of the next enqueue position: free, still being read a lap behind, or holding
the oldest value of a full ring. -/
theorem Protocol.enqueue_cases (protocol : ring.Protocol calls pushed) :
    (ring.enqueuePos < ring.dequeuePos + ring.cap ∧
      (∀ id q, Reading (calls id) q → q + ring.cap ≠ ring.enqueuePos) ∧
      ring.HasSeq ring.enqueuePos ring.enqueuePos) ∨
    (∃ id q, Reading (calls id) q ∧ q + ring.cap = ring.enqueuePos ∧
      ring.HasSeq ring.enqueuePos (q + 1)) ∨
    (ring.enqueuePos = ring.dequeuePos + ring.cap ∧
      (ring.HasSeq ring.enqueuePos (ring.dequeuePos + 1) ∨
        ring.HasSeq ring.enqueuePos ring.dequeuePos)) := by
  have lap := protocol.rounded.index_lap
  rcases Nat.lt_or_ge ring.enqueuePos (ring.dequeuePos + ring.cap) with space | full
  · by_cases read : ∃ id q, Reading (calls id) q ∧ q + ring.cap = ring.enqueuePos
    · obtain ⟨id, q, reading, behind⟩ := read
      have has := (protocol.of_reading reading).2.2.1
      exact .inr (.inl ⟨id, q, reading, behind, has.congr (by rw [← behind, lap])⟩)
    · have unread : ∀ id q, Reading (calls id) q → q + ring.cap ≠ ring.enqueuePos :=
        fun id q reading behind => read ⟨id, q, reading, behind⟩
      exact .inl ⟨space, unread, protocol.free _ (Nat.le_refl _) space unread⟩
  · have equal : ring.enqueuePos = ring.dequeuePos + ring.cap := Nat.le_antisymm protocol.room full
    have positive := protocol.rounded.pos
    have same : maskIndex ring.cap ring.enqueuePos = maskIndex ring.cap ring.dequeuePos := by
      rw [equal, lap]
    refine .inr (.inr ⟨equal, ?_⟩)
    by_cases written : ∃ id, Writing (calls id) ring.dequeuePos
    · obtain ⟨id, writing⟩ := written
      exact .inr ((protocol.of_writing writing).2.2.congr same)
    · have inside : ring.dequeuePos < pushed.length := by
        rw [← protocol.enqueued]
        omega
      have cell := protocol.full _ _ (Nat.le_refl _) (List.getElem?_eq_getElem inside)
        fun id writing => written ⟨id, writing⟩
      have has : ring.HasSeq ring.dequeuePos (ring.dequeuePos + 1) := ⟨_, cell, rfl⟩
      exact .inl (has.congr same)

/-- The cell of the next dequeue position: holding the oldest value, still being written, or
of an empty ring. -/
theorem Protocol.dequeue_cases (protocol : ring.Protocol calls pushed) :
    (ring.dequeuePos < ring.enqueuePos ∧ (∀ id, ¬ Writing (calls id) ring.dequeuePos) ∧
      ∃ value, pushed[ring.dequeuePos]? = some value ∧
        ring.cell ring.dequeuePos = some ⟨ring.dequeuePos + 1, some value⟩) ∨
    (∃ id, Writing (calls id) ring.dequeuePos ∧ ring.HasSeq ring.dequeuePos ring.dequeuePos) ∨
    (ring.dequeuePos = ring.enqueuePos ∧
      (ring.HasSeq ring.dequeuePos ring.dequeuePos ∨
        ∃ id q, Reading (calls id) q ∧ q + ring.cap = ring.dequeuePos ∧
          ring.HasSeq ring.dequeuePos (q + 1))) := by
  rcases Nat.lt_or_ge ring.dequeuePos ring.enqueuePos with occupied | empty
  · by_cases written : ∃ id, Writing (calls id) ring.dequeuePos
    · obtain ⟨id, writing⟩ := written
      exact .inr (.inl ⟨id, writing, (protocol.of_writing writing).2.2⟩)
    · have unwritten : ∀ id, ¬ Writing (calls id) ring.dequeuePos :=
        fun id writing => written ⟨id, writing⟩
      have inside : ring.dequeuePos < pushed.length := by
        rw [← protocol.enqueued]
        exact occupied
      have oldest := List.getElem?_eq_getElem inside
      exact .inl ⟨occupied, unwritten, _, oldest,
        protocol.full _ _ (Nat.le_refl _) oldest unwritten⟩
  · have equal : ring.dequeuePos = ring.enqueuePos := Nat.le_antisymm protocol.le empty
    refine .inr (.inr ⟨equal, ?_⟩)
    have positive := protocol.rounded.pos
    rcases protocol.enqueue_cases with ⟨_, _, has⟩ | ⟨id, q, reading, behind, has⟩ | ⟨full, _⟩
    · exact .inl (by rw [equal]; exact has)
    · exact .inr ⟨id, q, reading, by rw [equal]; exact behind, by rw [equal]; exact has⟩
    · omega

/-- A sequence number that looks equal to the next enqueue position is equal to it. -/
theorem Protocol.hasSeq_enqueue (protocol : ring.Protocol calls pushed) {cell : Cell T}
    (held : ring.cell ring.enqueuePos = some cell)
    (looks : cursor cell.seq = cursor ring.enqueuePos) :
    ring.HasSeq ring.enqueuePos ring.enqueuePos := by
  have here : ring.HasSeq ring.enqueuePos cell.seq := ⟨cell, held, rfl⟩
  have bound := protocol.rounded.le
  have positive := protocol.rounded.pos
  have near : cell.seq ≤ ring.enqueuePos ∧ ring.enqueuePos ≤ cell.seq + ring.cap := by
    rcases protocol.enqueue_cases with
      ⟨_, _, has⟩ | ⟨_, q, _, behind, has⟩ | ⟨full, has | has⟩ <;>
    · have seq := here.unique has
      omega
  have equal := cursor_inj near.1 (by omega) looks.symm
  rwa [← equal] at here

/-- A sequence number that looks one ahead of the next dequeue position is one ahead. -/
theorem Protocol.hasSeq_dequeue (protocol : ring.Protocol calls pushed) {cell : Cell T}
    (held : ring.cell ring.dequeuePos = some cell)
    (looks : cursor cell.seq = cursor (ring.dequeuePos + 1)) :
    ring.HasSeq ring.dequeuePos (ring.dequeuePos + 1) := by
  have here : ring.HasSeq ring.dequeuePos cell.seq := ⟨cell, held, rfl⟩
  have bound := protocol.rounded.le
  have positive := protocol.rounded.pos
  have near : cell.seq ≤ ring.dequeuePos + 1 ∧ ring.dequeuePos ≤ cell.seq + ring.cap := by
    rcases protocol.dequeue_cases with
      ⟨_, _, value, _, oldest⟩ | ⟨_, _, has⟩ | ⟨_, has | ⟨_, q, _, behind, has⟩⟩
    · have seq := here.unique ⟨_, oldest, rfl⟩
      dsimp only at seq
      omega
    all_goals
      have seq := here.unique has
      omega
  have equal := cursor_inj near.1 (by omega) looks.symm
  rwa [← equal] at here

/-- With two cells or more, the sequence number alone shows that the next enqueue position
can be claimed. -/
theorem Protocol.claimable (protocol : ring.Protocol calls pushed) (two : 2 ≤ ring.cap)
    (has : ring.HasSeq ring.enqueuePos ring.enqueuePos) :
    ring.enqueuePos < ring.dequeuePos + ring.cap ∧
      ∀ id q, Reading (calls id) q → q + ring.cap ≠ ring.enqueuePos := by
  rcases protocol.enqueue_cases with
    ⟨space, unread, _⟩ | ⟨_, q, _, behind, other⟩ | ⟨full, other | other⟩
  · exact ⟨space, unread⟩
  all_goals
    have seq := has.unique other
    omega

/-- A claimed dequeue position holds the oldest value, fully written. -/
theorem Protocol.oldest_of_hasSeq (protocol : ring.Protocol calls pushed)
    (has : ring.HasSeq ring.dequeuePos (ring.dequeuePos + 1)) :
    ring.dequeuePos < ring.enqueuePos ∧ (∀ id, ¬ Writing (calls id) ring.dequeuePos) ∧
      ∃ value, pushed[ring.dequeuePos]? = some value ∧
        ring.cell ring.dequeuePos = some ⟨ring.dequeuePos + 1, some value⟩ := by
  have positive := protocol.rounded.pos
  rcases protocol.dequeue_cases with oldest | ⟨_, _, other⟩ | ⟨_, other | ⟨_, q, _, behind, other⟩⟩
  · exact oldest
  all_goals
    have seq := has.unique other
    omega

end Facts

end MpmcRing

end Teleop.Core
