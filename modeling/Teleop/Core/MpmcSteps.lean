import Teleop.Core.MpmcProtocol

/-!
# Every access keeps the protocol

One lemma for each access that changes the ring: the two claims, the write of a
value, its publication and the release of a cell.  All other accesses only move
their call on.
-/

namespace Teleop.Core.MpmcRing

open Teleop.Lib

universe u

variable {T : Type u} {ring : MpmcRing T} {calls : Nat → Option (Call T)} {pushed : List T}

theorem at_update (W : Option (Call T) → Nat → Prop) (calls : Nat → Option (Call T)) (id : Nat)
    (entry : Option (Call T)) (other p : Nat) :
    W (Function.update calls id entry other) p ↔
      if other = id then W entry p else W (calls other) p := by
  by_cases same : other = id
  · subst same
    simp
  · simp [same]

/-- At most one call in a role stays at most one, if the same calls are in it. -/
theorem unique_of_iff {A B : Nat → Nat → Prop} (same : ∀ other p, A other p ↔ B other p)
    (unique : ∀ one other p, B one p → B other p → one = other) :
    ∀ one other p, A one p → A other p → one = other := by
  intro one other p first second
  exact unique one other p ((same one p).mp first) ((same other p).mp second)

/-- At most one call in a role stays at most one, if the call in its place is the only one
where it takes the role. -/
theorem unique_update {W : Option (Call T) → Nat → Prop} {id : Nat} {entry : Option (Call T)}
    (unique : ∀ one other p, W (calls one) p → W (calls other) p → one = other)
    (alone : ∀ other p, other ≠ id → W entry p → ¬ W (calls other) p) :
    ∀ one other p, W (Function.update calls id entry one) p →
      W (Function.update calls id entry other) p → one = other := by
  intro one other p first second
  rw [at_update W] at first second
  by_cases left : one = id <;> by_cases right : other = id
  · rw [left, right]
  · rw [if_pos left] at first
    rw [if_neg right] at second
    exact absurd second (alone other p right first)
  · rw [if_neg left] at first
    rw [if_pos right] at second
    exact absurd first (alone one p left second)
  · rw [if_neg left] at first
    rw [if_neg right] at second
    exact unique one other p first second

/-- A role that the call in its place plays as the one before is played as before. -/
theorem same_update {W : Option (Call T) → Nat → Prop} {id : Nat} {entry : Option (Call T)}
    (same : ∀ p, W entry p ↔ W (calls id) p) (other p : Nat) :
    W (Function.update calls id entry other) p ↔ W (calls other) p := by
  rw [at_update W]
  split
  · rename_i here
    rw [here, same]
  · rfl

theorem holds_update {P : Call T → Prop} {id : Nat} {entry : Option (Call T)}
    (here : ∀ call, entry = some call → P call)
    (others : ∀ other call, other ≠ id → calls other = some call → P call) :
    ∀ other call, Function.update calls id entry other = some call → P call := by
  intro other call held
  by_cases same : other = id
  · subst same
    rw [Function.update_self] at held
    exact here call held
  · rw [Function.update_of_ne same] at held
    exact others other call same held

/-- A step that leaves the ring alone and the position of its call claimed or unclaimed. -/
theorem Protocol.move (protocol : ring.Protocol calls pushed) {id : Nat}
    {entry : Option (Call T)} (writes : ∀ p, Writing entry p ↔ Writing (calls id) p)
    (reads : ∀ p, Reading entry p ↔ Reading (calls id) p)
    (holds : ∀ call, entry = some call → ring.CallHolds pushed call) :
    ring.Protocol (Function.update calls id entry) pushed := by
  have sameWriting := same_update writes
  have sameReading := same_update reads
  refine { protocol with full := ?_, free := ?_, holds := ?_, oneWriter := ?_, oneReader := ?_ }
  · intro p value late held unwritten
    exact protocol.full p value late held
      fun other writing => unwritten other ((sameWriting other p).mpr writing)
  · intro p late near unread
    exact protocol.free p late near
      fun other q reading => unread other q ((sameReading other q).mpr reading)
  · exact holds_update holds fun other call _ held => protocol.holds other call held
  · exact unique_of_iff sameWriting protocol.oneWriter
  · exact unique_of_iff sameReading protocol.oneReader

/-- What a call says about the cell of a position: of the next one for a call about to claim
it, of its own for a call that claimed one. -/
def ReliesOn (ring : MpmcRing T) : Call T → Nat → Prop
  | .pushClaim _ pos, p => pos = p ∧ pos = ring.enqueuePos
  | .popClaim pos, p => pos = p ∧ pos = ring.dequeuePos
  | .pushWrite _ pos, p | .pushPublish pos, p | .popRead pos, p | .popRelease pos _, p => pos = p
  | _, _ => False

theorem HasSeq.of_cell {other : MpmcRing T} {p seq : Nat} (has : ring.HasSeq p seq)
    (same : other.cell p = ring.cell p) : other.HasSeq p seq := by
  unfold HasSeq at has ⊢
  rwa [same]

/-- Changing cells no call relies on disturbs no call. -/
theorem CallHolds.frame {cells : Nat → Option (Cell T)} {call : Call T}
    (same : ∀ p, ring.ReliesOn call p →
      ({ ring with cells := cells } : MpmcRing T).cell p = ring.cell p)
    (holds : ring.CallHolds pushed call) :
    ({ ring with cells := cells } : MpmcRing T).CallHolds pushed call := by
  cases call with
  | pushClaim value pos =>
      exact ⟨holds.1, fun next => (holds.2 next).of_cell (same pos ⟨rfl, next⟩)⟩
  | pushWrite value pos => exact ⟨holds.1, holds.2.1, holds.2.2.of_cell (same pos rfl)⟩
  | pushPublish pos =>
      obtain ⟨late, value, pushedHere, held⟩ := holds
      exact ⟨late, value, pushedHere, (same pos rfl).trans held⟩
  | popClaim pos =>
      exact ⟨holds.1, fun next => (holds.2 next).of_cell (same pos ⟨rfl, next⟩)⟩
  | popRead pos =>
      obtain ⟨early, near, value, pushedHere, held⟩ := holds
      exact ⟨early, near, value, pushedHere, (same pos rfl).trans held⟩
  | popRelease pos value =>
      exact ⟨holds.1, holds.2.1, holds.2.2.1, holds.2.2.2.of_cell (same pos rfl)⟩
  | _ => exact holds

/-- The next enqueue position goes to the call that claims it. -/
theorem Protocol.enqueue (protocol : ring.Protocol calls pushed) {id : Nat} {value : T}
    (claiming : calls id = some (.pushClaim value ring.enqueuePos))
    (space : ring.enqueuePos < ring.dequeuePos + ring.cap)
    (unread : ∀ id q, Reading (calls id) q → q + ring.cap ≠ ring.enqueuePos) :
    ({ ring with enqueuePos := ring.enqueuePos + 1 } : MpmcRing T).Protocol
      (Function.update calls id (some (.pushWrite value ring.enqueuePos)))
      (pushed ++ [value]) := by
  have enqueued := protocol.enqueued
  have le := protocol.le
  have earlier : ∀ (p : Nat) (held : T), pushed[p]? = some held → (pushed ++ [value])[p]? = some held := by
    intro p held inside
    rw [List.getElem?_append_left (List.getElem?_eq_some_iff.mp inside).1]
    exact inside
  have newest : (pushed ++ [value])[ring.enqueuePos]? = some value := by
    rw [enqueued]
    simp
  have reading : ∀ other q,
      Reading (Function.update calls id (some (.pushWrite value ring.enqueuePos)) other) q ↔
        Reading (calls other) q :=
    same_update (W := Reading) (by simp [claiming, Call.Reads])
  have claimed : ring.HasSeq ring.enqueuePos ring.enqueuePos :=
    protocol.free _ (Nat.le_refl _) space unread
  refine { rounded := protocol.rounded, enqueued := ?_, le := ?_, room := space, full := ?_,
           free := ?_, holds := ?_, oneWriter := ?_, oneReader := ?_ }
  · simp [enqueued]
  · exact Nat.le_succ_of_le le
  · intro p held (late : ring.dequeuePos ≤ p) inside unwritten
    have other : p ≠ ring.enqueuePos := by
      intro same
      refine unwritten id ?_
      rw [at_update Writing, if_pos rfl, writing_some]
      exact same.symm
    have before : p < pushed.length := by
      have bound := (List.getElem?_eq_some_iff.mp inside).1
      rw [List.length_append, List.length_singleton] at bound
      omega
    rw [List.getElem?_append_left before] at inside
    refine protocol.full p held late inside fun writer writing => unwritten writer ?_
    rw [at_update Writing]
    split
    · rename_i same
      rw [same, claiming, writing_some] at writing
      exact absurd writing not_false
    · exact writing
  · intro p (late : ring.enqueuePos + 1 ≤ p) near allowed
    exact protocol.free p (by omega) near
      fun other q held => allowed other q ((reading other q).mpr held)
  · refine holds_update ?_ ?_
    · rintro call ⟨⟩
      exact ⟨le, newest, claimed⟩
    · intro other call different held
      have holds := protocol.holds other call held
      cases call with
      | pushCheck _ pos => exact Nat.le_succ_of_le holds
      | pushClaim _ pos =>
          exact ⟨Nat.le_succ_of_le holds.1, fun next => absurd holds.1 (by
            have : pos = ring.enqueuePos + 1 := next
            omega)⟩
      | pushWrite given pos => exact ⟨holds.1, earlier _ _ holds.2.1, holds.2.2⟩
      | pushPublish pos =>
          obtain ⟨late, given, pushedHere, cell⟩ := holds
          exact ⟨late, given, earlier _ _ pushedHere, cell⟩
      | popRead pos =>
          obtain ⟨early, near, given, pushedHere, cell⟩ := holds
          have apart := unread other pos ⟨_, held, rfl⟩
          exact ⟨early, by show ring.enqueuePos + 1 ≤ pos + ring.cap; omega, given,
            earlier _ _ pushedHere, cell⟩
      | popRelease pos given =>
          have apart := unread other pos ⟨_, held, rfl⟩
          exact ⟨holds.1, by
            have := holds.2.1
            show ring.enqueuePos + 1 ≤ pos + ring.cap
            omega, earlier _ _ holds.2.2.1, holds.2.2.2⟩
      | _ => exact holds
  · refine unique_update protocol.oneWriter fun other p _ here writing => ?_
    obtain rfl : ring.enqueuePos = p := (writing_some _ _).mp here
    exact Nat.lt_irrefl _ (protocol.of_writing writing).2.1
  · exact unique_of_iff reading protocol.oneReader

/-- The next dequeue position goes to the call that claims it. -/
theorem Protocol.dequeue (protocol : ring.Protocol calls pushed) {id : Nat}
    (claiming : calls id = some (.popClaim ring.dequeuePos))
    (has : ring.HasSeq ring.dequeuePos (ring.dequeuePos + 1)) :
    ({ ring with dequeuePos := ring.dequeuePos + 1 } : MpmcRing T).Protocol
      (Function.update calls id (some (.popRead ring.dequeuePos))) pushed := by
  obtain ⟨occupied, unwritten, oldest⟩ := protocol.oldest_of_hasSeq has
  have room := protocol.room
  have writing : ∀ other p,
      Writing (Function.update calls id (some (.popRead ring.dequeuePos)) other) p ↔
        Writing (calls other) p :=
    same_update (W := Writing) (by simp [claiming, Call.Writes])
  have reader : Reading
      (Function.update calls id (some (.popRead ring.dequeuePos)) id) ring.dequeuePos := by
    rw [Function.update_self, reading_some]
    rfl
  refine { rounded := protocol.rounded, enqueued := protocol.enqueued, le := occupied,
           room := ?_, full := ?_, free := ?_, holds := ?_, oneWriter := ?_, oneReader := ?_ }
  · show ring.enqueuePos ≤ ring.dequeuePos + 1 + ring.cap
    omega
  · intro p held (late : ring.dequeuePos + 1 ≤ p) inside free
    exact protocol.full p held (by omega) inside
      fun other written => free other ((writing other p).mpr written)
  · intro p (late : ring.enqueuePos ≤ p) (near : p < ring.dequeuePos + 1 + ring.cap) unread
    have other : ring.dequeuePos + ring.cap ≠ p := unread id ring.dequeuePos reader
    refine protocol.free p late (by omega) fun caller q reading => unread caller q ?_
    rw [at_update Reading]
    split
    · rename_i same
      rw [same, claiming, reading_some] at reading
      exact absurd reading not_false
    · exact reading
  · refine holds_update ?_ ?_
    · rintro call ⟨⟩
      exact ⟨Nat.lt_succ_self _, room, oldest⟩
    · intro other call different held
      have holds := protocol.holds other call held
      cases call with
      | pushWrite value pos =>
          have apart : pos ≠ ring.dequeuePos := by
            rintro rfl
            exact unwritten other ⟨_, held, rfl⟩
          exact ⟨by have := holds.1; show ring.dequeuePos + 1 ≤ pos; omega, holds.2⟩
      | pushPublish pos =>
          have apart : pos ≠ ring.dequeuePos := by
            rintro rfl
            exact unwritten other ⟨_, held, rfl⟩
          exact ⟨by have := holds.1; show ring.dequeuePos + 1 ≤ pos; omega, holds.2⟩
      | popCheck pos => exact Nat.le_succ_of_le holds
      | popClaim pos =>
          exact ⟨Nat.le_succ_of_le holds.1, fun next => absurd holds.1 (by
            have : pos = ring.dequeuePos + 1 := next
            omega)⟩
      | popRead pos => exact ⟨Nat.lt_succ_of_lt holds.1, holds.2⟩
      | popRelease pos value => exact ⟨Nat.lt_succ_of_lt holds.1, holds.2⟩
      | _ => exact holds
  · exact unique_of_iff writing protocol.oneWriter
  · refine unique_update protocol.oneReader fun other p _ here reading => ?_
    obtain rfl : ring.dequeuePos = p := (reading_some _ _).mp here
    exact Nat.lt_irrefl _ (protocol.of_reading reading).1

/-- No other call relies on a cell that is being written. -/
theorem Protocol.apart_of_writing (protocol : ring.Protocol calls pushed) {id p : Nat}
    (writing : Writing (calls id) p) {other : Nat} {call : Call T} (different : other ≠ id)
    (held : calls other = some call) {q : Nat} (relies : ring.ReliesOn call q) :
    maskIndex ring.cap q ≠ maskIndex ring.cap p := by
  obtain ⟨late, early, has⟩ := protocol.of_writing writing
  have room := protocol.room
  have rounded := protocol.rounded
  have holds := protocol.holds other call held
  have byWriter (written : Writing (calls other) q) :
      maskIndex ring.cap q ≠ maskIndex ring.cap p := by
    obtain ⟨lateToo, earlyToo, _⟩ := protocol.of_writing written
    rcases Nat.lt_trichotomy q p with lt | rfl | gt
    · exact rounded.index_ne lt (by omega)
    · exact absurd (protocol.oneWriter other id q written writing) different
    · exact (rounded.index_ne gt (by omega)).symm
  have byReader (read : Reading (calls other) q) :
      maskIndex ring.cap q ≠ maskIndex ring.cap p := by
    obtain ⟨before, near, _⟩ := protocol.of_reading read
    exact rounded.index_ne (by omega) (by omega)
  cases call with
  | pushClaim value pos =>
      obtain ⟨rfl, next⟩ := relies
      intro same
      have seq := (holds.2 next).unique (has.congr same)
      omega
  | pushWrite value pos => exact byWriter ⟨_, held, relies⟩
  | pushPublish pos => exact byWriter ⟨_, held, relies⟩
  | popClaim pos =>
      obtain ⟨rfl, next⟩ := relies
      rcases Nat.lt_or_eq_of_le late with lt | rfl
      · exact rounded.index_ne (by omega) (by omega)
      · have seq := (holds.2 next).unique (by rw [next]; exact has)
        omega
  | popRead pos => exact byReader ⟨_, held, relies⟩
  | popRelease pos value => exact byReader ⟨_, held, relies⟩
  | _ => exact absurd relies not_false

/-- Positions in the window from the dequeue counter on other than a written one have other
cells. -/
theorem Protocol.cell_of_writing (protocol : ring.Protocol calls pushed) {id p : Nat}
    (writing : Writing (calls id) p) (cell : Cell T) {q : Nat} (late : ring.dequeuePos ≤ q)
    (near : q < ring.dequeuePos + ring.cap) (different : q ≠ p) :
    (ring.setCell p cell).cell q = ring.cell q := by
  obtain ⟨lateToo, early, _⟩ := protocol.of_writing writing
  have room := protocol.room
  have rounded := protocol.rounded
  apply cell_setCell_of_ne
  rcases Nat.lt_or_gt_of_ne different with lt | gt
  · exact rounded.index_ne lt (by omega)
  · exact (rounded.index_ne gt (by omega)).symm

/-- A change of a cell that is being written leaves the free cells free. -/
theorem Protocol.free_of_writing (protocol : ring.Protocol calls pushed) {id pos : Nat}
    (mine : Writing (calls id) pos) (cell : Cell T) {after : Nat → Option (Call T)}
    (sameReading : ∀ other q, Reading (after other) q ↔ Reading (calls other) q) {p : Nat}
    (late : ring.enqueuePos ≤ p) (near : p < ring.dequeuePos + ring.cap)
    (unread : ∀ other q, Reading (after other) q → q + ring.cap ≠ p) :
    (ring.setCell pos cell).HasSeq p p := by
  have early := (protocol.of_writing mine).2.1
  have le := protocol.le
  have unreadBefore : ∀ other q, Reading (calls other) q → q + ring.cap ≠ p :=
    fun other q reading => unread other q ((sameReading other q).mpr reading)
  have free := protocol.free p late near unreadBefore
  exact free.of_cell (protocol.cell_of_writing mine _ (by omega) near (by omega))

/-- Writing the value into a claimed cell. -/
theorem Protocol.write (protocol : ring.Protocol calls pushed) {id : Nat} {value : T} {pos : Nat}
    (writing : calls id = some (.pushWrite value pos)) {cell : Cell T}
    (held : ring.cell pos = some cell) :
    (ring.setCell pos { cell with value := some value }).Protocol
      (Function.update calls id (some (.pushPublish pos))) pushed := by
  obtain ⟨late, pushedHere, has⟩ := protocol.holds id _ writing
  have mine : Writing (calls id) pos := ⟨_, writing, rfl⟩
  have room := protocol.room
  have seq : cell.seq = pos := has.unique ⟨cell, held, rfl⟩ |>.symm
  have sameWriting : ∀ other p,
      Writing (Function.update calls id (some (.pushPublish pos)) other) p ↔
        Writing (calls other) p :=
    same_update (W := Writing) (by simp [writing, Call.Writes])
  have sameReading : ∀ other p,
      Reading (Function.update calls id (some (.pushPublish pos)) other) p ↔
        Reading (calls other) p :=
    same_update (W := Reading) (by simp [writing, Call.Reads])
  refine { protocol with full := ?_, free := ?_, holds := ?_, oneWriter := ?_, oneReader := ?_ }
  · intro p given (lateToo : ring.dequeuePos ≤ p) inside unwritten
    have different : p ≠ pos := by
      rintro rfl
      exact unwritten id ((sameWriting id p).mpr mine)
    have bound := (List.getElem?_eq_some_iff.mp inside).1
    have enqueued := protocol.enqueued
    rw [protocol.cell_of_writing mine _ lateToo (by omega) different]
    exact protocol.full p given lateToo inside
      fun other written => unwritten other ((sameWriting other p).mpr written)
  · exact fun p => protocol.free_of_writing mine _ sameReading
  · refine holds_update ?_ fun other call different heldCall => ?_
    · rintro call ⟨⟩
      refine ⟨late, value, pushedHere, ?_⟩
      rw [cell_setCell_self, seq]
    · exact (protocol.holds other call heldCall).frame fun q relies =>
        cell_setCell_of_ne _ _ (protocol.apart_of_writing mine different heldCall relies)
  · exact unique_of_iff sameWriting protocol.oneWriter
  · exact unique_of_iff sameReading protocol.oneReader

/-- Publishing a written cell. -/
theorem Protocol.publish (protocol : ring.Protocol calls pushed) {id pos : Nat}
    (publishing : calls id = some (.pushPublish pos)) {cell : Cell T}
    (held : ring.cell pos = some cell) :
    (ring.setCell pos { cell with seq := pos + 1 }).Protocol
      (Function.update calls id (some (.pushed (.ok ())))) pushed := by
  obtain ⟨late, value, pushedHere, written⟩ := protocol.holds id _ publishing
  obtain rfl : cell = ⟨pos, some value⟩ := Option.some.inj (held.symm.trans written)
  have mine : Writing (calls id) pos := ⟨_, publishing, rfl⟩
  have early := (protocol.of_writing mine).2.1
  have room := protocol.room
  have only : ∀ p, Writing (calls id) p → p = pos := by
    rintro p ⟨call, heldCall, writes⟩
    cases publishing.symm.trans heldCall
    exact writes.symm
  have sameReading : ∀ other p,
      Reading (Function.update calls id (some (.pushed (.ok ()))) other) p ↔
        Reading (calls other) p :=
    same_update (W := Reading) (by simp [publishing, Call.Reads])
  refine { protocol with full := ?_, free := ?_, holds := ?_, oneWriter := ?_, oneReader := ?_ }
  · intro p given (lateToo : ring.dequeuePos ≤ p) inside unwritten
    by_cases here : p = pos
    · subst here
      cases pushedHere.symm.trans inside
      rw [cell_setCell_self]
    · have bound := (List.getElem?_eq_some_iff.mp inside).1
      have enqueued := protocol.enqueued
      rw [protocol.cell_of_writing mine _ lateToo (by omega) here]
      refine protocol.full p given lateToo inside fun other writing => unwritten other ?_
      rw [at_update Writing]
      split
      · rename_i same
        rw [same] at writing
        exact absurd (only p writing) here
      · exact writing
  · exact fun p => protocol.free_of_writing mine _ sameReading
  · refine holds_update ?_ fun other call different heldCall => ?_
    · rintro call ⟨⟩
      trivial
    · exact (protocol.holds other call heldCall).frame fun q relies =>
        cell_setCell_of_ne _ _ (protocol.apart_of_writing mine different heldCall relies)
  · exact unique_update protocol.oneWriter fun other p _ here _ =>
      absurd ((writing_some _ _).mp here) not_false
  · exact unique_of_iff sameReading protocol.oneReader

/-- No other call relies on a cell that is being read, except a push about to claim it a lap
later. -/
theorem Protocol.apart_of_reading (protocol : ring.Protocol calls pushed) {id q : Nat}
    (reading : Reading (calls id) q) {other : Nat} {call : Call T} (different : other ≠ id)
    (held : calls other = some call) {p : Nat} (relies : ring.ReliesOn call p) :
    maskIndex ring.cap p ≠ maskIndex ring.cap q ∨
      p = q + ring.cap ∧ ∃ value, call = .pushClaim value p := by
  obtain ⟨early, near, has, _⟩ := protocol.of_reading reading
  have rounded := protocol.rounded
  have positive := rounded.pos
  have le := protocol.le
  have holds := protocol.holds other call held
  have byWriter (written : Writing (calls other) p) :
      maskIndex ring.cap p ≠ maskIndex ring.cap q := by
    obtain ⟨late, before, _⟩ := protocol.of_writing written
    exact (rounded.index_ne (by omega) (by omega)).symm
  have byReader (read : Reading (calls other) p) :
      maskIndex ring.cap p ≠ maskIndex ring.cap q := by
    obtain ⟨earlyToo, nearToo, _⟩ := protocol.of_reading read
    rcases Nat.lt_trichotomy p q with lt | rfl | gt
    · exact rounded.index_ne lt (by omega)
    · exact absurd (protocol.oneReader other id p read reading) different
    · exact (rounded.index_ne gt (by omega)).symm
  cases call with
  | pushClaim value pos =>
      obtain ⟨rfl, next⟩ := relies
      rcases Nat.lt_or_eq_of_le near with lt | lap
      · exact .inl (rounded.index_ne (by omega) (by omega)).symm
      · exact .inr ⟨next.trans lap, value, rfl⟩
  | pushWrite value pos => exact .inl (byWriter ⟨_, held, relies⟩)
  | pushPublish pos => exact .inl (byWriter ⟨_, held, relies⟩)
  | popClaim pos =>
      obtain ⟨rfl, next⟩ := relies
      rcases Nat.lt_or_ge pos (q + ring.cap) with lt | lap
      · exact .inl (rounded.index_ne (by omega) lt).symm
      · have same : maskIndex ring.cap pos = maskIndex ring.cap q := by
          rw [show pos = q + ring.cap by omega, rounded.index_lap]
        have seq := (holds.2 next).unique (has.congr same)
        omega
  | popRead pos => exact .inl (byReader ⟨_, held, relies⟩)
  | popRelease pos value => exact .inl (byReader ⟨_, held, relies⟩)
  | _ => exact absurd relies not_false

/-- Releasing a cell for the position a lap later. -/
theorem Protocol.release (protocol : ring.Protocol calls pushed) {id pos : Nat} {value : T}
    (releasing : calls id = some (.popRelease pos value)) (cell : Cell T) :
    (ring.setCell pos { cell with seq := pos + ring.cap }).Protocol
      (Function.update calls id (some (.popped (some value)))) pushed := by
  have mine : Reading (calls id) pos := ⟨_, releasing, rfl⟩
  obtain ⟨early, near, _, _⟩ := protocol.of_reading mine
  have rounded := protocol.rounded
  have room := protocol.room
  have le := protocol.le
  have only : ∀ p, Reading (calls id) p → p = pos := by
    rintro p ⟨call, heldCall, reads⟩
    cases releasing.symm.trans heldCall
    exact reads.symm
  have lap : (ring.setCell pos { cell with seq := pos + ring.cap }).HasSeq (pos + ring.cap)
      (pos + ring.cap) := by
    have here : (ring.setCell pos { cell with seq := pos + ring.cap }).HasSeq pos
        (pos + ring.cap) := ⟨_, cell_setCell_self .., rfl⟩
    exact here.congr (rounded.index_lap pos)
  have sameWriting : ∀ other p,
      Writing (Function.update calls id (some (.popped (some value))) other) p ↔
        Writing (calls other) p :=
    same_update (W := Writing) (by simp [releasing, Call.Writes])
  refine { protocol with full := ?_, free := ?_, holds := ?_, oneWriter := ?_, oneReader := ?_ }
  · intro p given (late : ring.dequeuePos ≤ p) inside unwritten
    have bound := (List.getElem?_eq_some_iff.mp inside).1
    have enqueued := protocol.enqueued
    rw [cell_setCell_of_ne _ _ (rounded.index_ne (by omega) (by omega)).symm]
    exact protocol.full p given late inside
      fun other writing => unwritten other ((sameWriting other p).mpr writing)
  · intro p (late : ring.enqueuePos ≤ p) (before : p < ring.dequeuePos + ring.cap) unread
    by_cases here : p = pos + ring.cap
    · rw [here]
      exact lap
    · have apart : maskIndex ring.cap p ≠ maskIndex ring.cap pos := by
        rcases Nat.lt_or_ge p (pos + ring.cap) with lt | gt
        · exact (rounded.index_ne (by omega) lt).symm
        · rw [← rounded.index_lap pos]
          exact (rounded.index_ne (by omega) (by omega)).symm
      refine (protocol.free p late before fun other q reading behind => ?_).of_cell
        (cell_setCell_of_ne _ _ apart)
      refine unread other q ?_ behind
      rw [at_update Reading]
      split
      · rename_i same
        rw [same] at reading
        exact absurd (by rw [← behind, only q reading]) here
      · exact reading
  · refine holds_update ?_ fun other call different heldCall => ?_
    · rintro call ⟨⟩
      trivial
    · have holds := protocol.holds other call heldCall
      by_cases claims : ∃ given, call = .pushClaim given (pos + ring.cap)
      · obtain ⟨given, rfl⟩ := claims
        exact ⟨holds.1, fun _ => lap⟩
      · refine holds.frame fun p relies => cell_setCell_of_ne _ _ ?_
        rcases protocol.apart_of_reading mine different heldCall relies with
          apart | ⟨rfl, claim⟩
        · exact apart
        · exact absurd claim claims
  · exact unique_of_iff sameWriting protocol.oneWriter
  · exact unique_update protocol.oneReader fun other p _ here _ =>
      absurd ((reading_some _ _).mp here) not_false

/-- A compare-exchange about to be made would not succeed on a counter that has turned round
completely since it was loaded. -/
def Unwrapped (ring : MpmcRing T) : Call T → Prop
  | .pushClaim _ pos => cursor ring.enqueuePos = cursor pos → ring.enqueuePos = pos
  | .popClaim pos => cursor ring.dequeuePos = cursor pos → ring.dequeuePos = pos
  | _ => True

instance (ring : MpmcRing T) : (call : Call T) → Decidable (ring.Unwrapped call)
  | .pushClaim _ pos =>
      inferInstanceAs (Decidable (cursor ring.enqueuePos = cursor pos → ring.enqueuePos = pos))
  | .popClaim pos =>
      inferInstanceAs (Decidable (cursor ring.dequeuePos = cursor pos → ring.dequeuePos = pos))
  | .pushLoad _ | .pushCheck _ _ | .pushWrite _ _ | .pushPublish _ | .pushed _ | .popLoad
  | .popCheck _ | .popRead _ | .popRelease _ _ | .popped _ => .isTrue trivial

/-- A push about to claim the next position finds its cell released. -/
def Claimable (ring : MpmcRing T) (calls : Nat → Option (Call T)) : Call T → Prop
  | .pushClaim _ pos => pos = ring.enqueuePos →
      ring.enqueuePos < ring.dequeuePos + ring.cap ∧
        ∀ id q, Reading (calls id) q → q + ring.cap ≠ ring.enqueuePos
  | _ => True

/-- What a step adds to the values pushed: the value of a push that claims its position. -/
def claimed : Call T → Call T → List T
  | .pushClaim value _, .pushWrite _ _ => [value]
  | _, _ => []

/-- No access changes the capacity. -/
theorem step_cap {after : MpmcRing T} {spurious : Bool} {call moved : Call T}
    (stepped : ring.step spurious call = some (after, moved)) : after.cap = ring.cap := by
  cases accesses_of_step stepped <;> rfl

/-- Every access of every call keeps the protocol. -/
theorem Protocol.step (protocol : ring.Protocol calls pushed) {id : Nat} {call after : Call T}
    {spurious : Bool} {target : MpmcRing T} (held : calls id = some call)
    (unwrapped : ring.Unwrapped call) (claimable : ring.Claimable calls call)
    (stepped : ring.step spurious call = some (target, after)) :
    target.Protocol (Function.update calls id (some after)) (pushed ++ claimed call after) := by
  have holds := protocol.holds id call held
  -- steps that change neither the ring nor the role of the call
  have move (writes : ∀ p, after.Writes p ↔ call.Writes p)
      (reads : ∀ p, after.Reads p ↔ call.Reads p) (holdsAfter : ring.CallHolds pushed after) :
      ring.Protocol (Function.update calls id (some after)) (pushed ++ []) := by
    rw [List.append_nil]
    refine protocol.move ?_ ?_ ?_
    · intro p
      rw [held, writing_some, writing_some, writes]
    · intro p
      rw [held, reading_some, reading_some, reads]
    · rintro call ⟨⟩
      exact holdsAfter
  have same : pushed ++ [] = pushed := List.append_nil pushed
  cases accesses_of_step stepped with
  | pushLoad | popLoad | pushLost | popLost =>
      exact move (fun _ => Iff.rfl) (fun _ => Iff.rfl) (Nat.le_refl _)
  | pushFree heldCell looks =>
      refine move (fun _ => Iff.rfl) (fun _ => Iff.rfl) ⟨holds, ?_⟩
      rintro rfl
      exact protocol.hasSeq_enqueue heldCell looks
  | popFull heldCell looks =>
      refine move (fun _ => Iff.rfl) (fun _ => Iff.rfl) ⟨holds, ?_⟩
      rintro rfl
      exact protocol.hasSeq_dequeue heldCell looks
  | pushFull | pushStale | popEmpty | popStale =>
      exact move (fun _ => Iff.rfl) (fun _ => Iff.rfl) trivial
  | pushClaim won =>
      obtain rfl := unwrapped won
      exact protocol.enqueue held (claimable rfl).1 (claimable rfl).2
  | popClaim won =>
      obtain rfl := unwrapped won
      exact same.symm ▸ protocol.dequeue held (holds.2 rfl)
  | pushWrite heldCell => exact same.symm ▸ protocol.write held heldCell
  | pushPublish heldCell => exact same.symm ▸ protocol.publish held heldCell
  | popRead heldCell stored =>
      obtain ⟨early, near, value, pushedHere, written⟩ := holds
      cases heldCell.symm.trans written
      cases stored
      exact move (fun _ => Iff.rfl) (fun _ => Iff.rfl)
        ⟨early, near, pushedHere, _, written, rfl⟩
  | popRelease heldCell => exact same.symm ▸ protocol.release held _

end Teleop.Core.MpmcRing
