import Teleop.Core.MpmcThreads

/-!
# The ring, one call after another

A call that runs alone returns, whatever its weak compare-exchanges do, and
answers as a first-in first-out queue would.  With a single cell the ring cannot
tell a full ring from a free cell, and rounding a capacity beyond half the words
leaves no cell at all.
-/

namespace Teleop.Core

open Teleop.Lib Teleop.Ring MpmcRing

universe u

variable {T : Type u}

/-- How many compare-exchanges may still fail spuriously after the next access. -/
def Call.remaining (failures : Nat) : Call T → Nat
  | .pushClaim _ _ | .popClaim _ => failures - 1
  | _ => failures

/-- A call that runs alone returns; its first `failures` compare-exchanges fail spuriously. -/
inductive Returns : MpmcRing T → Nat → Call T → MpmcRing T → Call T → Prop
  | pushed (ring : MpmcRing T) (failures : Nat) (result : Except T Unit) :
      Returns ring failures (.pushed result) ring (.pushed result)
  | popped (ring : MpmcRing T) (failures : Nat) (result : Option T) :
      Returns ring failures (.popped result) ring (.popped result)
  | access {ring middle target : MpmcRing T} {failures : Nat} {call after result : Call T} :
      ring.step (decide (0 < failures)) call = some (middle, after) →
      Returns middle (call.remaining failures) after target result →
      Returns ring failures call target result

/-- A call made on the ring. -/
inductive Request (T : Type u) where
  | push (value : T)
  | pop

def Request.call : Request T → Call T
  | .push value => .pushLoad value
  | .pop => .popLoad

/-- A first-in first-out queue of at most `capacity` values: what it answers and what it
holds then. -/
def serve (capacity : Nat) (items : List T) : Request T → Call T × List T
  | .push value =>
      if items.length < capacity then (.pushed (.ok ()), items ++ [value])
      else (.pushed (.error value), items)
  | .pop =>
      match items with
      | [] => (.popped none, [])
      | value :: rest => (.popped (some value), rest)

/-- Every call of a sequence returns what the queue answers; each comes with the number of
its spurious failures. -/
def Serves (capacity : Nat) (ring : MpmcRing T) (items : List T) :
    List (Request T × Nat) → Prop
  | [] => True
  | (request, failures) :: rest =>
      ∃ after, Returns ring failures request.call after (serve capacity items request).1 ∧
        Serves capacity after (serve capacity items request).2 rest

/-- Every sequence of calls on a new ring is served as by a queue of its capacity. -/
def ServesAsQueue (T : Type u) (capacity : Nat) : Prop :=
  ∀ requests : List (Request T × Nat),
    Serves (withCapacity capacity : MpmcRing T).cap (withCapacity capacity) [] requests

/-- A call that runs alone has one outcome. -/
theorem Returns.unique {ring first second : MpmcRing T} {failures : Nat}
    {call result other : Call T} (left : Returns ring failures call first result)
    (right : Returns ring failures call second other) : first = second ∧ result = other := by
  induction left with
  | pushed ring failures result =>
      cases right with
      | pushed => exact ⟨rfl, rfl⟩
      | access stepped _ => cases stepped
  | popped ring failures result =>
      cases right with
      | popped => exact ⟨rfl, rfl⟩
      | access stepped _ => cases stepped
  | access stepped _ inductionHypothesis =>
      cases right with
      | pushed => cases stepped
      | popped => cases stepped
      | access steppedToo rest =>
          cases stepped.symm.trans steppedToo
          exact inductionHypothesis rest

namespace MpmcRing

variable {ring : MpmcRing T} {pushed : List T}

/-- No call is in progress. -/
abbrev Idle (ring : MpmcRing T) (pushed : List T) : Prop :=
  ring.Protocol (fun _ => none) pushed

theorem step_pushCheck {pos seq : Nat} (has : ring.HasSeq pos seq) (spurious : Bool) (value : T) :
    ring.step spurious (.pushCheck value pos) = some (ring,
      byDiff seq pos (.pushClaim value pos) (.pushed (.error value)) (.pushLoad value)) := by
  obtain ⟨cell, held, rfl⟩ := has
  simp [step, held]

theorem step_popCheck {pos seq : Nat} (has : ring.HasSeq pos seq) (spurious : Bool) :
    ring.step spurious (.popCheck pos) = some (ring,
      byDiff seq (pos + 1) (.popClaim pos) (.popped none) .popLoad) := by
  obtain ⟨cell, held, rfl⟩ := has
  simp [step, held]

theorem step_pushWrite {pos : Nat} {cell : Cell T} (held : ring.cell pos = some cell)
    (spurious : Bool) (value : T) :
    ring.step spurious (.pushWrite value pos) =
      some (ring.setCell pos { cell with value := some value }, .pushPublish pos) := by
  simp [step, held]

theorem step_pushPublish {pos : Nat} {cell : Cell T} (held : ring.cell pos = some cell)
    (spurious : Bool) :
    ring.step spurious (.pushPublish pos) =
      some (ring.setCell pos { cell with seq := pos + 1 }, .pushed (.ok ())) := by
  simp [step, held]

theorem step_popRead {pos seq : Nat} {value : T} (held : ring.cell pos = some ⟨seq, some value⟩)
    (spurious : Bool) :
    ring.step spurious (.popRead pos) = some (ring, .popRelease pos value) := by
  simp [step, held]

theorem step_popRelease {pos : Nat} {cell : Cell T} (held : ring.cell pos = some cell)
    (spurious : Bool) (value : T) :
    ring.step spurious (.popRelease pos value) =
      some (ring.setCell pos { cell with seq := pos + ring.cap }, .popped (some value)) := by
  simp [step, held]

/-- Spurious failures only repeat the check. -/
theorem returns_pushClaim {target : MpmcRing T} {value : T} {result : Call T}
    (has : ring.HasSeq ring.enqueuePos ring.enqueuePos)
    (won : Returns { ring with enqueuePos := ring.enqueuePos + 1 } 0
      (.pushWrite value ring.enqueuePos) target result) (failures : Nat) :
    Returns ring failures (.pushClaim value ring.enqueuePos) target result := by
  induction failures with
  | zero => exact .access (if_pos ⟨rfl, rfl⟩) won
  | succ failures inductionHypothesis =>
      have lost : ring.step (decide (0 < failures + 1)) (.pushClaim value ring.enqueuePos) =
          some (ring, .pushCheck value ring.enqueuePos) := by
        simp [step]
      have checked := step_pushCheck has (decide (0 < failures)) value
      rw [byDiff_self] at checked
      exact .access lost (.access checked inductionHypothesis)

theorem returns_popClaim {target : MpmcRing T} {result : Call T}
    (has : ring.HasSeq ring.dequeuePos (ring.dequeuePos + 1))
    (won : Returns { ring with dequeuePos := ring.dequeuePos + 1 } 0
      (.popRead ring.dequeuePos) target result) (failures : Nat) :
    Returns ring failures (.popClaim ring.dequeuePos) target result := by
  induction failures with
  | zero => exact .access (if_pos ⟨rfl, rfl⟩) won
  | succ failures inductionHypothesis =>
      have lost : ring.step (decide (0 < failures + 1)) (.popClaim ring.dequeuePos) =
          some (ring, .popCheck ring.dequeuePos) := by
        simp [step]
      have checked := step_popCheck has (decide (0 < failures))
      rw [byDiff_self] at checked
      exact .access lost (.access checked inductionHypothesis)

/-- The ring after a push that found its cell free. -/
def stored (ring : MpmcRing T) (value : T) : MpmcRing T :=
  ({ ring with enqueuePos := ring.enqueuePos + 1 } : MpmcRing T).setCell ring.enqueuePos
    ⟨ring.enqueuePos + 1, some value⟩

/-- The ring after a pop that found its value, which stays behind in the released cell. -/
def removed (ring : MpmcRing T) (value : T) : MpmcRing T :=
  ({ ring with dequeuePos := ring.dequeuePos + 1 } : MpmcRing T).setCell ring.dequeuePos
    ⟨ring.dequeuePos + ring.cap, some value⟩

theorem returns_push (has : ring.HasSeq ring.enqueuePos ring.enqueuePos) (value : T)
    (failures : Nat) :
    Returns ring failures (.pushLoad value) (ring.stored value) (.pushed (.ok ())) := by
  have checked := step_pushCheck has (decide (0 < failures)) value
  rw [byDiff_self] at checked
  obtain ⟨cell, held, _⟩ := id has
  have heldThen : ({ ring with enqueuePos := ring.enqueuePos + 1 } : MpmcRing T).cell
      ring.enqueuePos = some cell := held
  have published := step_pushPublish (cell_setCell_self
    ({ ring with enqueuePos := ring.enqueuePos + 1 } : MpmcRing T) ring.enqueuePos
      { cell with value := some value }) false
  rw [setCell_setCell] at published
  refine .access rfl (.access checked (returns_pushClaim has ?_ failures))
  exact .access (step_pushWrite heldThen _ _) (.access published (.pushed ..))

theorem returns_pop {value : T}
    (held : ring.cell ring.dequeuePos = some ⟨ring.dequeuePos + 1, some value⟩) (failures : Nat) :
    Returns ring failures .popLoad (ring.removed value) (.popped (some value)) := by
  have has : ring.HasSeq ring.dequeuePos (ring.dequeuePos + 1) := ⟨_, held, rfl⟩
  have checked := step_popCheck has (decide (0 < failures))
  rw [byDiff_self] at checked
  have heldThen : ({ ring with dequeuePos := ring.dequeuePos + 1 } : MpmcRing T).cell
      ring.dequeuePos = some ⟨ring.dequeuePos + 1, some value⟩ := held
  refine .access rfl (.access checked (returns_popClaim has ?_ failures))
  exact .access (step_popRead heldThen _) (.access (step_popRelease heldThen _ _) (.popped ..))

/-- A single call, in place 0. -/
def alone (call : Call T) : Nat → Option (Call T) := Function.update (fun _ => none) 0 (some call)

@[simp] theorem alone_here (call : Call T) : alone call 0 = some call :=
  Function.update_self ..

@[simp] theorem update_alone (call after : Call T) :
    Function.update (alone call) 0 (some after) = alone after :=
  Function.update_idem ..

theorem Idle.begin (idle : ring.Idle pushed) {call : Call T} (writes : ∀ p, ¬ call.Writes p)
    (reads : ∀ p, ¬ call.Reads p) (holds : ring.CallHolds pushed call) :
    ring.Protocol (alone call) pushed := by
  refine idle.move ?_ ?_ ?_
  · simp [writes]
  · simp [reads]
  · rintro other ⟨⟩
    exact holds

theorem Idle.finish {call : Call T} (protocol : ring.Protocol (alone call) pushed)
    (writes : ∀ p, ¬ call.Writes p) (reads : ∀ p, ¬ call.Reads p) : ring.Idle pushed := by
  have moved : ring.Protocol (Function.update (alone call) 0 none) pushed :=
    protocol.move (by simp [writes]) (by simp [reads]) nofun
  have gone : Function.update (alone call) 0 none = fun _ => none := by
    unfold alone
    rw [Function.update_idem, Function.update_eq_self]
  rwa [gone] at moved

/-- A push on a ring with a free cell. -/
theorem Idle.push (idle : ring.Idle pushed)
    (space : ring.enqueuePos < ring.dequeuePos + ring.cap) (value : T) :
    ring.HasSeq ring.enqueuePos ring.enqueuePos ∧ (ring.stored value).Idle (pushed ++ [value]) := by
  have has : ring.HasSeq ring.enqueuePos ring.enqueuePos :=
    idle.free _ (Nat.le_refl _) space fun _ _ reading => absurd reading (reading_none _)
  have claiming : ring.Protocol (alone (.pushClaim value ring.enqueuePos)) pushed :=
    idle.begin (fun _ => not_false) (fun _ => not_false) ⟨Nat.le_refl _, fun _ => has⟩
  have unread : ∀ id q, Reading (alone (.pushClaim value ring.enqueuePos) id) q →
      q + ring.cap ≠ ring.enqueuePos := by
    rintro id q ⟨call, held, reads⟩
    unfold alone at held
    rw [Function.update_apply] at held
    split at held <;> cases held
    exact absurd reads not_false
  have claimed := claiming.enqueue (alone_here _) space unread
  rw [update_alone] at claimed
  obtain ⟨cell, held, _⟩ := id has
  have written := claimed.write (alone_here _) held
  rw [update_alone] at written
  have published := written.publish (alone_here _) (cell_setCell_self ..)
  rw [update_alone, setCell_setCell] at published
  exact ⟨has, Idle.finish published (fun _ => not_false) (fun _ => not_false)⟩

/-- In a full ring the next cell holds the oldest value. -/
theorem Idle.hasSeq_of_full (idle : ring.Idle pushed)
    (full : ring.enqueuePos = ring.dequeuePos + ring.cap) :
    ring.HasSeq ring.enqueuePos (ring.dequeuePos + 1) := by
  have positive := idle.rounded.pos
  have inside : ring.dequeuePos < pushed.length := by
    rw [← idle.enqueued]
    omega
  have oldest := idle.full _ _ (Nat.le_refl _) (List.getElem?_eq_getElem inside)
    fun _ => writing_none _
  have here : ring.HasSeq ring.dequeuePos (ring.dequeuePos + 1) := ⟨_, oldest, rfl⟩
  apply here.congr
  rw [full, idle.rounded.index_lap]

/-- A push on a full ring of two cells or more. -/
theorem Idle.push_full (idle : ring.Idle pushed) (two : 2 ≤ ring.cap)
    (full : ring.enqueuePos = ring.dequeuePos + ring.cap) (value : T) (failures : Nat) :
    Returns ring failures (.pushLoad value) ring (.pushed (.error value)) := by
  have bound := idle.rounded.le
  have checked := step_pushCheck (idle.hasSeq_of_full full) (decide (0 < failures)) value
  rw [byDiff_of_lt (by omega) (by omega)] at checked
  exact .access rfl (.access checked (.pushed ..))

/-- A push on a full ring of one cell: the sequence number of the value there is the position
that a free cell would show. -/
theorem Idle.push_single (idle : ring.Idle pushed) (single : ring.cap = 1)
    (full : ring.enqueuePos = ring.dequeuePos + ring.cap) (value : T) (failures : Nat) :
    ∃ target, Returns ring failures (.pushLoad value) target (.pushed (.ok ())) := by
  have has : ring.HasSeq ring.enqueuePos ring.enqueuePos := by
    have oldest := idle.hasSeq_of_full full
    rwa [← single, ← full] at oldest
  exact ⟨_, returns_push has value failures⟩

/-- A pop on a ring that holds a value. -/
theorem Idle.pop (idle : ring.Idle pushed) {value : T}
    (oldest : pushed[ring.dequeuePos]? = some value) :
    ring.cell ring.dequeuePos = some ⟨ring.dequeuePos + 1, some value⟩ ∧
      (ring.removed value).Idle pushed := by
  have cell := idle.full _ _ (Nat.le_refl _) oldest fun _ => writing_none _
  have has : ring.HasSeq ring.dequeuePos (ring.dequeuePos + 1) := ⟨_, cell, rfl⟩
  have claiming : ring.Protocol (alone (.popClaim ring.dequeuePos)) pushed :=
    idle.begin (fun _ => not_false) (fun _ => not_false) ⟨Nat.le_refl _, fun _ => has⟩
  have claimed := claiming.dequeue (alone_here _) has
  rw [update_alone] at claimed
  obtain ⟨early, near, found, pushedHere, held⟩ := claimed.holds 0 _ (alone_here _)
  obtain rfl : found = value := Option.some.inj (pushedHere.symm.trans oldest)
  have read : ({ ring with dequeuePos := ring.dequeuePos + 1 } : MpmcRing T).Protocol
      (Function.update (alone (.popRead ring.dequeuePos)) 0
        (some (.popRelease ring.dequeuePos found))) pushed := by
    refine claimed.move (by simp [Call.Writes]) (by simp [Call.Reads]) ?_
    rintro call ⟨⟩
    exact ⟨early, near, pushedHere, _, held, rfl⟩
  rw [update_alone] at read
  have released := read.release (alone_here _) ⟨ring.dequeuePos + 1, some found⟩
  rw [update_alone] at released
  exact ⟨cell, Idle.finish released (fun _ => not_false) (fun _ => not_false)⟩

/-- A pop on an empty ring. -/
theorem Idle.pop_empty (idle : ring.Idle pushed) (empty : ring.dequeuePos = ring.enqueuePos)
    (failures : Nat) : Returns ring failures .popLoad ring (.popped none) := by
  have positive := idle.rounded.pos
  have has : ring.HasSeq ring.dequeuePos ring.dequeuePos := by
    rw [empty]
    exact idle.free _ (Nat.le_refl _) (by omega) fun _ _ reading =>
      absurd reading (reading_none _)
  have checked := step_popCheck has (decide (0 < failures))
  rw [byDiff_of_lt (by omega) (by omega)] at checked
  exact .access rfl (.access checked (.popped ..))

/-- An idle ring and the values it holds. -/
def Represents (ring : MpmcRing T) (items : List T) : Prop :=
  ∃ pushed, ring.Idle pushed ∧ items = pushed.drop ring.dequeuePos

/-- One call alone answers as the queue does and leaves what the queue holds. -/
theorem Represents.serves {items : List T} (represents : ring.Represents items)
    (two : 2 ≤ ring.cap) (request : Request T) (failures : Nat) :
    ∃ after, Returns ring failures request.call after (serve ring.cap items request).1 ∧
      after.Represents (serve ring.cap items request).2 ∧ after.cap = ring.cap := by
  obtain ⟨pushed, idle, rfl⟩ := represents
  have enqueued := idle.enqueued
  have le := idle.le
  have room := idle.room
  cases request with
  | push value =>
      rcases Nat.lt_or_eq_of_le room with space | full
      · obtain ⟨free, idleThen⟩ := idle.push space value
        have fits : (pushed.drop ring.dequeuePos).length < ring.cap := by
          rw [List.length_drop]
          omega
        have remaining : (pushed ++ [value]).drop ring.dequeuePos =
            pushed.drop ring.dequeuePos ++ [value] :=
          List.drop_append_of_le_length (by omega)
        refine ⟨_, ?_, ⟨_, idleThen, ?_⟩, rfl⟩
        · simp only [serve, if_pos fits]
          exact returns_push free value failures
        · simp only [serve, if_pos fits]
          exact remaining.symm
      · have filled : ¬ (pushed.drop ring.dequeuePos).length < ring.cap := by
          rw [List.length_drop]
          omega
        refine ⟨ring, ?_, ⟨pushed, idle, ?_⟩, rfl⟩
        · simp only [serve, if_neg filled]
          exact idle.push_full two full value failures
        · simp only [serve, if_neg filled]
  | pop =>
      rcases Nat.lt_or_eq_of_le le with occupied | empty
      · have inside : ring.dequeuePos < pushed.length := by omega
        obtain ⟨cell, idleThen⟩ := idle.pop (List.getElem?_eq_getElem inside)
        have content := List.drop_eq_getElem_cons inside
        refine ⟨_, ?_, ⟨pushed, idleThen, ?_⟩, rfl⟩
        · rw [content]
          exact returns_pop cell failures
        · rw [content]
          rfl
      · have nothing : pushed.drop ring.dequeuePos = [] := List.drop_eq_nil_of_le (by omega)
        refine ⟨ring, ?_, ⟨pushed, idle, ?_⟩, rfl⟩
        · rw [nothing]
          exact idle.pop_empty empty failures
        · rw [nothing]
          rfl

theorem Represents.servesAll {items : List T} (represents : ring.Represents items)
    (two : 2 ≤ ring.cap) (requests : List (Request T × Nat)) :
    Serves ring.cap ring items requests := by
  induction requests generalizing ring items with
  | nil => trivial
  | cons head rest inductionHypothesis =>
      obtain ⟨request, failures⟩ := head
      obtain ⟨after, returns, representsThen, cap⟩ := represents.serves two request failures
      refine ⟨after, returns, ?_⟩
      have onward := inductionHypothesis representsThen (by omega)
      rwa [cap] at onward

end MpmcRing

namespace Mpmc

variable {capacity : Nat}

theorem two_le_cap (two : 2 ≤ capacity) (small : capacity ≤ 2 ^ 63) :
    2 ≤ (withCapacity capacity : MpmcRing T).cap := by
  have enough := le_nextPowerOfTwo (show max capacity 1 ≤ 2 ^ 63 by omega)
  show 2 ≤ nextPowerOfTwo (max capacity 1)
  omega

theorem serves_of_two_le (two : 2 ≤ capacity) (small : capacity ≤ 2 ^ 63) :
    ServesAsQueue T capacity := by
  have idle : (withCapacity capacity : MpmcRing T).Idle [] :=
    protocol_withCapacity (by omega) fun _ => rfl
  exact Represents.servesAll ⟨[], idle, rfl⟩ (two_le_cap two small)

/-- The single cell of a full ring looks free for the next position: the second push goes
through and its value replaces the first. -/
theorem not_serves_of_single (value : T) (single : capacity ≤ 1) : ¬ ServesAsQueue T capacity := by
  intro serves
  have cap : (withCapacity capacity : MpmcRing T).cap = 1 := by
    show nextPowerOfTwo (max capacity 1) = 1
    rw [Nat.max_eq_right single]
    rfl
  have idle : (withCapacity capacity : MpmcRing T).Idle [] :=
    protocol_withCapacity (by omega) fun _ => rfl
  obtain ⟨after, first, second, returns, _⟩ := serves [(.push value, 0), (.push value, 0)]
  have space : (withCapacity capacity : MpmcRing T).enqueuePos <
      (withCapacity capacity : MpmcRing T).dequeuePos + (withCapacity capacity : MpmcRing T).cap := by
    rw [cap]
    exact Nat.one_pos
  obtain ⟨free, idleThen⟩ := idle.push space value
  obtain ⟨rfl, _⟩ := first.unique (returns_push free value 0)
  have full : ((withCapacity capacity : MpmcRing T).stored value).enqueuePos =
      ((withCapacity capacity : MpmcRing T).stored value).dequeuePos +
        ((withCapacity capacity : MpmcRing T).stored value).cap := by
    show 0 + 1 = 0 + (withCapacity capacity : MpmcRing T).cap
    rw [cap]
  obtain ⟨target, overwritten⟩ := idleThen.push_single cap full value 0
  have refused := (returns.unique overwritten).2
  simp [serve, cap] at refused

/-- A capacity that rounding wraps to zero leaves no cell to look at. -/
theorem not_serves_of_large (value : T) (large : 2 ^ 63 < capacity) :
    ¬ ServesAsQueue T capacity := by
  intro serves
  obtain ⟨after, returns, _⟩ := serves [(.push value, 0)]
  have none : ∀ i, (withCapacity capacity : MpmcRing T).cells i = none := by
    intro i
    refine if_neg ?_
    rw [nextPowerOfTwo_of_lt (by omega)]
    omega
  cases returns with
  | access loaded rest =>
      cases loaded
      cases rest with
      | access checked _ =>
          simp [MpmcRing.step, cell, none] at checked

/-- Calls made one after another are served as by a queue of the ring's capacity exactly when
at least two cells and at most half the words were requested. -/
theorem servesAsQueue_iff [Inhabited T] (capacity : Nat) :
    ServesAsQueue T capacity ↔ 2 ≤ capacity ∧ capacity ≤ 2 ^ 63 := by
  constructor
  · intro serves
    refine ⟨?_, ?_⟩
    · by_contra single
      exact not_serves_of_single default (by omega) serves
    · by_contra large
      exact not_serves_of_large default (by omega) serves
  · rintro ⟨two, small⟩
    exact serves_of_two_le two small

/-- A ring requested with one cell accepts a second value. -/
theorem singleCell_overwrites : ¬ ServesAsQueue Nat 1 :=
  not_serves_of_single 0 (Nat.le_refl 1)

end Mpmc

end Teleop.Core
