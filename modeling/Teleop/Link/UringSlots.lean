import Teleop.Lib.Indexed
import Teleop.Link.Uring

/-!
# Slot accounting of the transmit queue

Three moves of one slot make up every call: it is taken off the free list, it is pushed, and
it is put back when its completion is reaped.  Each keeps the free list, the two counters and
the datagrams in flight in step with the states of the slots.
-/

namespace Teleop.Link

open Teleop.Lib

section Slots

def stateAt (slots : List UringSlot) (i : Nat) : Option SlotState := slots[i]?.map (·.state)

/-- The link of a slot. -/
def nextAt (slots : List UringSlot) (i : UInt16) : Option UInt16 :=
  slots[i.toNat]?.map (·.nextFree)

/-- The number of slots in a state. -/
def tally (state : SlotState) (slots : List UringSlot) : Nat :=
  slots.countP fun slot => slot.state = state

variable {slots : List UringSlot} {idx : Nat} {slot : UringSlot}

theorem stateAt_set (held : slots[idx]? = some slot) (after : UringSlot) (i : Nat) :
    stateAt (slots.set idx after) i = if i = idx then some after.state else stateAt slots i := by
  have inside := (List.getElem?_eq_some_iff.mp held).1
  unfold stateAt
  by_cases same : i = idx
  · subst same
    simp [inside]
  · rw [if_neg same, List.getElem?_set_ne (Ne.symm same)]

theorem nextAt_set_of_ne (slots : List UringSlot) (after : UringSlot) {i : UInt16}
    (other : i.toNat ≠ idx) : nextAt (slots.set idx after) i = nextAt slots i := by
  unfold nextAt
  rw [List.getElem?_set_ne (Ne.symm other)]

/-- Only a slot that is freed gets a new link. -/
theorem nextAt_set_same (held : slots[idx]? = some slot) {after : UringSlot}
    (same : after.nextFree = slot.nextFree) : nextAt (slots.set idx after) = nextAt slots := by
  have inside := (List.getElem?_eq_some_iff.mp held).1
  funext i
  by_cases here : i.toNat = idx
  · unfold nextAt
    rw [here, List.getElem?_set_self inside, held, Option.map_some, Option.map_some, same]
  · exact nextAt_set_of_ne slots after here

/-- A slot that changes its state leaves one tally and enters another. -/
theorem tally_set (held : slots[idx]? = some slot) {after : UringSlot}
    (moved : after.state ≠ slot.state) (state : SlotState) :
    tally state (slots.set idx after) + (if slot.state = state then 1 else 0) =
      tally state slots + (if after.state = state then 1 else 0) := by
  unfold tally
  by_cases left : slot.state = state
  · have gone : after.state ≠ state := left ▸ moved
    rw [if_pos left, if_neg gone]
    exact countP_set_gone held (decide_eq_true left) (decide_eq_false gone)
  · rw [if_neg left]
    by_cases entered : after.state = state
    · rw [if_pos entered]
      exact countP_set_new held (decide_eq_false left) (decide_eq_true entered)
    · rw [if_neg entered]
      exact countP_set_same held (by rw [decide_eq_false left, decide_eq_false entered])

theorem tally_pos (held : slots[idx]? = some slot) : 0 < tally slot.state slots :=
  List.countP_pos_iff.mpr ⟨slot, List.mem_of_getElem? held, decide_eq_true rfl⟩

theorem length_eq_tally (slots : List UringSlot) :
    slots.length = tally .free slots + tally .staged slots + tally .inFlight slots := by
  induction slots with
  | nil => rfl
  | cons slot rest inductionHypothesis =>
      unfold tally at inductionHypothesis ⊢
      simp only [List.length_cons, List.countP_cons]
      cases state : slot.state <;> simp <;> omega

end Slots

/-- Free list, counters and kernel agree with the states of the slots. -/
structure Accounted (tx : UringTx) (outstanding : List Submission) : Prop where
  few : tx.slots.length ≤ 65535
  free : ∃ free, Threaded (nextAt tx.slots) noSlot tx.freeHead free ∧
    ∀ i, i ∈ free ↔ stateAt tx.slots i.toNat = some .free
  staged : tx.staged = tally .staged tx.slots
  inflight : tx.inflight = tally .inFlight tx.slots
  unique : (outstanding.map (·.userData)).Nodup
  intact : ∀ entry ∈ outstanding, ∃ slot, tx.slots[entry.userData.toNat]? = some slot ∧
    slot.state = .inFlight ∧ slot.toSlotContents = entry.datagram
  awaited : ∀ i, stateAt tx.slots i = some .inFlight →
    ∃ entry ∈ outstanding, entry.userData.toNat = i

namespace Accounted

variable {tx : UringTx} {outstanding : List Submission} {idx : Nat} {slot : UringSlot}

theorem perm (accounted : Accounted tx outstanding) {reordered : List Submission}
    (order : outstanding.Perm reordered) : Accounted tx reordered where
  few := accounted.few
  free := accounted.free
  staged := accounted.staged
  inflight := accounted.inflight
  unique := (order.map _).nodup accounted.unique
  intact entry listed := accounted.intact entry (order.mem_iff.mpr listed)
  awaited i flying := by
    obtain ⟨entry, listed, here⟩ := accounted.awaited i flying
    exact ⟨entry, order.mem_iff.mp listed, here⟩

/-- Slot numbers are below the sentinel. -/
theorem lt_of_held (accounted : Accounted tx outstanding) (held : tx.slots[idx]? = some slot) :
    idx < 65535 :=
  Nat.lt_of_lt_of_le (List.getElem?_eq_some_iff.mp held).1 accounted.few

/-- A slot that is not in flight is not referred to by a submission. -/
theorem apart (accounted : Accounted tx outstanding) (held : tx.slots[idx]? = some slot)
    (resting : slot.state ≠ .inFlight) {entry : Submission} (listed : entry ∈ outstanding) :
    entry.userData.toNat ≠ idx := by
  rintro rfl
  obtain ⟨flying, there, state, -⟩ := accounted.intact entry listed
  obtain rfl := Option.some.inj (held.symm.trans there)
  exact resting state

/-- Submissions are not concerned by a change of another slot. -/
theorem intact_set (accounted : Accounted tx outstanding) (after : UringSlot)
    {entry : Submission} (listed : entry ∈ outstanding) (other : entry.userData.toNat ≠ idx) :
    ∃ slot, (tx.slots.set idx after)[entry.userData.toNat]? = some slot ∧
      slot.state = .inFlight ∧ slot.toSlotContents = entry.datagram := by
  obtain ⟨flying, there, same⟩ := accounted.intact entry listed
  exact ⟨flying, by rwa [List.getElem?_set_ne (Ne.symm other)], same⟩

/-- The head of the free list is a free slot. -/
theorem head (accounted : Accounted tx outstanding) (listed : tx.freeHead ≠ noSlot) :
    ∃ slot, tx.slots[tx.freeHead.toNat]? = some slot ∧ slot.state = .free := by
  obtain ⟨free, threaded, members⟩ := accounted.free
  obtain ⟨next, rest, rfl, -⟩ := threaded.pop listed
  exact Option.map_eq_some_iff.mp ((members _).mp List.mem_cons_self)

/-- Without a head no slot is free. -/
theorem none_free (accounted : Accounted tx outstanding) (empty : tx.freeHead = noSlot)
    (i : Nat) : stateAt tx.slots i ≠ some .free := by
  intro isFree
  obtain ⟨slot, held, -⟩ := Option.map_eq_some_iff.mp isFree
  have small : i < 65535 := accounted.lt_of_held held
  obtain ⟨free, threaded, members⟩ := accounted.free
  have threadedNone : Threaded (nextAt tx.slots) noSlot noSlot free := empty ▸ threaded
  have listed : UInt16.ofNat i ∈ free := by
    rw [members, UInt16.toNat_ofNat_of_lt' (Nat.lt_succ_of_lt small)]
    exact isFree
  rw [threadedNone.eq_nil] at listed
  cases listed

/-- Staging takes the head off the free list. -/
theorem take (accounted : Accounted tx outstanding) (listed : tx.freeHead ≠ noSlot)
    (held : tx.slots[tx.freeHead.toNat]? = some slot) {after : UringSlot}
    (link : after.nextFree = slot.nextFree) (state : after.state = .staged) :
    Accounted ⟨tx.slots.set tx.freeHead.toNat after, slot.nextFree, tx.staged + 1, tx.inflight⟩
      outstanding := by
  obtain ⟨head, there, isFree⟩ := accounted.head listed
  obtain rfl := Option.some.inj (held.symm.trans there)
  have moved : after.state ≠ slot.state := by rw [state, isFree]; decide
  have tallies := tally_set held moved
  rw [state, isFree] at tallies
  refine ⟨by simpa using accounted.few, ?_, ?_, ?_, accounted.unique, ?_, ?_⟩
  · obtain ⟨free, threaded, members⟩ := accounted.free
    obtain ⟨next, rest, rfl, linked, remaining⟩ := threaded.pop listed
    have follows : slot.nextFree = next := by simpa [nextAt, held] using linked
    have fresh := (List.nodup_cons.mp threaded.nodup).1
    refine ⟨rest, ?_, fun i => ?_⟩
    · rw [nextAt_set_same held link, follows]
      exact remaining
    · rw [stateAt_set held]
      by_cases same : i = tx.freeHead
      · subst same
        simp [fresh, state]
      · have other : i.toNat ≠ tx.freeHead.toNat := fun equal => same (UInt16.toNat.inj equal)
        rw [if_neg other, ← members]
        simp [same]
  · have entered := tallies .staged
    simp at entered
    rw [accounted.staged]
    exact entered.symm
  · have kept := tallies .inFlight
    simp at kept
    rw [accounted.inflight]
    exact kept.symm
  · intro entry waiting
    exact accounted.intact_set after waiting
      (accounted.apart held (by rw [isFree]; decide) waiting)
  · intro i flying
    rw [stateAt_set held] at flying
    split at flying
    · rw [state] at flying
      cases flying
    · exact accounted.awaited i flying

/-- Pushing hands a staged slot to the kernel. -/
theorem handOver (accounted : Accounted tx outstanding) (held : tx.slots[idx]? = some slot)
    (waiting : slot.state = .staged) (after : UringSlot) (state : after.state = .inFlight)
    (link : after.nextFree = slot.nextFree) :
    0 < tx.staged ∧
      Accounted ⟨tx.slots.set idx after, tx.freeHead, tx.staged - 1, tx.inflight + 1⟩
        (outstanding ++ [⟨.ofNat idx, after.toSlotContents⟩]) := by
  have inside := (List.getElem?_eq_some_iff.mp held).1
  have small := accounted.lt_of_held held
  have number : (UInt64.ofNat idx).toNat = idx :=
    UInt64.toNat_ofNat_of_lt' (Nat.lt_trans small (by decide))
  have positive : 0 < tx.staged := by
    have counted := tally_pos held
    rwa [waiting, ← accounted.staged] at counted
  have moved : after.state ≠ slot.state := by rw [state, waiting]; decide
  have tallies := tally_set held moved
  rw [state, waiting] at tallies
  have apart (entry : Submission) (listed : entry ∈ outstanding) :
      entry.userData.toNat ≠ idx :=
    accounted.apart held (by rw [waiting]; decide) listed
  refine ⟨positive, by simpa using accounted.few, ?_, ?_, ?_, ?_, ?_, ?_⟩
  · obtain ⟨free, threaded, members⟩ := accounted.free
    refine ⟨free, ?_, fun i => ?_⟩
    · rw [nextAt_set_same held link]
      exact threaded
    · rw [stateAt_set held, members]
      split
      · rename_i same
        have before : stateAt tx.slots i.toNat = some .staged := by
          rw [stateAt, same, held, Option.map_some, waiting]
        simp [before, state]
      · rfl
  · have left := tallies .staged
    simp at left
    rw [accounted.staged]
    exact Nat.sub_eq_of_eq_add left.symm
  · have entered := tallies .inFlight
    simp at entered
    rw [accounted.inflight]
    exact entered.symm
  · rw [List.map_append, List.map_singleton, List.nodup_append]
    refine ⟨accounted.unique, List.nodup_singleton _, ?_⟩
    rintro userData listed other new rfl
    obtain ⟨entry, member, rfl⟩ := List.mem_map.mp listed
    obtain here := List.mem_singleton.mp new
    exact apart entry member (by rw [here, number])
  · intro entry listed
    rcases List.mem_append.mp listed with member | new
    · exact accounted.intact_set _ member (apart entry member)
    · rw [List.mem_singleton.mp new]
      exact ⟨after, by rw [number, List.getElem?_set_self inside], state, rfl⟩
  · intro i flying
    rw [stateAt_set held] at flying
    split at flying
    · rename_i same
      exact ⟨_, List.mem_append_right _ (List.mem_singleton_self _), by rw [number, same]⟩
    · obtain ⟨entry, member, here⟩ := accounted.awaited i flying
      exact ⟨entry, List.mem_append_left _ member, here⟩

/-- A completion puts its slot back in front. -/
theorem release {entry : Submission} (accounted : Accounted tx (entry :: outstanding))
    (held : tx.slots[entry.userData.toNat]? = some slot) (after : UringSlot)
    (state : after.state = .free) (link : after.nextFree = tx.freeHead) :
    Accounted ⟨tx.slots.set entry.userData.toNat after, .ofNat entry.userData.toNat, tx.staged,
      tx.inflight - 1⟩ outstanding := by
  obtain ⟨there, same, flying, -⟩ := accounted.intact entry List.mem_cons_self
  obtain rfl := Option.some.inj (held.symm.trans same)
  have inside := (List.getElem?_eq_some_iff.mp held).1
  have small := accounted.lt_of_held held
  have number : (UInt16.ofNat entry.userData.toNat).toNat = entry.userData.toNat :=
    UInt16.toNat_ofNat_of_lt' (Nat.lt_succ_of_lt small)
  have moved : after.state ≠ slot.state := by rw [state, flying]; decide
  have tallies := tally_set held moved
  rw [state, flying] at tallies
  obtain ⟨fresh, unique⟩ := List.nodup_cons.mp accounted.unique
  have apart (other : Submission) (listed : other ∈ outstanding) :
      other.userData.toNat ≠ entry.userData.toNat := by
    intro same
    exact fresh (List.mem_map.mpr ⟨other, listed, UInt64.toNat.inj same⟩)
  refine ⟨by simpa using accounted.few, ?_, ?_, ?_, unique, ?_, ?_⟩
  · obtain ⟨free, threaded, members⟩ := accounted.free
    have before : stateAt tx.slots entry.userData.toNat = some .inFlight := by
      rw [stateAt, held, Option.map_some, flying]
    refine ⟨.ofNat entry.userData.toNat :: free, ?_, fun i => ?_⟩
    · apply threaded.push
      · intro equal
        have sentinel := congrArg UInt16.toNat equal
        rw [number] at sentinel
        exact Nat.ne_of_lt small sentinel
      · intro listed
        rw [members, number, before] at listed
        cases listed
      · rw [nextAt, number, List.getElem?_set_self inside, Option.map_some, link]
      · intro other different
        refine nextAt_set_of_ne _ _ fun same => different ?_
        apply UInt16.toNat.inj
        rw [number, same]
    · rw [List.mem_cons, stateAt_set held, members]
      by_cases same : i.toNat = entry.userData.toNat
      · rw [if_pos same]
        have here : i = .ofNat entry.userData.toNat := UInt16.toNat.inj (same.trans number.symm)
        exact iff_of_true (.inl here) (congrArg some state)
      · rw [if_neg same]
        refine or_iff_right fun here => same ?_
        rw [here, number]
  · have kept := tallies .staged
    simp at kept
    rw [accounted.staged]
    exact kept.symm
  · have left := tallies .inFlight
    simp at left
    rw [accounted.inflight]
    exact Nat.sub_eq_of_eq_add left.symm
  · intro other listed
    exact accounted.intact_set _ (List.mem_cons_of_mem _ listed) (apart other listed)
  · intro i isFlying
    rw [stateAt_set held] at isFlying
    split at isFlying
    · rw [state] at isFlying
      cases isFlying
    · rename_i different
      obtain ⟨other, listed, here⟩ := accounted.awaited i isFlying
      rcases List.mem_cons.mp listed with rfl | member
      · exact absurd here.symm different
      · exact ⟨other, member, here⟩

/-- Staging is refused without a head, and otherwise takes the slot at the head. -/
theorem stage_cases (accounted : Accounted tx outstanding) (peer : SocketAddr)
    (fill : Vector UInt8 maxDatagram → Vector UInt8 maxDatagram × Nat) :
    (tx.freeHead = noSlot ∧ tx.stage peer fill = some (.error .busy)) ∨
      ∃ slot after, tx.freeHead ≠ noSlot ∧ tx.slots[tx.freeHead.toNat]? = some slot ∧
        slot.state = .free ∧ after.state = .staged ∧ after.nextFree = slot.nextFree ∧
        (after.buf, after.len) = fill slot.buf ∧
        tx.stage peer fill = some (.ok ⟨tx.slots.set tx.freeHead.toNat after, slot.nextFree,
          tx.staged + 1, tx.inflight⟩) := by
  unfold UringTx.stage
  by_cases empty : tx.freeHead = noSlot
  · exact .inl ⟨empty, if_pos empty⟩
  · obtain ⟨slot, held, isFree⟩ := accounted.head empty
    refine .inr ⟨slot, { slot with
      buf := (fill slot.buf).1
      len := (fill slot.buf).2
      addr := (fillSockaddr peer).1
      addrLen := (fillSockaddr peer).2
      state := .staged }, empty, held, isFree, rfl, rfl, rfl, ?_⟩
    rw [if_neg empty, held]

/-- What holds between two passes of the submission loop, whose counters are brought up to
date behind it. -/
def Pushed (tx : UringTx) (outstanding : List Submission) (loop : UringTx.Submitting) : Prop :=
  loop.entries.length ≤ tx.staged ∧
    Accounted ⟨loop.slots, tx.freeHead, tx.staged - loop.entries.length,
      tx.inflight + loop.entries.length⟩ (outstanding ++ loop.entries)

theorem Pushed.push {loop : UringTx.Submitting} (pushed : Pushed tx outstanding loop)
    (room idx : Nat) : Pushed tx outstanding (UringTx.push room loop idx) := by
  unfold UringTx.push
  split
  · exact pushed
  split
  · exact pushed
  rename_i slot held
  split
  · exact pushed
  rename_i isStaged
  split
  · exact pushed
  · obtain ⟨enough, accounted⟩ := pushed
    obtain ⟨positive, handed⟩ := accounted.handOver held (not_not.mp isStaged)
      { slot with state := .inFlight } rfl rfl
    have more : 0 < tx.staged - loop.entries.length := positive
    refine ⟨?_, ?_⟩
    · rw [List.length_append, List.length_singleton]
      omega
    · rw [List.length_append, List.length_singleton, ← Nat.sub_sub, ← Nat.add_assoc,
        ← List.append_assoc]
      exact handed

theorem Pushed.foldl {loop : UringTx.Submitting} (pushed : Pushed tx outstanding loop)
    (room : Nat) (indices : List Nat) :
    Pushed tx outstanding (indices.foldl (UringTx.push room) loop) := by
  induction indices generalizing loop with
  | nil => exact pushed
  | cons idx rest inductionHypothesis => exact inductionHypothesis (pushed.push room idx)

theorem pushStaged (accounted : Accounted tx outstanding) (room : Nat) :
    Pushed tx outstanding (tx.pushStaged room) := by
  apply Pushed.foldl
  refine ⟨Nat.zero_le _, ?_⟩
  rw [List.append_nil]
  exact accounted

/-- `staged` does not underflow, whatever part of the staged slots is accepted. -/
theorem submitStaged (accounted : Accounted tx outstanding) (room : Nat)
    (submit : Except Int32 Unit) :
    ∃ after entries result, tx.submitStaged room submit = some (after, entries, result) ∧
      Accounted after (outstanding ++ entries) := by
  obtain ⟨enough, after⟩ := accounted.pushStaged room
  exact ⟨_, _, _, if_pos enough, after⟩

theorem complete {entry : Submission} (accounted : Accounted tx (entry :: outstanding))
    {cqe : Completion} (completes : cqe.userData = entry.userData) :
    Accounted (tx.complete cqe) outstanding := by
  obtain ⟨slot, held, -⟩ := accounted.intact entry List.mem_cons_self
  have released := accounted.release held { slot with state := .free, nextFree := tx.freeHead }
    rfl rfl
  unfold UringTx.complete
  rw [completes, held]
  exact released

/-- Completions in any order, each of another submission. -/
theorem reap {completions : List Completion} {completed : List Submission}
    (accounted : Accounted tx (completed ++ outstanding))
    (same : completions.map (·.userData) = completed.map (·.userData)) :
    Accounted (tx.reap completions).1 outstanding := by
  unfold UringTx.reap
  induction completions generalizing tx completed with
  | nil =>
      obtain rfl := List.map_eq_nil_iff.mp same.symm
      exact accounted
  | cons cqe completions inductionHypothesis =>
      cases completed with
      | nil => cases same
      | cons entry completed =>
          obtain ⟨completes, same⟩ := List.cons.inj same
          exact inductionHypothesis (accounted.complete completes) same

end Accounted

section New

variable {slots : Nat}

theorem getElem?_new {i : Nat} (inside : i < max slots 1) :
    ∃ slot, (UringTx.new slots).slots[i]? = some slot ∧ slot.state = .free ∧
      slot.nextFree = if i + 1 < max slots 1 then .ofNat (i + 1) else noSlot := by
  unfold UringTx.new
  rw [List.getElem?_map, List.getElem?_range inside, Option.map_some]
  exact ⟨_, rfl, rfl, rfl⟩

theorem length_new (slots : Nat) : (UringTx.new slots).slots.length = max slots 1 := by
  simp [UringTx.new]

theorem stateAt_new (slots i : Nat) :
    stateAt (UringTx.new slots).slots i = if i < max slots 1 then some .free else none := by
  unfold stateAt
  split
  · rename_i inside
    obtain ⟨slot, held, isFree, -⟩ := getElem?_new inside
    rw [held, Option.map_some, isFree]
  · rename_i outside
    rw [List.getElem?_eq_none (by rw [length_new]; omega)]
    rfl

theorem tally_new (slots : Nat) {state : SlotState} (other : state ≠ .free) :
    tally state (UringTx.new slots).slots = 0 := by
  unfold tally
  rw [List.countP_eq_zero]
  intro slot listed
  obtain ⟨i, -, rfl⟩ := List.mem_map.mp listed
  exact (decide_eq_true_iff).not.mpr (Ne.symm other)

/-- The links of a new queue run through its slots in order. -/
theorem threaded_new (few : slots ≤ 65535) {first count : Nat}
    (ends : first + count = max slots 1) :
    Threaded (nextAt (UringTx.new slots).slots) noSlot
      (if first < max slots 1 then .ofNat first else noSlot)
      ((List.range' first count).map .ofNat) := by
  induction count generalizing first with
  | zero =>
      rw [if_neg (by omega)]
      exact .done
  | succ count inductionHypothesis =>
      have inside : first < max slots 1 := by omega
      have number : (UInt16.ofNat first).toNat = first :=
        UInt16.toNat_ofNat_of_lt' (show first < 65536 by omega)
      obtain ⟨slot, held, -, link⟩ := getElem?_new inside
      rw [if_pos inside, List.range'_succ, List.map_cons]
      have rest : first + 1 + count = max slots 1 := by omega
      refine .visit (fun sentinel => ?_) ?_ (inductionHypothesis rest)
      · have equal := congrArg UInt16.toNat sentinel
        rw [number] at equal
        have top : noSlot.toNat = 65535 := rfl
        omega
      · rw [nextAt, number, held, Option.map_some, link]

theorem accounted_new (few : slots ≤ 65535) : Accounted (.new slots) [] where
  few := by rw [length_new]; omega
  free := by
    refine ⟨(List.range' 0 (max slots 1)).map .ofNat, ?_, fun i => ?_⟩
    · have threaded := threaded_new few (Nat.zero_add (max slots 1))
      rw [if_pos (by omega)] at threaded
      exact threaded
    · rw [stateAt_new, List.mem_map]
      constructor
      · rintro ⟨number, listed, rfl⟩
        have inside := (List.mem_range'_1.mp listed).2
        rw [UInt16.toNat_ofNat_of_lt' (show number < 65536 by omega), if_pos (by omega)]
      · intro isFree
        have inside : i.toNat < max slots 1 := by
          by_contra outside
          rw [if_neg outside] at isFree
          cases isFree
        exact ⟨i.toNat, List.mem_range'_1.mpr ⟨Nat.zero_le _, by omega⟩, UInt16.ofNat_toNat⟩
  staged := (tally_new slots (by decide)).symm
  inflight := (tally_new slots (by decide)).symm
  unique := List.nodup_nil
  intact entry listed := nomatch listed
  awaited i flying := by
    rw [stateAt_new] at flying
    split at flying <;> cases flying

end New

theorem accounted_of_step {state target : UringSystem} {action : UringAction}
    (accounted : Accounted state.tx state.outstanding) (step : UringStep state action target) :
    Accounted target.tx target.outstanding := by
  cases step with
  | @staged peer fill tx answer =>
      rcases accounted.stage_cases peer fill with ⟨-, refused⟩ | ⟨slot, after, taken⟩
      · rw [refused] at answer
        cases answer
      · obtain ⟨listed, held, -, state, link, -, accepted⟩ := taken
        rw [accepted] at answer
        cases answer
        exact accounted.take listed held link state
  | busy => exact accounted
  | @submitted room submit tx entries result answer =>
      obtain ⟨after, pushed, _, submitted, kept⟩ := accounted.submitStaged room submit
      rw [submitted] at answer
      cases answer
      exact kept
  | reaped order same => exact (accounted.perm order).reap same

theorem accounted_of_reachable {slots : Nat} (few : slots ≤ 65535) {state : UringSystem}
    (reached : (uring slots).Reachable state) : Accounted state.tx state.outstanding := by
  apply reached.invariant (P := fun state => Accounted state.tx state.outstanding)
  · rintro state rfl
    exact accounted_new few
  · intro state action target accounted step
    exact accounted_of_step accounted step

/-- The free list reaches exactly the free slots, each once. -/
def FreeListExact (tx : UringTx) : Prop :=
  ∃ free, Threaded (nextAt tx.slots) noSlot tx.freeHead free ∧ free.Nodup ∧
    ∀ i, stateAt tx.slots i = some .free ↔ ∃ listed ∈ free, listed.toNat = i

/-- Staging is refused when no slot is free; otherwise `fill` gets the buffer of a free slot,
which no submission refers to, and no other slot changes. -/
def StagesFreeSlot (state : UringSystem) : Prop :=
  ∀ peer fill,
    (state.tx.stage peer fill = some (.error .busy) ∧
      ∀ i, stateAt state.tx.slots i ≠ some .free) ∨
    ∃ idx slot after tx, state.tx.stage peer fill = some (.ok tx) ∧
      state.tx.slots[idx]? = some slot ∧ slot.state = .free ∧
      (∀ entry ∈ state.outstanding, entry.userData.toNat ≠ idx) ∧
      (after.buf, after.len) = fill slot.buf ∧ after.state = .staged ∧
      tx.slots = state.tx.slots.set idx after

/-- The kernel reads of every slot in flight what was there when it was submitted. -/
def InFlightIntact (state : UringSystem) : Prop :=
  ∀ entry ∈ state.outstanding, ∃ slot, state.tx.slots[entry.userData.toNat]? = some slot ∧
    slot.state = .inFlight ∧ slot.toSlotContents = entry.datagram

namespace Accounted

variable {tx : UringTx} {outstanding : List Submission}

theorem freeListExact (accounted : Accounted tx outstanding) : FreeListExact tx := by
  obtain ⟨free, threaded, members⟩ := accounted.free
  refine ⟨free, threaded, threaded.nodup, fun i => ⟨fun isFree => ?_, ?_⟩⟩
  · obtain ⟨slot, held, -⟩ := Option.map_eq_some_iff.mp isFree
    have number : (UInt16.ofNat i).toNat = i :=
      UInt16.toNat_ofNat_of_lt' (Nat.lt_succ_of_lt (accounted.lt_of_held held))
    refine ⟨.ofNat i, (members _).mpr ?_, number⟩
    rwa [number]
  · rintro ⟨listed, member, rfl⟩
    exact (members listed).mp member

theorem available (accounted : Accounted tx outstanding) :
    tx.available = some (tally .free tx.slots) := by
  have parts := length_eq_tally tx.slots
  have staged := accounted.staged
  have inflight := accounted.inflight
  unfold UringTx.available
  rw [if_pos (by omega)]
  congr 1
  omega

theorem stagesFreeSlot (accounted : Accounted tx outstanding) :
    StagesFreeSlot ⟨tx, outstanding⟩ := by
  intro peer fill
  rcases accounted.stage_cases peer fill with ⟨empty, refused⟩ | ⟨slot, after, taken⟩
  · exact .inl ⟨refused, accounted.none_free empty⟩
  · obtain ⟨-, held, isFree, state, -, filled, accepted⟩ := taken
    refine .inr ⟨_, slot, after, _, accepted, held, isFree, fun entry listed => ?_, filled, state,
      rfl⟩
    exact accounted.apart held (by rw [isFree]; decide) listed

end Accounted

/-- In every state of a queue of at most 65535 slots the free list and the counters agree with
the states of the slots, and no buffer is handed out that the kernel may still read. -/
theorem slots_accounted {slots : Nat} (few : slots ≤ 65535) {state : UringSystem}
    (reached : (uring slots).Reachable state) :
    FreeListExact state.tx ∧
    state.tx.staged = tally .staged state.tx.slots ∧
    state.tx.inflight = tally .inFlight state.tx.slots ∧
    state.tx.available = some (tally .free state.tx.slots) ∧
    (∀ room submit, (state.tx.submitStaged room submit).isSome) ∧
    StagesFreeSlot state ∧ InFlightIntact state := by
  have accounted := accounted_of_reachable few reached
  refine ⟨accounted.freeListExact, accounted.staged, accounted.inflight, accounted.available,
    fun room submit => ?_, accounted.stagesFreeSlot, accounted.intact⟩
  obtain ⟨_, _, _, submitted, -⟩ := accounted.submitStaged room submit
  rw [submitted]
  rfl

/-- Both slots are submitted, the second is completed and the first is still in flight. -/
theorem slots_accounted_reaped :
    ∃ state, (uring 2).Reachable state ∧ state.outstanding.map (·.userData) = [0] ∧
      state.tx.available = some (tally .free state.tx.slots) ∧ tally .free state.tx.slots = 1 := by
  have start : (uring 2).Reachable ⟨.new 2, []⟩ := .of_initial rfl
  have first := start.step
    (@UringStep.staged _ ⟨.v4 0x7F000001, 1000⟩ (fun buf => (buf, 5)) _ rfl)
  have both := first.step
    (@UringStep.staged _ ⟨.v4 0x7F000001, 1001⟩ (fun buf => (buf, 7)) _ rfl)
  have submitted := both.step (@UringStep.submitted _ 2 (.ok ()) _ _ _ rfl)
  have latestFirst (list : List Submission) : list.Perm (list.drop 1 ++ list.take 1) :=
    (List.perm_append_comm.trans (.of_eq (List.take_append_drop 1 list))).symm
  have reached := submitted.step (@UringStep.reaped _ [⟨1, 7⟩] _ _ (latestFirst _) rfl)
  obtain ⟨-, -, -, available, -⟩ := slots_accounted (by decide) reached
  exact ⟨_, reached, rfl, available, rfl⟩

end Teleop.Link
