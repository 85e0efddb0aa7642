import Mathlib.Data.List.Nodup
import Teleop.Core.MpmcSteps
import Teleop.Lib.Indexed
import Teleop.Lib.TransitionSystem

/-!
# The ring under contention

Any number of threads call `push` and `pop`; the atomic accesses of the calls
interleave arbitrarily and a weak compare-exchange may fail at any time.  Beside
the ring the state keeps the values in the order of their claimed positions and
the positions that were read, with the values found there.
-/

namespace Teleop.Core

open Teleop.Lib Teleop.Ring MpmcRing

universe u

variable {T : Type u}

/-- A push that has claimed its position, returned or not. -/
def Call.enqueued : Call T → Bool
  | .pushWrite _ _ | .pushPublish _ | .pushed (.ok _) => true
  | _ => false

/-- A pop that has claimed its position, returned or not. -/
def Call.dequeued : Call T → Bool
  | .popRead _ | .popRelease _ _ | .popped (some _) => true
  | _ => false

/-- What a step takes out of the ring: the value that a pop reads at its position. -/
def taken : Call T → Call T → List (Nat × T)
  | .popRead pos, .popRelease _ value => [(pos, value)]
  | _, _ => []

namespace Mpmc

/-- The ring, the calls made so far, the values pushed by position and the positions read. -/
structure State (T : Type u) where
  ring : MpmcRing T
  calls : List (Call T)
  pushed : List T
  taken : List (Nat × T)

inductive Action (T : Type u) where
  | push (value : T)
  | pop
  | access (id : Nat) (spurious : Bool)

def next (state : State T) : Action T → Option (State T)
  | .push value => some { state with calls := state.calls ++ [.pushLoad value] }
  | .pop => some { state with calls := state.calls ++ [.popLoad] }
  | .access id spurious =>
      match state.calls[id]? with
      | none => none
      | some call =>
          (state.ring.step spurious call).map fun result =>
            { ring := result.1
              calls := state.calls.set id result.2
              pushed := state.pushed ++ claimed call result.2
              taken := state.taken ++ Core.taken call result.2 }

/-- A new ring on which nothing was called yet. -/
def start (capacity : Nat) : State T where
  ring := withCapacity capacity
  calls := []
  pushed := []
  taken := []

/-- All interleavings of all calls on a new ring. -/
def threads (capacity : Nat) : TransitionSystem (State T) (Action T) :=
  .ofNext (· = start capacity) next

end Mpmc

namespace MpmcRing

variable {ring target : MpmcRing T} {call after : Call T} {spurious : Bool}

/-- What a step does to the enqueue side. -/
theorem step_enqueue_cases (stepped : ring.step spurious call = some (target, after)) :
    (∃ value pos, call = .pushClaim value pos ∧ after = .pushWrite value pos ∧
      cursor ring.enqueuePos = cursor pos ∧ target.enqueuePos = ring.enqueuePos + 1) ∨
    (target.enqueuePos = ring.enqueuePos ∧ claimed call after = [] ∧
      after.enqueued = call.enqueued) := by
  cases accesses_of_step stepped with
  | pushClaim won => exact .inl ⟨_, _, rfl, rfl, won, rfl⟩
  | _ => exact .inr ⟨rfl, rfl, rfl⟩

/-- What a step does to the dequeue side. -/
theorem step_dequeue_cases (stepped : ring.step spurious call = some (target, after)) :
    (∃ pos, call = .popClaim pos ∧ after = .popRead pos ∧
      cursor ring.dequeuePos = cursor pos ∧ target.dequeuePos = ring.dequeuePos + 1) ∨
    (∃ pos value cell, call = .popRead pos ∧ after = .popRelease pos value ∧ target = ring ∧
      ring.cell pos = some cell ∧ cell.value = some value) ∨
    (target.dequeuePos = ring.dequeuePos ∧ Core.taken call after = [] ∧
      after.dequeued = call.dequeued ∧ (∀ pos, call ≠ .popRead pos) ∧
      (∀ pos, after ≠ .popRead pos) ∧ ∀ pos value, after ≠ .popRelease pos value) := by
  cases accesses_of_step stepped with
  | popClaim won => exact .inl ⟨_, rfl, rfl, won, rfl⟩
  | popRead held stored => exact .inr (.inl ⟨_, _, _, rfl, rfl, rfl, held, stored⟩)
  | _ => simp [Core.taken, Call.dequeued, setCell]

/-- A new ring: all cells are free for the first lap. -/
theorem protocol_withCapacity {capacity : Nat} (small : max capacity 1 ≤ 2 ^ 63)
    {calls : Nat → Option (Call T)} (none : ∀ id, calls id = none) :
    (withCapacity capacity : MpmcRing T).Protocol calls [] where
  rounded := nextPowerOfTwo_of_le small
  enqueued := rfl
  le := Nat.le_refl 0
  room := Nat.zero_le _
  full _ _ _ inside := nomatch inside
  free p _ near _ := by
    have rounded : (withCapacity capacity : MpmcRing T).Rounded := nextPowerOfTwo_of_le small
    have inside : p < (withCapacity capacity : MpmcRing T).cap := by
      simpa [withCapacity] using near
    refine ⟨⟨p, .none⟩, ?_, rfl⟩
    unfold cell
    rw [rounded.maskIndex, Nat.mod_eq_of_lt inside]
    exact if_pos inside
  holds id call held := nomatch (none id).symm.trans held
  oneWriter id _ _ writing _ := by
    rw [none] at writing
    exact absurd writing (writing_none _)
  oneReader id _ _ reading _ := by
    rw [none] at reading
    exact absurd reading (reading_none _)

end MpmcRing

namespace Mpmc

variable {capacity : Nat} {state target : State T}

/-- The calls of a state by identifier. -/
abbrev State.call (state : State T) (id : Nat) : Option (Call T) := state.calls[id]?

/-- Positions dequeued are read or about to be read, each once, with the value pushed there;
and no counter exceeds the number of calls. -/
structure Ledger (state : State T) : Prop where
  protocol : state.ring.Protocol state.call state.pushed
  takenPushed : ∀ p value, (p, value) ∈ state.taken → state.pushed[p]? = some value
  nodup : (state.taken.map Prod.fst).Nodup
  dequeued : ∀ p, p < state.ring.dequeuePos ↔
    (∃ value, (p, value) ∈ state.taken) ∨ ∃ id, state.call id = some (.popRead p)
  unread : ∀ p value id, (p, value) ∈ state.taken → state.call id ≠ some (.popRead p)
  released : ∀ id p value, state.call id = some (.popRelease p value) → (p, value) ∈ state.taken
  enqueues : state.ring.enqueuePos = state.calls.countP Call.enqueued
  dequeues : state.ring.dequeuePos = state.calls.countP Call.dequeued

/-- With fewer calls than words, no counter wraps. -/
theorem Ledger.unwrapped (ledger : Ledger state) (few : state.calls.length < 2 ^ 63) {id : Nat}
    {call : Call T} (held : state.call id = some call) : state.ring.Unwrapped call := by
  have enqueues := ledger.enqueues
  have dequeues := ledger.dequeues
  have limitEnqueued : state.calls.countP Call.enqueued ≤ state.calls.length :=
    List.countP_le_length
  have limitDequeued : state.calls.countP Call.dequeued ≤ state.calls.length :=
    List.countP_le_length
  have holds := ledger.protocol.holds id call held
  cases call with
  | pushClaim value pos => exact fun same => cursor_inj holds.1 (by omega) same
  | popClaim pos => exact fun same => cursor_inj holds.1 (by omega) same
  | _ => trivial

theorem Ledger.claimable (ledger : Ledger state) (two : 2 ≤ state.ring.cap) {id : Nat}
    {call : Call T} (held : state.call id = some call) :
    state.ring.Claimable state.call call := by
  have holds := ledger.protocol.holds id call held
  cases call with
  | pushClaim value pos =>
      rintro rfl
      exact ledger.protocol.claimable two (holds.2 rfl)
  | _ => trivial

theorem ledger_start (small : max capacity 1 ≤ 2 ^ 63) : Ledger (start capacity : State T) where
  protocol := protocol_withCapacity small fun _ => rfl
  takenPushed _ _ listed := nomatch listed
  nodup := List.nodup_nil
  dequeued p := by simp [start, withCapacity, State.call]
  unread _ _ _ listed := nomatch listed
  released _ _ _ held := nomatch held
  enqueues := rfl
  dequeues := rfl

/-- A call that has just been made has claimed and read nothing. -/
theorem Ledger.call (ledger : Ledger state) {call : Call T}
    (fresh : (∃ value, call = .pushLoad value) ∨ call = .popLoad) :
    Ledger { state with calls := state.calls ++ [call] } := by
  have none : state.call state.calls.length = none := List.getElem?_eq_none (Nat.le_refl _)
  have calls : (fun other => (state.calls ++ [call])[other]?) =
      Function.update state.call state.calls.length (some call) :=
    getElem?_append_eq_update state.calls call
  have stages : ∀ stage : Call T, call ≠ stage → ∀ other,
      (state.calls ++ [call])[other]? = some stage ↔ state.call other = some stage := by
    intro stage different other
    have before : state.call state.calls.length ≠ some stage := by
      rw [none]
      exact nofun
    have same := update_eq_some_iff before (fun here => different (Option.some.inj here)) other
    rwa [← calls] at same
  have notRead : ∀ p, call ≠ .popRead p := by
    rintro p rfl
    obtain ⟨value, impossible⟩ | impossible := fresh <;> cases impossible
  have notRelease : ∀ p value, call ≠ .popRelease p value := by
    rintro p value rfl
    obtain ⟨value, impossible⟩ | impossible := fresh <;> cases impossible
  have counts : call.enqueued = false ∧ call.dequeued = false := by
    obtain ⟨value, rfl⟩ | rfl := fresh <;> exact ⟨rfl, rfl⟩
  refine { ledger with
    protocol := ?_, dequeued := ?_, unread := ?_, released := ?_, enqueues := ?_, dequeues := ?_ }
  · show state.ring.Protocol (fun other => (state.calls ++ [call])[other]?) state.pushed
    rw [calls]
    refine ledger.protocol.move ?_ ?_ ?_
    · intro p
      rw [none]
      obtain ⟨value, rfl⟩ | rfl := fresh <;> simp [Call.Writes]
    · intro p
      rw [none]
      obtain ⟨value, rfl⟩ | rfl := fresh <;> simp [Call.Reads]
    · rintro other ⟨⟩
      obtain ⟨value, rfl⟩ | rfl := fresh <;> trivial
  · intro p
    refine (ledger.dequeued p).trans (or_congr_right (exists_congr fun id => ?_))
    exact (stages (.popRead p) (notRead p) id).symm
  · intro p value id listed held
    exact ledger.unread p value id listed ((stages (.popRead p) (notRead p) id).mp held)
  · intro id p value held
    exact ledger.released id p value
      ((stages (.popRelease p value) (notRelease p value) id).mp held)
  · simp [ledger.enqueues, counts.1]
  · simp [ledger.dequeues, counts.2]

section Access

variable {id : Nat} {call after : Call T} {ring : MpmcRing T}

/-- The state after an access of one call. -/
def State.access (state : State T) (id : Nat) (call after : Call T) (ring : MpmcRing T) :
    State T where
  ring := ring
  calls := state.calls.set id after
  pushed := state.pushed ++ claimed call after
  taken := state.taken ++ Core.taken call after

theorem State.call_access (held : state.call id = some call) :
    (state.access id call after ring).call = Function.update state.call id (some after) :=
  getElem?_set_eq_update held after

theorem State.pushed_access {p : Nat} {value : T} (before : state.pushed[p]? = some value) :
    (state.access id call after ring).pushed[p]? = some value := by
  unfold State.access
  rw [List.getElem?_append_left (List.getElem?_eq_some_iff.mp before).1]
  exact before

/-- What was taken stays pushed. -/
theorem Ledger.takenPushed_access (ledger : Ledger state)
    (sameTaken : (state.access id call after ring).taken = state.taken) :
    ∀ p value, (p, value) ∈ (state.access id call after ring).taken →
      (state.access id call after ring).pushed[p]? = some value := by
  intro p value listed
  rw [sameTaken] at listed
  exact State.pushed_access (ledger.takenPushed p value listed)

/-- A pop claims its position. -/
theorem Ledger.afterClaim (ledger : Ledger state) {pos : Nat}
    (held : state.call id = some (.popClaim pos)) (next : state.ring.dequeuePos = pos)
    (moved : ring.dequeuePos = state.ring.dequeuePos + 1)
    (protocol : ring.Protocol (state.access id (.popClaim pos) (.popRead pos) ring).call
      (state.access id (.popClaim pos) (.popRead pos) ring).pushed)
    (enqueues : ring.enqueuePos =
      (state.calls.set id (.popRead pos)).countP Call.enqueued) :
    Ledger (state.access id (.popClaim pos) (.popRead pos) ring) := by
  have calls : (state.access id (.popClaim pos) (.popRead pos) ring).call =
      Function.update state.call id (some (.popRead pos)) := State.call_access held
  have sameTaken : (state.access id (.popClaim pos) (.popRead pos) ring).taken = state.taken :=
    List.append_nil _
  have earlier : ∀ p value, (p, value) ∈ state.taken → p < state.ring.dequeuePos :=
    fun p value listed => (ledger.dequeued p).mpr (.inl ⟨value, listed⟩)
  refine { protocol := protocol, enqueues := enqueues, takenPushed := ?_, nodup := ?_,
           dequeued := ?_, unread := ?_, released := ?_, dequeues := ?_ }
  · exact ledger.takenPushed_access sameTaken
  · rw [sameTaken]
    exact ledger.nodup
  · intro p
    rw [sameTaken, calls]
    show p < ring.dequeuePos ↔ _
    rw [moved]
    constructor
    · intro claimedNow
      rcases Nat.lt_or_eq_of_le (Nat.le_of_lt_succ claimedNow) with before | rfl
      · refine ((ledger.dequeued p).mp before).imp_right ?_
        rintro ⟨other, reading⟩
        have apart : other ≠ id := by
          rintro rfl
          cases held.symm.trans reading
        exact ⟨other, by rw [Function.update_of_ne apart]; exact reading⟩
      · exact .inr ⟨id, by rw [Function.update_self, next]⟩
    · rintro (⟨value, listed⟩ | ⟨other, reading⟩)
      · exact Nat.lt_succ_of_lt (earlier p value listed)
      · rcases eq_some_of_update reading with ⟨rfl, ⟨⟩⟩ | ⟨-, before⟩
        · omega
        · exact Nat.lt_succ_of_lt ((ledger.dequeued p).mpr (.inr ⟨other, before⟩))
  · intro p value other listed reading
    rw [sameTaken] at listed
    rw [calls] at reading
    rcases eq_some_of_update reading with ⟨rfl, ⟨⟩⟩ | ⟨-, before⟩
    · have := earlier pos value listed
      omega
    · exact ledger.unread p value other listed before
  · intro other p value releasing
    rw [sameTaken]
    rw [calls] at releasing
    rcases eq_some_of_update releasing with ⟨rfl, ⟨⟩⟩ | ⟨-, before⟩
    exact ledger.released other p value before
  · show ring.dequeuePos = (state.calls.set id (.popRead pos)).countP Call.dequeued
    rw [moved, ledger.dequeues, countP_set_new held rfl rfl]

/-- A pop reads the value at its position. -/
theorem Ledger.afterRead (ledger : Ledger state) {pos : Nat} {value : T} {cell : Cell T}
    (held : state.call id = some (.popRead pos)) (heldCell : state.ring.cell pos = some cell)
    (stored : cell.value = some value)
    (protocol : state.ring.Protocol
      (state.access id (.popRead pos) (.popRelease pos value) state.ring).call
      (state.access id (.popRead pos) (.popRelease pos value) state.ring).pushed) :
    Ledger (state.access id (.popRead pos) (.popRelease pos value) state.ring) := by
  have calls : (state.access id (.popRead pos) (.popRelease pos value) state.ring).call =
      Function.update state.call id (some (.popRelease pos value)) := State.call_access held
  have grown : (state.access id (.popRead pos) (.popRelease pos value) state.ring).taken =
      state.taken ++ [(pos, value)] := rfl
  obtain ⟨early, _, found, pushedHere, written⟩ := ledger.protocol.holds id _ held
  obtain rfl : found = value := by
    rw [written] at heldCell
    cases heldCell
    exact Option.some.inj stored
  have mine : Reading (state.call id) pos := ⟨_, held, rfl⟩
  refine { protocol := protocol, takenPushed := ?_, nodup := ?_, dequeued := ?_, unread := ?_,
           released := ?_, enqueues := ?_, dequeues := ?_ }
  · intro p given listed
    rw [grown, List.mem_append, List.mem_singleton] at listed
    rcases listed with before | new
    · exact State.pushed_access (ledger.takenPushed p given before)
    · cases new
      exact State.pushed_access pushedHere
  · rw [grown, List.map_append, List.nodup_append]
    refine ⟨ledger.nodup, List.nodup_singleton _, ?_⟩
    rintro p listed q new rfl
    obtain rfl : p = pos := List.mem_singleton.mp new
    obtain ⟨⟨_, given⟩, before, rfl⟩ := List.mem_map.mp listed
    exact ledger.unread _ given id before held
  · intro p
    rw [calls]
    refine (ledger.dequeued p).trans ?_
    constructor
    · rintro (⟨given, listed⟩ | ⟨other, reading⟩)
      · exact .inl ⟨given, by rw [grown]; exact List.mem_append_left _ listed⟩
      · by_cases here : other = id
        · subst here
          cases held.symm.trans reading
          exact .inl ⟨found, by rw [grown]; simp⟩
        · exact .inr ⟨other, by rw [Function.update_of_ne here]; exact reading⟩
    · rintro (⟨given, listed⟩ | ⟨other, reading⟩)
      · rw [grown, List.mem_append, List.mem_singleton] at listed
        rcases listed with before | new
        · exact .inl ⟨given, before⟩
        · cases new
          exact .inr ⟨id, held⟩
      · rcases eq_some_of_update reading with ⟨rfl, ⟨⟩⟩ | ⟨-, before⟩
        exact .inr ⟨other, before⟩
  · intro p given other listed reading
    rw [calls] at reading
    rcases eq_some_of_update reading with ⟨rfl, ⟨⟩⟩ | ⟨here, stillReading⟩
    rw [grown, List.mem_append, List.mem_singleton] at listed
    rcases listed with before | new
    · exact ledger.unread p given other before stillReading
    · cases new
      exact here (ledger.protocol.oneReader other id pos ⟨_, stillReading, rfl⟩ mine)
  · intro other p given releasing
    rw [grown]
    rw [calls] at releasing
    rcases eq_some_of_update releasing with ⟨rfl, ⟨⟩⟩ | ⟨-, before⟩
    · simp
    · exact List.mem_append_left _ (ledger.released other p given before)
  · have same : (state.calls.set id (.popRelease pos found)).countP Call.enqueued =
        state.calls.countP Call.enqueued := countP_set_same held rfl
    exact ledger.enqueues.trans same.symm
  · have same : (state.calls.set id (.popRelease pos found)).countP Call.dequeued =
        state.calls.countP Call.dequeued := countP_set_same held rfl
    exact ledger.dequeues.trans same.symm

/-- Any other access leaves the dequeue side alone. -/
theorem Ledger.afterOther (ledger : Ledger state) (held : state.call id = some call)
    (same : ring.dequeuePos = state.ring.dequeuePos) (nothing : Core.taken call after = [])
    (flag : after.dequeued = call.dequeued) (notRead : ∀ pos, call ≠ .popRead pos)
    (notReading : ∀ pos, after ≠ .popRead pos) (notRelease : ∀ pos value, after ≠ .popRelease pos value)
    (protocol : ring.Protocol (state.access id call after ring).call
      (state.access id call after ring).pushed)
    (enqueues : ring.enqueuePos = (state.calls.set id after).countP Call.enqueued) :
    Ledger (state.access id call after ring) := by
  have calls : (state.access id call after ring).call =
      Function.update state.call id (some after) := State.call_access held
  have sameTaken : (state.access id call after ring).taken = state.taken := by
    unfold State.access
    rw [nothing, List.append_nil]
  have reading : ∀ p other, Function.update state.call id (some after) other = some (.popRead p) ↔
      state.call other = some (.popRead p) := by
    intro p other
    refine update_eq_some_iff ?_ ?_ other
    · rw [held]
      exact fun here => notRead p (Option.some.inj here)
    · exact fun here => notReading p (Option.some.inj here)
  refine { protocol := protocol, enqueues := enqueues, takenPushed := ?_, nodup := ?_,
           dequeued := ?_, unread := ?_, released := ?_, dequeues := ?_ }
  · exact ledger.takenPushed_access sameTaken
  · rw [sameTaken]
    exact ledger.nodup
  · intro p
    rw [sameTaken, calls]
    show p < ring.dequeuePos ↔ _
    rw [same]
    exact (ledger.dequeued p).trans (or_congr_right (exists_congr fun other => (reading p other).symm))
  · intro p value other listed held
    rw [sameTaken] at listed
    rw [calls] at held
    exact ledger.unread p value other listed ((reading p other).mp held)
  · intro other p value releasing
    rw [sameTaken]
    rw [calls] at releasing
    rcases eq_some_of_update releasing with ⟨rfl, impossible⟩ | ⟨-, before⟩
    · exact absurd impossible (notRelease p value)
    · exact ledger.released other p value before
  · show ring.dequeuePos = (state.calls.set id after).countP Call.dequeued
    rw [same, ledger.dequeues, countP_set_same held flag]

/-- One access keeps the ledger, given that no compare-exchange succeeds on a wrapped counter
and that a claimed cell is free. -/
theorem Ledger.access (ledger : Ledger state) {spurious : Bool}
    (held : state.call id = some call) (unwrapped : state.ring.Unwrapped call)
    (claimable : state.ring.Claimable state.call call)
    (stepped : state.ring.step spurious call = some (ring, after)) :
    Ledger (state.access id call after ring) := by
  have protocol : ring.Protocol (state.access id call after ring).call
      (state.access id call after ring).pushed := by
    rw [State.call_access held]
    exact ledger.protocol.step held unwrapped claimable stepped
  have enqueues : ring.enqueuePos = (state.calls.set id after).countP Call.enqueued := by
    rcases step_enqueue_cases stepped with ⟨value, pos, rfl, rfl, _, moved⟩ | ⟨same, _, flag⟩
    · rw [moved, ledger.enqueues, countP_set_new held rfl rfl]
    · rw [same, ledger.enqueues, countP_set_same held flag]
  rcases step_dequeue_cases stepped with
    ⟨pos, rfl, rfl, won, moved⟩ | ⟨pos, value, cell, rfl, rfl, rfl, heldCell, stored⟩ |
      ⟨same, nothing, flag, notRead, notReading, notRelease⟩
  · exact ledger.afterClaim held (unwrapped won) moved protocol enqueues
  · exact ledger.afterRead held heldCell stored protocol
  · exact ledger.afterOther held same nothing flag notRead notReading notRelease protocol enqueues

end Access

end Mpmc

end Teleop.Core
