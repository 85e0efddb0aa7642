import Teleop.Core.MpmcSequential
import Teleop.Lib.TransitionSystem

/-!
# The buffer pool

`get_with` pops a slot index from the free-list, counts the slot as checked out
and initializes it on first use; dropping the guard pushes the index back.  Every
caller takes its atomic accesses one at a time, in any order with the others.
-/

namespace Teleop.Core

open Teleop.Lib

universe u

variable {T : Type u}

namespace MpmcRing

/-- Push one value after another with no other call in progress; a refusal is ignored. -/
inductive PushesAll : MpmcRing T → List T → MpmcRing T → Prop
  | nil (ring : MpmcRing T) : PushesAll ring [] ring
  | cons {ring middle target : MpmcRing T} {failures : Nat} {value : T} {rest : List T}
      {result : Except T Unit} :
      Returns ring failures (.pushLoad value) middle (.pushed result) →
      PushesAll middle rest target → PushesAll ring (value :: rest) target

/-- Pushing on an idle ring with enough free cells appends all values. -/
theorem Idle.pushesAll {ring after : MpmcRing T} {pushed values : List T} (idle : ring.Idle pushed)
    (space : ring.enqueuePos + values.length ≤ ring.dequeuePos + ring.cap)
    (filled : ring.PushesAll values after) :
    after.Idle (pushed ++ values) ∧ after.dequeuePos = ring.dequeuePos ∧ after.cap = ring.cap := by
  induction filled generalizing pushed with
  | nil ring => exact ⟨by rwa [List.append_nil], rfl, rfl⟩
  | @cons ring middle target failures value rest result returns _ inductionHypothesis =>
      rw [List.length_cons] at space
      obtain ⟨free, idleThen⟩ := idle.push (by omega) value
      obtain ⟨rfl, _⟩ := returns.unique (returns_push free value failures)
      have room : (ring.stored value).enqueuePos + rest.length ≤
          (ring.stored value).dequeuePos + (ring.stored value).cap := by
        show ring.enqueuePos + 1 + rest.length ≤ ring.dequeuePos + ring.cap
        omega
      have onward := inductionHypothesis idleThen room
      rwa [List.append_assoc] at onward

theorem Idle.pushesAll_stored {ring : MpmcRing T} {pushed values : List T}
    (idle : ring.Idle pushed)
    (space : ring.enqueuePos + values.length ≤ ring.dequeuePos + ring.cap) :
    ring.PushesAll values (values.foldl stored ring) := by
  induction values generalizing ring pushed with
  | nil => exact .nil ring
  | cons value rest inductionHypothesis =>
      rw [List.length_cons] at space
      obtain ⟨free, idleThen⟩ := idle.push (by omega) value
      refine .cons (returns_push free value 0) (inductionHypothesis idleThen ?_)
      show ring.enqueuePos + 1 + rest.length ≤ ring.dequeuePos + ring.cap
      omega

end MpmcRing

/-- A pool of slots; `none` stands for uninitialized memory. -/
structure BufferPool (T : Type u) where
  slots : List (Option T)
  free : MpmcRing Nat
  initialized : List Bool
  outstanding : UInt64

namespace BufferPool

/-- A pool that `new` returns; `i` runs over `0..size as u32`.  With `2 ^ 63` slots the flags
alone exceed what can be allocated and `new` does not return. -/
structure New (size : Nat) (pool : BufferPool T) : Prop where
  allocated : max size 1 < 2 ^ 63
  slots : pool.slots = List.replicate (max size 1) none
  free : (MpmcRing.withCapacity (max size 1)).PushesAll (List.range (max size 1 % 2 ^ 32)) pool.free
  initialized : pool.initialized = List.replicate (max size 1) false
  outstanding : pool.outstanding = 0

/-- The pool that `new` returns when all its pushes find their cells free. -/
def fresh (T : Type u) (size : Nat) : BufferPool T where
  slots := List.replicate (max size 1) none
  free := (List.range (max size 1 % 2 ^ 32)).foldl MpmcRing.stored
    (MpmcRing.withCapacity (max size 1))
  initialized := List.replicate (max size 1) false
  outstanding := 0

/-- Total slot count. -/
def capacity (pool : BufferPool T) : Nat := pool.slots.length

/-- Slots currently checked out. -/
def inUse (pool : BufferPool T) : UInt64 := pool.outstanding

end BufferPool

namespace Pool

/-- How far a caller has come: in `get_with`, with its guard, or in the drop of the guard. -/
inductive Client where
  | getting (call : Call Nat)
  | checking (idx : Nat)
  | initializing (idx : Nat)
  | marking (idx : Nat)
  | holding (idx : Nat)
  | releasing (call : Call Nat)
  | finished

/-- The call of the free-list in progress. -/
def Client.call : Client → Option (Call Nat)
  | .getting call | .releasing call => some call
  | _ => none

/-- The next atomic access of a caller. -/
def access (pool : BufferPool T) (spurious : Bool) : Client → Option (BufferPool T × Client)
  | .getting (.popped none) => some (pool, .finished) -- exhausted
  | .getting (.popped (some idx)) =>
      some ({ pool with outstanding := pool.outstanding + 1 }, .checking idx)
  | .getting call =>
      (pool.free.step spurious call).map fun result =>
        ({ pool with free := result.1 }, .getting result.2)
  | .checking idx =>
      pool.initialized[idx]?.map fun initialized =>
        (pool, if initialized then .holding idx else .initializing idx)
  | .initializing _ => none
  | .marking idx => some ({ pool with initialized := pool.initialized.set idx true }, .holding idx)
  | .holding _ => none
  | .releasing (.pushed _) =>
      some ({ pool with outstanding := pool.outstanding - 1 }, .finished)
  | .releasing call =>
      (pool.free.step spurious call).map fun result =>
        ({ pool with free := result.1 }, .releasing result.2)
  | .finished => none

/-- `init` returns the value that is stored, or panics and takes `get_with` with it. -/
def init (pool : BufferPool T) : Option T → Client → Option (BufferPool T × Client)
  | some value, .initializing idx =>
      some ({ pool with slots := pool.slots.set idx (some value) }, .marking idx)
  | none, .initializing _ => some (pool, .finished)
  | _, _ => none

/-- Write the slot through its guard. -/
def modify (pool : BufferPool T) (value : T) : Client → Option (BufferPool T × Client)
  | .holding idx => some ({ pool with slots := pool.slots.set idx (some value) }, .holding idx)
  | _ => none

/-- Drop the guard. -/
def release (pool : BufferPool T) : Client → Option (BufferPool T × Client)
  | .holding idx => some (pool, .releasing (.pushLoad idx))
  | _ => none

structure State (T : Type u) where
  pool : BufferPool T
  clients : List Client

inductive Action (T : Type u) where
  | getWith
  | access (id : Nat) (spurious : Bool)
  | init (id : Nat) (result : Option T)
  | modify (id : Nat) (value : T)
  | drop (id : Nat)

/-- One caller moves. -/
def State.advance (state : State T) (id : Nat)
    (move : Client → Option (BufferPool T × Client)) : Option (State T) :=
  (state.clients[id]?.bind move).map fun result =>
    { pool := result.1, clients := state.clients.set id result.2 }

def next (state : State T) : Action T → Option (State T)
  | .getWith => some { state with clients := state.clients ++ [.getting .popLoad] }
  | .access id spurious => state.advance id (access state.pool spurious)
  | .init id result => state.advance id (init state.pool result)
  | .modify id value => state.advance id (modify state.pool value)
  | .drop id => state.advance id (release state.pool)

/-- All interleavings of all callers of a new pool. -/
def callers (T : Type u) (size : Nat) : TransitionSystem (State T) (Action T) :=
  .ofNext (fun state => state.pool.New size ∧ state.clients = []) next

variable {state target : State T} {pool after : BufferPool T} {client moved : Client}
  {spurious : Bool}

/-- A caller holds the guard of a slot. -/
def State.Holds (state : State T) (id idx : Nat) : Prop :=
  state.clients[id]? = some (.holding idx)

/-- A slot index that a pop can take from the free-list. -/
def State.Listed (state : State T) (idx : Nat) : Prop :=
  ∃ p, state.pool.free.dequeuePos ≤ p ∧ p < state.pool.free.enqueuePos ∧
    state.pool.free.cell p = some ⟨p + 1, some idx⟩

theorem advance_eq_some {id : Nat} {move : Client → Option (BufferPool T × Client)} :
    state.advance id move = some target ↔
      ∃ client after moved, state.clients[id]? = some client ∧ move client = some (after, moved) ∧
        target = { pool := after, clients := state.clients.set id moved } := by
  simp only [State.advance, Option.map_eq_some_iff, Option.bind_eq_some_iff, Prod.exists]
  constructor
  · rintro ⟨after, moved, ⟨client, held, moves⟩, rfl⟩
    exact ⟨client, after, moved, held, moves, rfl⟩
  · rintro ⟨client, after, moved, held, moves, rfl⟩
    exact ⟨after, moved, ⟨client, held, moves⟩, rfl⟩

/-- What an action finds its caller doing, and what it makes of the pool and the caller. -/
inductive Moves (pool : BufferPool T) (id : Nat) :
    Action T → Client → BufferPool T → Client → Prop
  | listed {wrap : Call Nat → Client} {call after : Call Nat} {free : MpmcRing Nat}
      {spurious : Bool} : wrap = .getting ∨ wrap = .releasing →
      pool.free.step spurious call = some (free, after) →
      Moves pool id (.access id spurious) (wrap call) { pool with free := free } (wrap after)
  | exhausted {spurious : Bool} :
      Moves pool id (.access id spurious) (.getting (.popped none)) pool .finished
  | counted {spurious : Bool} {idx : Nat} :
      Moves pool id (.access id spurious) (.getting (.popped (some idx)))
        { pool with outstanding := pool.outstanding + 1 } (.checking idx)
  | initialized {spurious : Bool} {idx : Nat} : pool.initialized[idx]? = some true →
      Moves pool id (.access id spurious) (.checking idx) pool (.holding idx)
  | uninitialized {spurious : Bool} {idx : Nat} : pool.initialized[idx]? = some false →
      Moves pool id (.access id spurious) (.checking idx) pool (.initializing idx)
  | marked {spurious : Bool} {idx : Nat} :
      Moves pool id (.access id spurious) (.marking idx)
        { pool with initialized := pool.initialized.set idx true } (.holding idx)
  | returned {spurious : Bool} {result : Except Nat Unit} :
      Moves pool id (.access id spurious) (.releasing (.pushed result))
        { pool with outstanding := pool.outstanding - 1 } .finished
  | filled {idx : Nat} {value : T} :
      Moves pool id (.init id (some value)) (.initializing idx)
        { pool with slots := pool.slots.set idx (some value) } (.marking idx)
  | panicked {idx : Nat} : Moves pool id (.init id none) (.initializing idx) pool .finished
  | modified {idx : Nat} {value : T} :
      Moves pool id (.modify id value) (.holding idx)
        { pool with slots := pool.slots.set idx (some value) } (.holding idx)
  | dropped {idx : Nat} :
      Moves pool id (.drop id) (.holding idx) pool (.releasing (.pushLoad idx))

theorem moves_of_access {id : Nat} (stepped : access pool spurious client = some (after, moved)) :
    Moves pool id (.access id spurious) client after moved := by
  unfold access at stepped
  split at stepped
  · cases stepped
    exact .exhausted
  · cases stepped
    exact .counted
  · obtain ⟨⟨free, next⟩, result, moves⟩ := Option.map_eq_some_iff.mp stepped
    cases moves
    exact .listed (.inl rfl) result
  · obtain ⟨initialized, flag, moves⟩ := Option.map_eq_some_iff.mp stepped
    cases moves
    cases initialized with
    | true => exact .initialized flag
    | false => exact .uninitialized flag
  · cases stepped
  · cases stepped
    exact .marked
  · cases stepped
  · cases stepped
    exact .returned
  · obtain ⟨⟨free, next⟩, result, moves⟩ := Option.map_eq_some_iff.mp stepped
    cases moves
    exact .listed (.inr rfl) result
  · cases stepped

/-- A step is a new call of `get_with` or one move of one caller. -/
theorem moves_of_next {action : Action T} (stepped : next state action = some target) :
    (action = .getWith ∧ target = { state with clients := state.clients ++ [.getting .popLoad] }) ∨
      ∃ id client after moved, state.clients[id]? = some client ∧
        Moves state.pool id action client after moved ∧
        target = { pool := after, clients := state.clients.set id moved } := by
  cases action with
  | getWith =>
      cases stepped
      exact .inl ⟨rfl, rfl⟩
  | access id spurious =>
      obtain ⟨client, after, moved, held, moves, rfl⟩ := advance_eq_some.mp stepped
      exact .inr ⟨id, client, after, moved, held, moves_of_access moves, rfl⟩
  | init id result =>
      obtain ⟨client, after, moved, held, moves, rfl⟩ := advance_eq_some.mp stepped
      unfold init at moves
      split at moves <;> cases moves
      · exact .inr ⟨id, _, _, _, held, .filled, rfl⟩
      · exact .inr ⟨id, _, _, _, held, .panicked, rfl⟩
  | modify id value =>
      obtain ⟨client, after, moved, held, moves, rfl⟩ := advance_eq_some.mp stepped
      unfold modify at moves
      split at moves <;> cases moves
      exact .inr ⟨id, _, _, _, held, .modified, rfl⟩
  | drop id =>
      obtain ⟨client, after, moved, held, moves, rfl⟩ := advance_eq_some.mp stepped
      unfold release at moves
      split at moves <;> cases moves
      exact .inr ⟨id, _, _, _, held, .dropped, rfl⟩

end Pool

end Teleop.Core
