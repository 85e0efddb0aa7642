import Teleop.Core.Pool
import Teleop.Lib.Indexed
import Teleop.Lib.Ownership

/-!
# Who has a slot

A slot index is held by a position of the free-list or by a caller: by one that
popped it, by its guard, or by one that is still to claim a position for it.
Every access hands indices round without giving one to two owners, and only a
push that reports a full free-list loses its index.
-/

namespace Teleop.Core

open Teleop.Lib Teleop.Ring MpmcRing

universe u

/-- The index in the hands of a call of the free-list. -/
def Call.owns (pushed : List Nat) : Call Nat → Option Nat
  | .pushLoad value | .pushCheck value _ | .pushClaim value _ | .popRelease _ value => some value
  | .popRead pos => pushed[pos]?
  | .popped result => result
  | .pushWrite _ _ | .pushPublish _ | .pushed _ | .popLoad | .popCheck _ | .popClaim _ => none

namespace MpmcRing

variable {ring target : MpmcRing Nat} {calls : Nat → Option (Call Nat)} {pushed : List Nat}
  {call after : Call Nat} {spurious : Bool}

/-- What an access does with the index of its call. -/
theorem step_owner_cases (holds : ring.CallHolds pushed call) (unwrapped : ring.Unwrapped call)
    (stepped : ring.step spurious call = some (target, after)) :
    (∃ value, call = .pushClaim value ring.enqueuePos ∧ after = .pushWrite value ring.enqueuePos ∧
      target = { ring with enqueuePos := ring.enqueuePos + 1 }) ∨
    (call = .popClaim ring.dequeuePos ∧ after = .popRead ring.dequeuePos ∧
      target = { ring with dequeuePos := ring.dequeuePos + 1 }) ∨
    (target.dequeuePos = ring.dequeuePos ∧ claimed call after = [] ∧
      (after.owns pushed = call.owns pushed ∨
        ∃ value pos cell, call = .pushCheck value pos ∧ after = .pushed (.error value) ∧
          ring.cell pos = some cell ∧ Behind cell.seq pos)) := by
  cases accesses_of_step stepped with
  | pushFull held behind =>
      exact .inr (.inr ⟨rfl, rfl, .inr ⟨_, _, _, rfl, rfl, held, behind⟩⟩)
  | pushClaim won =>
      obtain rfl := unwrapped won
      exact .inl ⟨_, rfl, rfl, rfl⟩
  | popClaim won =>
      obtain rfl := unwrapped won
      exact .inr (.inl ⟨rfl, rfl, rfl⟩)
  | popRead held stored =>
      obtain ⟨_, _, value, pushedHere, written⟩ := holds
      cases held.symm.trans written
      cases stored
      exact .inr (.inr ⟨rfl, rfl, .inl pushedHere.symm⟩)
  | _ => exact .inr (.inr ⟨rfl, rfl, .inl rfl⟩)

/-- New positions do not change what a call reads. -/
theorem CallHolds.owns_append (holds : ring.CallHolds pushed call) (more : List Nat) :
    call.owns (pushed ++ more) = call.owns pushed := by
  cases call with
  | popRead pos =>
      obtain ⟨_, _, value, pushedHere, _⟩ := holds
      exact List.getElem?_append_left (List.getElem?_eq_some_iff.mp pushedHere).1
  | _ => rfl

end MpmcRing

namespace Pool

variable {T : Type u} {size : Nat} {state target : State T} {pushed : List Nat}

def Client.owns (pushed : List Nat) : Client → Option Nat
  | .getting call | .releasing call => call.owns pushed
  | .checking idx | .initializing idx | .marking idx | .holding idx => some idx
  | .finished => none

/-- The free-list calls in progress, by caller. -/
def calls (clients : List Client) (id : Nat) : Option (Call Nat) := clients[id]?.bind Client.call

/-- The index that a position of the free-list or a caller has. -/
def owned (ring : MpmcRing Nat) (pushed : List Nat) (clients : List Client) :
    Nat ⊕ Nat → Option Nat
  | .inl p => if ring.dequeuePos ≤ p then pushed[p]? else none
  | .inr id => clients[id]?.bind (Client.owns pushed)

section Moves

variable {ring after : MpmcRing Nat} {clients : List Client} {id : Nat} {client moved : Client}

theorem calls_set (held : clients[id]? = some client) :
    calls (clients.set id moved) = Function.update (calls clients) id moved.call :=
  bind_set_eq_update Client.call held moved

theorem calls_append : calls (clients ++ [client]) =
    Function.update (calls clients) clients.length client.call :=
  bind_append_eq_update Client.call clients client

theorem owned_inr (held : clients[id]? = some client) :
    owned ring pushed clients (.inr id) = client.owns pushed := by
  simp [owned, held]

theorem owned_of_call {call : Call Nat} (held : calls clients id = some call) :
    owned ring pushed clients (.inr id) = call.owns pushed := by
  obtain ⟨client, heldClient, calling⟩ := Option.bind_eq_some_iff.mp held
  rw [owned_inr heldClient]
  cases client with
  | getting inner | releasing inner =>
      obtain rfl := Option.some.inj calling
      rfl
  | _ => cases calling

theorem owned_set_self (held : clients[id]? = some client) :
    owned ring pushed (clients.set id moved) (.inr id) = moved.owns pushed := by
  have inside := (List.getElem?_eq_some_iff.mp held).1
  simp [owned, inside]

theorem owned_set_of_ne {owner : Nat ⊕ Nat} (different : owner ≠ .inr id) :
    owned ring pushed (clients.set id moved) owner = owned ring pushed clients owner := by
  cases owner with
  | inl p => rfl
  | inr other =>
      have apart : id ≠ other := fun same => different (congrArg Sum.inr same.symm)
      simp [owned, List.getElem?_set_ne apart]

/-- A move that keeps the index of its caller. -/
theorem owned_set_same (held : clients[id]? = some client)
    (same : moved.owns pushed = client.owns pushed) (owner : Nat ⊕ Nat) :
    owned ring pushed (clients.set id moved) owner = owned ring pushed clients owner := by
  by_cases here : owner = .inr id
  · subst here
    rw [owned_set_self held, owned_inr held, same]
  · exact owned_set_of_ne here

theorem owned_append (nothing : client.owns pushed = none) (owner : Nat ⊕ Nat) :
    owned ring pushed (clients ++ [client]) owner = owned ring pushed clients owner := by
  cases owner with
  | inl p => rfl
  | inr other =>
      have added := congrFun (bind_append_eq_update (Client.owns pushed) clients client) other
      refine added.trans ?_
      by_cases here : other = clients.length
      · subst here
        simp [owned, nothing]
      · simp [owned, here]

/-- New positions do not change what a caller has. -/
theorem owns_append_of_protocol (protocol : ring.Protocol (calls clients) pushed)
    (more : List Nat) (other : Nat) :
    clients[other]?.bind (Client.owns (pushed ++ more)) =
      clients[other]?.bind (Client.owns pushed) := by
  cases held : clients[other]? with
  | none => rfl
  | some client =>
      cases client with
      | getting inner | releasing inner =>
          refine CallHolds.owns_append (protocol.holds other inner ?_) more
          simp [calls, held, Client.call]
      | _ => rfl

/-- From the caller of a push to the position it claims. -/
theorem conserves_pushClaim {value : Nat} (protocol : ring.Protocol (calls clients) pushed)
    (held : clients[id]? = some client) (has : client.owns pushed = some value)
    (given : moved.owns (pushed ++ [value]) = none) :
    Conserves (owned ring pushed clients)
      (owned { ring with enqueuePos := ring.enqueuePos + 1 } (pushed ++ [value])
        (clients.set id moved)) := by
  have length := protocol.enqueued
  have le := protocol.le
  rw [length] at le
  refine Conserves.of_handover (.inr id) (.inl ring.enqueuePos) ?_ ?_ ?_
  · rw [owned_set_self held, given]
    simp [owned, length]
  · rw [owned_inr held, has]
    simp only [owned, length, le, if_true, List.getElem?_concat_length]
  · intro owner notCaller notPosition
    rw [owned_set_of_ne notCaller]
    cases owner with
    | inl p =>
        have apart : p ≠ pushed.length := fun same => notPosition (by rw [same, length])
        have grown := congrFun (getElem?_append_eq_update pushed value) p
        rw [Function.update_of_ne apart] at grown
        simp only [owned, grown]
    | inr other => exact owns_append_of_protocol protocol [value] other

/-- From the position a pop claims to its caller. -/
theorem conserves_popClaim (held : clients[id]? = some client)
    (nothing : client.owns pushed = none)
    (taken : moved.owns pushed = pushed[ring.dequeuePos]?) :
    Conserves (owned ring pushed clients)
      (owned { ring with dequeuePos := ring.dequeuePos + 1 } pushed (clients.set id moved)) := by
  refine Conserves.of_handover (.inl ring.dequeuePos) (.inr id) ?_ ?_ ?_
  · rw [owned_inr held, nothing]
    simp [owned]
  · rw [owned_set_self held, taken]
    simp [owned]
  · intro owner notPosition notCaller
    rw [owned_set_of_ne notCaller]
    cases owner with
    | inl p =>
        have apart : p ≠ ring.dequeuePos := fun same => notPosition (by rw [same])
        have late : ring.dequeuePos + 1 ≤ p ↔ ring.dequeuePos ≤ p := by omega
        simp only [owned, late]
    | inr other => rfl

/-- An access of a free-list call hands its index on, unless the push is refused. -/
theorem owned_step {wrap : Call Nat → Client} (wrapped : wrap = .getting ∨ wrap = .releasing)
    {call next : Call Nat} {spurious : Bool} (protocol : ring.Protocol (calls clients) pushed)
    (held : clients[id]? = some (wrap call)) (unwrapped : ring.Unwrapped call)
    (stepped : ring.step spurious call = some (after, next)) :
    Conserves (owned ring pushed clients)
        (owned after (pushed ++ claimed call next) (clients.set id (wrap next))) ∨
      (∃ value pos cell, call = .pushCheck value pos ∧ ring.cell pos = some cell ∧
        Behind cell.seq pos) ∧
      Relocates (owned ring pushed clients)
        (owned after (pushed ++ claimed call next) (clients.set id (wrap next))) := by
  have inHand (inner : Call Nat) (indices : List Nat) :
      (wrap inner).owns indices = inner.owns indices := by
    rcases wrapped with rfl | rfl <;> rfl
  have inProgress : calls clients id = some call := by
    rcases wrapped with rfl | rfl <;> simp [calls, held, Client.call]
  rcases step_owner_cases (protocol.holds id call inProgress) unwrapped stepped with
    ⟨value, rfl, rfl, rfl⟩ | ⟨rfl, rfl, rfl⟩ | ⟨dequeued, nothing, kept⟩
  · exact .inl (conserves_pushClaim protocol held (inHand _ _) (inHand _ _))
  · have none : claimed (.popClaim ring.dequeuePos) (.popRead ring.dequeuePos) =
        ([] : List Nat) := rfl
    rw [none, List.append_nil]
    exact .inl (conserves_popClaim held (inHand _ _) (inHand _ _))
  · have sameRing (owner : Nat ⊕ Nat) (list : List Client) :
        owned after pushed list owner = owned ring pushed list owner := by
      cases owner with
      | inl p => simp only [owned, dequeued]
      | inr other => rfl
    rw [nothing, List.append_nil]
    rcases kept with same | ⟨value, pos, cell, rfl, rfl, heldCell, behind⟩
    · refine .inl (Conserves.of_eq fun owner => ?_)
      rw [sameRing]
      exact owned_set_same held (by rw [inHand, inHand, same]) owner
    · refine .inr ⟨⟨value, pos, cell, rfl, heldCell, behind⟩, ?_⟩
      apply Relocates.of_loss (.inr id)
      · rw [owned_set_self held, inHand]
        rfl
      · intro owner notCaller
        rw [sameRing, owned_set_of_ne notCaller]

end Moves

/-- The free-list keeps its protocol, and every index is below the size and in one pair of
hands. -/
structure Arbitrated (size : Nat) (state : State T) (pushed : List Nat) : Prop where
  protocol : state.pool.free.Protocol (calls state.clients) pushed
  enough : max size 1 ≤ state.pool.free.cap
  exclusive : Exclusive (owned state.pool.free pushed state.clients)
  below : ∀ owner idx, owned state.pool.free pushed state.clients owner = some idx →
    idx < max size 1

/-- A pop that has claimed its position has the index pushed there. -/
theorem Arbitrated.owned_of_reading (arbitrated : Arbitrated size state pushed) {id p : Nat}
    (reading : Reading (calls state.clients id) p) :
    ∃ idx < max size 1, pushed[p]? = some idx ∧
      owned state.pool.free pushed state.clients (.inr id) = some idx := by
  obtain ⟨_, _, _, idx, pushedHere⟩ := arbitrated.protocol.of_reading reading
  have has : owned state.pool.free pushed state.clients (.inr id) = some idx := by
    obtain ⟨call, held, reads⟩ := reading
    have holds := arbitrated.protocol.holds id call held
    have owns : call.owns pushed = some idx := by
      cases call with
      | popRead pos =>
          obtain rfl : pos = p := reads
          exact pushedHere
      | popRelease pos value =>
          obtain rfl : pos = p := reads
          exact holds.2.2.1.symm.trans pushedHere
      | _ => exact absurd reads not_false
    rw [owned_of_call held, owns]
  exact ⟨idx, arbitrated.below _ idx has, pushedHere, has⟩

/-- A claim of a push finds its cell released: with a single cell because there is a single
index, and it is in the hands of the push. -/
theorem Arbitrated.claimable (arbitrated : Arbitrated size state pushed) {id : Nat}
    {call : Call Nat} (held : calls state.clients id = some call) :
    state.pool.free.Claimable (calls state.clients) call := by
  cases call with
  | pushClaim value pos =>
      rintro rfl
      have protocol := arbitrated.protocol
      have holds := protocol.holds id _ held
      rcases Nat.lt_or_ge state.pool.free.cap 2 with single | two
      · have enough := arbitrated.enough
        have positive := protocol.rounded.pos
        have mine : owned state.pool.free pushed state.clients (.inr id) = some value :=
          owned_of_call held
        have small := arbitrated.below _ value mine
        rcases protocol.enqueue_cases with
          ⟨space, unread, _⟩ | ⟨other, q, reading, _, _⟩ | ⟨full, _⟩
        · exact ⟨space, unread⟩
        · obtain ⟨idx, below, _, has⟩ := arbitrated.owned_of_reading reading
          obtain rfl : idx = value := by omega
          cases arbitrated.exclusive _ _ idx has mine
          obtain ⟨call, heldToo, reads⟩ := reading
          cases held.symm.trans heldToo
          exact absurd reads not_false
        · have inside : state.pool.free.dequeuePos < pushed.length := by
            rw [← protocol.enqueued]
            omega
          have listed : owned state.pool.free pushed state.clients
              (.inl state.pool.free.dequeuePos) = some pushed[state.pool.free.dequeuePos] := by
            simp [owned, inside]
          have below := arbitrated.below _ _ listed
          have same : pushed[state.pool.free.dequeuePos] = value := by omega
          rw [same] at listed
          cases arbitrated.exclusive _ _ value listed mine
      · exact protocol.claimable two (holds.2 rfl)
  | _ => trivial

end Pool

end Teleop.Core
