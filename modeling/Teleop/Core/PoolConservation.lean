import Teleop.Core.PoolExclusivity

/-!
# No slot lost

A push onto the free-list is refused only where a pop sits between claiming and
releasing the cell that the push wants, or where the position of the push is stale
by half the words.  In every run without these, without a panicking `init` and
without a compare-exchange that succeeds after a full turn, every slot is free or
has a guard whenever nobody is in between.
-/

namespace Teleop.Core

open Teleop.Lib Teleop.Ring MpmcRing

universe u

namespace MpmcRing

variable {ring : MpmcRing Nat} {calls : Nat → Option (Call Nat)} {pushed : List Nat}

/-- With a free position left, no cell that is not being read shows less than a position up to
the next one that it is the cell of. -/
theorem Protocol.le_seq (protocol : ring.Protocol calls pushed)
    (space : ring.enqueuePos < ring.dequeuePos + ring.cap) {p : Nat} (le : p ≤ ring.enqueuePos)
    (unread : ∀ id q, Reading (calls id) q → q + ring.cap ≠ p) :
    ∃ seq, p ≤ seq ∧ ring.HasSeq p seq := by
  have positive := protocol.rounded.pos
  have lap := protocol.rounded.index_lap p
  by_cases reading : ∃ id, Reading (calls id) p
  · obtain ⟨id, reading⟩ := reading
    exact ⟨p + 1, by omega, (protocol.of_reading reading).2.2.1⟩
  have notRead : ∀ id q, Reading (calls id) q → q + ring.cap ≠ p + ring.cap := by
    intro id q held same
    obtain rfl : q = p := by omega
    exact reading ⟨id, held⟩
  rcases Nat.lt_or_ge p ring.dequeuePos with early | late
  · -- an older position of a cell that is in use a lap or more later
    rcases Nat.lt_or_ge ring.enqueuePos (p + ring.cap) with free | used
    · have has := protocol.free (p + ring.cap) (by omega) (by omega) notRead
      exact ⟨p + ring.cap, by omega, has.congr lap.symm⟩
    · obtain ⟨seq, later, has⟩ := protocol.le_seq space used notRead
      exact ⟨seq, by omega, has.congr lap.symm⟩
  · rcases Nat.lt_or_eq_of_le le with inside | next
    · by_cases written : ∃ id, Writing (calls id) p
      · obtain ⟨id, writing⟩ := written
        exact ⟨p, Nat.le_refl p, (protocol.of_writing writing).2.2⟩
      · rw [protocol.enqueued] at inside
        have cell := protocol.full p _ late (List.getElem?_eq_getElem inside)
          fun id writing => written ⟨id, writing⟩
        exact ⟨p + 1, by omega, _, cell, rfl⟩
    · exact ⟨p, Nat.le_refl p, protocol.free p (by omega) (by omega) unread⟩
termination_by ring.enqueuePos - p

end MpmcRing

namespace Pool

variable {T : Type u} {size : Nat} {state target : State T} {pushed : List Nat}

/-- The position that a pop has claimed and not released. -/
def Call.reading : Call Nat → Option Nat
  | .popRead pos | .popRelease pos _ => some pos
  | _ => none

/-- A push about to check its cell finds no pop between claiming and releasing that cell a lap
before, and its sequence number is not ahead by half the words. -/
def Clear (state : State T) : Call Nat → Prop
  | .pushCheck _ pos =>
      (∀ client ∈ state.clients, ∀ q ∈ client.call.bind Call.reading,
        q + state.pool.free.cap ≠ pos) ∧
      ∀ cell ∈ state.pool.free.cell pos, cell.seq < pos + 2 ^ 63
  | _ => True

/-- No compare-exchange succeeds after a full turn, every push that checks its cell finds it
clear, and no `init` panics. -/
def Undisturbed (state : State T) : Action T → Prop
  | .access id _ => ∀ call ∈ calls state.clients id, state.pool.free.Unwrapped call ∧ Clear state call
  | .init _ none => False
  | _ => True

instance (state : State T) : (call : Call Nat) → Decidable (Clear state call)
  | .pushCheck _ pos =>
      inferInstanceAs (Decidable ((∀ client ∈ state.clients, ∀ q ∈ client.call.bind Call.reading,
        q + state.pool.free.cap ≠ pos) ∧
          ∀ cell ∈ state.pool.free.cell pos, cell.seq < pos + 2 ^ 63))
  | .pushLoad _ | .pushClaim _ _ | .pushWrite _ _ | .pushPublish _ | .pushed _ | .popLoad
  | .popCheck _ | .popClaim _ | .popRead _ | .popRelease _ _ | .popped _ => .isTrue trivial

instance (state : State T) : DecidablePred (Undisturbed state)
  | .access id _ =>
      inferInstanceAs (Decidable (∀ call ∈ calls state.clients id,
        state.pool.free.Unwrapped call ∧ Clear state call))
  | .init _ none => .isFalse id
  | .init _ (some _) | .getWith | .modify _ _ | .drop _ => .isTrue trivial

theorem Undisturbed.keepsUp {action : Action T} (undisturbed : Undisturbed state action) :
    KeepsUp state action := by
  cases action with
  | access id spurious => exact fun call held => (undisturbed call held).1
  | _ => trivial

/-- The free-list has a free cell for every index that is not in it. -/
theorem Arbitrated.space (arbitrated : Arbitrated size state pushed) {id idx : Nat}
    (mine : owned state.pool.free pushed state.clients (.inr id) = some idx) :
    state.pool.free.enqueuePos < state.pool.free.dequeuePos + state.pool.free.cap := by
  have protocol := arbitrated.protocol
  have le := protocol.le
  have enough := arbitrated.enough
  have distinct : (Sum.inr id :: (List.range' state.pool.free.dequeuePos
      (state.pool.free.enqueuePos - state.pool.free.dequeuePos)).map Sum.inl :
        List (Nat ⊕ Nat)).Nodup := by
    refine List.nodup_cons.mpr ⟨by simp, ?_⟩
    exact List.Nodup.map Sum.inl_injective List.nodup_range'
  have count := arbitrated.exclusive.length_le distinct (max size 1) (by
    intro owner listed
    rcases List.mem_cons.mp listed with rfl | position
    · exact ⟨idx, arbitrated.below _ idx mine, mine⟩
    · obtain ⟨p, inside, rfl⟩ := List.mem_map.mp position
      rw [List.mem_range'_1] at inside
      have early : p < pushed.length := by
        rw [← protocol.enqueued]
        omega
      have has : owned state.pool.free pushed state.clients (.inl p) = some pushed[p] := by
        simp [owned, inside.1, early]
      exact ⟨_, arbitrated.below _ _ has, has⟩)
  rw [List.length_cons, List.length_map, List.length_range'] at count
  omega

/-- An undisturbed step loses no index. -/
theorem Arbitrated.not_loses (arbitrated : Arbitrated size state pushed) {action : Action T}
    (undisturbed : Undisturbed state action) : ¬ Loses state action := by
  cases action with
  | access id spurious =>
      rintro ⟨value, pos, cell, held, heldCell, behind⟩
      obtain ⟨_, unread, near⟩ := undisturbed _ held
      have clear : ∀ other q, Reading (calls state.clients other) q →
          q + state.pool.free.cap ≠ pos := by
        rintro other q ⟨call, calling, reads⟩
        obtain ⟨client, heldClient, same⟩ := Option.bind_eq_some_iff.mp calling
        refine unread client (List.mem_of_getElem? heldClient) q ?_
        rw [same]
        cases call with
        | popRead p | popRelease p _ => exact congrArg some reads
        | _ => exact absurd reads not_false
      have mine : owned state.pool.free pushed state.clients (.inr id) = some value :=
        owned_of_call held
      have holds := arbitrated.protocol.holds id _ held
      obtain ⟨seq, late, has⟩ := arbitrated.protocol.le_seq (arbitrated.space mine) holds clear
      obtain rfl := has.unique ⟨cell, heldCell, rfl⟩
      exact not_behind late (near cell heldCell) behind
  | init id result =>
      cases result with
      | none => exact undisturbed.elim
      | some value => exact not_false
  | _ => exact not_false

/-- A caller that is counted as having a slot checked out. -/
def Client.counted : Client → Bool
  | .checking _ | .initializing _ | .marking _ | .holding _ | .releasing _ => true
  | _ => false

def Client.isGuard : Client → Bool
  | .holding _ => true
  | _ => false

/-- The count of slots checked out is that of the callers between their two updates of it. -/
def Counts (state : State T) : Prop :=
  state.pool.outstanding = UInt64.ofNat (state.clients.countP Client.counted)

/-- A move that neither starts nor ends the count of its caller. -/
theorem Counts.same (counts : Counts state) {id : Nat} {client moved : Client}
    {after : BufferPool T} (held : state.clients[id]? = some client)
    (uncounted : moved.counted = client.counted)
    (outstanding : after.outstanding = state.pool.outstanding) :
    Counts { pool := after, clients := state.clients.set id moved } := by
  unfold Counts at counts ⊢
  rw [outstanding, countP_set_same held uncounted, counts]

theorem Counts.step (counts : Counts state) {action : Action T}
    (stepped : next state action = some target) (undisturbed : Undisturbed state action) :
    Counts target := by
  rcases moves_of_next stepped with ⟨rfl, rfl⟩ | ⟨id, client, after, moved, held, moves, rfl⟩
  · simpa [Counts, Client.counted] using counts
  · cases moves with
    | listed wrapped inner => rcases wrapped with rfl | rfl <;> exact counts.same held rfl rfl
    | counted =>
        show state.pool.outstanding + 1 = UInt64.ofNat _
        rw [countP_set_new held rfl rfl, counts, cursor_add_one]
    | returned =>
        have gone : (state.clients.set id .finished).countP Client.counted + 1 =
            state.clients.countP Client.counted := countP_set_gone held rfl rfl
        show state.pool.outstanding - 1 = UInt64.ofNat _
        rw [counts, ← gone]
        exact cursor_sub_one _
    | panicked => exact undisturbed.elim
    | exhausted | initialized | uninitialized | marked | filled | modified | dropped =>
        exact counts.same held rfl rfl

/-- Nobody is inside `get_with` or the drop of a guard. -/
def Quiet (state : State T) : Prop :=
  ∀ (id : Nat) (client : Client), state.clients[id]? = some client →
    client = .finished ∨ ∃ idx, client = .holding idx

/-- A place of a slot: a position of the free-list, or a guard. -/
def State.At (state : State T) (idx : Nat) : Nat ⊕ Nat → Prop
  | .inl p => state.pool.free.dequeuePos ≤ p ∧ p < state.pool.free.enqueuePos ∧
      state.pool.free.cell p = some ⟨p + 1, some idx⟩
  | .inr id => state.Holds id idx

/-- Every slot is once in the free-list or has one guard, and the guards are counted. -/
structure Accounts (state : State T) : Prop where
  once : ∀ idx < state.pool.capacity, ∃! place, state.At idx place
  only : ∀ idx place, state.At idx place → idx < state.pool.capacity
  inUse : state.pool.inUse.toNat = state.clients.countP Client.isGuard

/-- What an undisturbed run keeps: the slots in their hands, all of them, and their number. -/
structure Conserved (size : Nat) (state : State T) (pushed : List Nat) : Prop where
  arbitrated : Arbitrated size state pushed
  covers : ∀ idx < max size 1, ∃ owner, owned state.pool.free pushed state.clients owner = some idx
  counts : Counts state
  capacity : state.pool.slots.length = max size 1

theorem conserved_new (made : state.pool.New size) (nobody : state.clients = [])
    (small : size < 2 ^ 32) : Conserved size state (List.range (max size 1)) := by
  have fits : max size 1 % 2 ^ 32 = max size 1 := Nat.mod_eq_of_lt (by omega)
  obtain ⟨arbitrated, dequeued⟩ := arbitrated_new made nobody
  rw [fits] at arbitrated
  refine { arbitrated := arbitrated, covers := ?_, counts := ?_, capacity := ?_ }
  · intro idx inside
    exact ⟨.inl idx, by simp [owned, dequeued, inside]⟩
  · unfold Counts
    rw [made.outstanding, nobody]
    rfl
  · rw [made.slots, List.length_replicate]

theorem capacity_step {action : Action T} (stepped : next state action = some target) :
    target.pool.slots.length = state.pool.slots.length := by
  rcases moves_of_next stepped with ⟨rfl, rfl⟩ | ⟨id, client, after, moved, held, moves, rfl⟩
  · rfl
  · cases moves with
    | filled | modified => exact List.length_set ..
    | _ => rfl

theorem Conserved.step (conserved : Conserved size state pushed) {action : Action T}
    (stepped : next state action = some target) (undisturbed : Undisturbed state action) :
    ∃ pushedThen, Conserved size target pushedThen := by
  obtain ⟨pushedThen, hands, arbitrated⟩ := conserved.arbitrated.step stepped undisturbed.keepsUp
  have conserves : Conserves (owned state.pool.free pushed state.clients)
      (owned target.pool.free pushedThen target.clients) :=
    hands.resolve_right fun lost => conserved.arbitrated.not_loses undisturbed lost.1
  refine ⟨pushedThen, {
    arbitrated := arbitrated
    covers := fun idx inside => ?_
    counts := conserved.counts.step stepped undisturbed
    capacity := (capacity_step stepped).trans conserved.capacity }⟩
  obtain ⟨owner, has⟩ := conserved.covers idx inside
  exact conserves.kept has

/-- Whoever has a slot in a quiet state is a place of it. -/
theorem Arbitrated.at_of_owned (arbitrated : Arbitrated size state pushed) (quiet : Quiet state)
    {idx : Nat} {place : Nat ⊕ Nat}
    (has : owned state.pool.free pushed state.clients place = some idx) : state.At idx place := by
  have protocol := arbitrated.protocol
  have noCalls : ∀ id, calls state.clients id = none := by
    intro id
    cases held : state.clients[id]? with
    | none => simp [calls, held]
    | some client =>
        obtain rfl | ⟨other, rfl⟩ := quiet id client held <;> simp [calls, held, Client.call]
  cases place with
  | inl p =>
      simp only [owned] at has
      split at has
      · rename_i late
        have inside := (List.getElem?_eq_some_iff.mp has).1
        refine ⟨late, by rw [protocol.enqueued]; exact inside, protocol.full p idx late has ?_⟩
        intro id
        rw [noCalls]
        exact writing_none p
      · cases has
  | inr id =>
      obtain ⟨client, held, owns⟩ := Option.bind_eq_some_iff.mp has
      obtain rfl | ⟨other, rfl⟩ := quiet id client held
      · cases owns
      · cases owns
        exact held

/-- Every place of a slot has it. -/
theorem Arbitrated.owned_of_at (arbitrated : Arbitrated size state pushed) {idx : Nat}
    {place : Nat ⊕ Nat} (here : state.At idx place) :
    owned state.pool.free pushed state.clients place = some idx := by
  cases place with
  | inl p => exact arbitrated.owned_of_listedAt here
  | inr id => exact owned_of_holds here

theorem Conserved.accounts (conserved : Conserved size state pushed) (quiet : Quiet state)
    (small : size < 2 ^ 32) : Accounts state where
  once idx inside := by
    rw [BufferPool.capacity, conserved.capacity] at inside
    obtain ⟨place, has⟩ := conserved.covers idx inside
    refine ⟨place, conserved.arbitrated.at_of_owned quiet has, fun other here => ?_⟩
    exact conserved.arbitrated.exclusive other place idx
      (conserved.arbitrated.owned_of_at here) has
  only idx place here := by
    rw [BufferPool.capacity, conserved.capacity]
    exact conserved.arbitrated.below place idx (conserved.arbitrated.owned_of_at here)
  inUse := by
    have sameKind : state.clients.countP Client.counted = state.clients.countP Client.isGuard := by
      refine List.countP_congr fun client listed => ?_
      obtain ⟨id, held⟩ := List.mem_iff_getElem?.mp listed
      obtain rfl | ⟨idx, rfl⟩ := quiet id client held <;> rfl
    obtain ⟨ids, distinct, number, guards⟩ := exists_indices Client.isGuard state.clients
    have owners : (ids.map (Sum.inr : Nat → Nat ⊕ Nat)).Nodup := distinct.map Sum.inr_injective
    have few := conserved.arbitrated.exclusive.length_le owners (max size 1) (by
        intro owner listed
        obtain ⟨id, member, rfl⟩ := List.mem_map.mp listed
        obtain ⟨client, held, guard⟩ := guards id member
        cases client with
        | holding idx =>
            exact ⟨idx, conserved.arbitrated.below _ idx (owned_of_holds held), owned_of_holds held⟩
        | _ => cases guard)
    rw [List.length_map, number] at few
    rw [BufferPool.inUse, conserved.counts, sameKind, toNat_cursor]
    exact Nat.mod_eq_of_lt (by omega)

/-- In every undisturbed run of a pool whose size fits in 32 bits, whenever nobody is inside
`get_with` or the drop of a guard, every slot is once in the free-list or has one guard, and
`in_use` is the number of guards. -/
theorem accounts_of_undisturbed (small : size < 2 ^ 32)
    (reached : ((callers T size).restrict Undisturbed).Reachable state) (quiet : Quiet state) :
    Accounts state := by
  obtain ⟨pushed, conserved⟩ := TransitionSystem.Reachable.invariant
    (P := fun state => ∃ pushed, Conserved size state pushed)
    (by
      rintro state ⟨made, nobody⟩
      exact ⟨_, conserved_new made nobody small⟩)
    (by
      rintro state action target ⟨pushed, conserved⟩ ⟨undisturbed, stepped⟩
      exact conserved.step stepped undisturbed)
    reached
  exact conserved.accounts quiet small

/-- A caller checks a slot out, initializes it, drops its guard and leaves. -/
def roundTrip (id : Nat) : List (Action Nat) :=
  .getWith :: List.replicate 7 (.access id false) ++
    [.init id (some 7), .access id false, .drop id] ++ List.replicate 6 (.access id false)

theorem roundTrip_accounts : ∃ state, ((callers Nat 2).restrict Undisturbed).Reachable state ∧
    state.clients = [.finished] ∧ state.pool.free.enqueuePos = 3 ∧ Accounts state := by
  obtain ⟨state, performed, clients, pushes⟩ : ∃ state, TransitionSystem.perform
      (fun state action => if Undisturbed state action then next state action else none)
      ⟨BufferPool.fresh Nat 2, []⟩ (roundTrip 0) = some state ∧
        state.clients = [.finished] ∧ state.pool.free.enqueuePos = 3 := ⟨_, rfl, rfl, rfl⟩
  have reached : ((callers Nat 2).restrict Undisturbed).Reachable state :=
    TransitionSystem.reachable_restrict_of_perform ⟨fresh_new (by decide), rfl⟩ performed
  have quiet : Quiet state := by
    intro id client held
    rw [clients] at held
    exact .inl (List.mem_singleton.mp (List.mem_of_getElem? held))
  exact ⟨state, reached, clients, pushes, accounts_of_undisturbed (by decide) reached quiet⟩

/-- A pop stops between claiming and releasing its cell while another caller drops its guard,
whose index wants that cell. -/
def stalledPop : List (Action Nat) :=
  .getWith :: List.replicate 3 (.access 0 false) ++
    .getWith :: List.replicate 7 (.access 1 false) ++
      [.init 1 (some 8), .access 1 false, .drop 1] ++ List.replicate 3 (.access 1 false) ++
        List.replicate 4 (.access 0 false) ++ [.init 0 (some 7), .access 0 false]

/-- The dropped slot is neither free nor in use. -/
theorem stalledPop_loses_slot : ∃ state, (callers Nat 2).Reachable state ∧ Quiet state ∧
    state.pool.capacity = 2 ∧ (∀ place, ¬ state.At 1 place) ∧ ¬ Accounts state := by
  obtain ⟨state, performed, clients, empty, capacity⟩ : ∃ state, TransitionSystem.perform next
      ⟨BufferPool.fresh Nat 2, []⟩ stalledPop = some state ∧
        state.clients = [.holding 0, .finished] ∧
        state.pool.free.enqueuePos = state.pool.free.dequeuePos ∧ state.pool.capacity = 2 :=
    ⟨_, rfl, rfl, rfl, rfl⟩
  have reached : (callers Nat 2).Reachable state :=
    TransitionSystem.reachable_of_perform ⟨fresh_new (by decide), rfl⟩ performed
  have lost : ∀ place, ¬ state.At 1 place := by
    rintro (p | id) here
    · have := here.1
      have := here.2.1
      omega
    · have held := List.mem_of_getElem? here
      rw [clients] at held
      simp at held
  refine ⟨state, reached, ?_, capacity, lost, fun accounts => ?_⟩
  · intro id client held
    have listed := List.mem_of_getElem? held
    rw [clients] at listed
    simp only [List.mem_cons, List.not_mem_nil, or_false] at listed
    exact listed.symm.imp_right fun holds => ⟨0, holds⟩
  · obtain ⟨place, here, _⟩ := accounts.once 1 (by omega)
    exact lost place here

end Pool

end Teleop.Core
