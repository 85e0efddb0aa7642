import Teleop.Core.PoolOwnership

/-!
# Every step of the pool arbitrates

From a new pool on, and as long as no compare-exchange succeeds on a counter that
has turned round completely since it was loaded, every step keeps each index in
one pair of hands.  A slot is initialized before a guard of it exists.
-/

namespace Teleop.Core.Pool

open Teleop.Lib Teleop.Ring MpmcRing

universe u

variable {T : Type u} {size : Nat} {state target : State T} {pushed : List Nat}

/-- No compare-exchange succeeds on a counter that has turned round completely since it was
loaded. -/
def KeepsUp (state : State T) : Action T → Prop
  | .access id _ => ∀ call, calls state.clients id = some call → state.pool.free.Unwrapped call
  | _ => True

/-- A step that loses an index: a push that takes its cell for that of a full ring, and an
`init` that panics. -/
def Loses (state : State T) : Action T → Prop
  | .access id _ => ∃ value pos cell, calls state.clients id = some (.pushCheck value pos) ∧
      state.pool.free.cell pos = some cell ∧ Behind cell.seq pos
  | .init _ none => True
  | _ => False

/-- What a step does to the slots in hand. -/
def HandsOn (state target : State T) (pushed pushedThen : List Nat) (action : Action T) : Prop :=
  Conserves (owned state.pool.free pushed state.clients)
      (owned target.pool.free pushedThen target.clients) ∨
    Loses state action ∧ Relocates (owned state.pool.free pushed state.clients)
      (owned target.pool.free pushedThen target.clients)

theorem Arbitrated.handOn {pushedThen : List Nat} {action : Action T}
    (arbitrated : Arbitrated size state pushed)
    (protocol : target.pool.free.Protocol (calls target.clients) pushedThen)
    (cap : target.pool.free.cap = state.pool.free.cap)
    (hands : HandsOn state target pushed pushedThen action) :
    Arbitrated size target pushedThen := by
  have relocates : Relocates (owned state.pool.free pushed state.clients)
      (owned target.pool.free pushedThen target.clients) :=
    hands.elim Conserves.relocates And.right
  refine { protocol := protocol, enough := ?_, exclusive := ?_, below := ?_ }
  · rw [cap]
    exact arbitrated.enough
  · exact arbitrated.exclusive.relocate relocates
  · intro owner idx has
    obtain ⟨holder, before⟩ := relocates.origin has
    exact arbitrated.below holder idx before

/-- A move of a caller outside the free-list calls. -/
theorem Arbitrated.outside (arbitrated : Arbitrated size state pushed) {id : Nat}
    {client moved : Client} {action : Action T} (held : state.clients[id]? = some client)
    (free : target.pool.free = state.pool.free) (clients : target.clients = state.clients.set id moved)
    (idle : ∀ p, (¬ Writing client.call p) ∧ ¬ Reading client.call p)
    (idleThen : ∀ p, (¬ Writing moved.call p) ∧ ¬ Reading moved.call p)
    (holds : ∀ call, moved.call = some call → state.pool.free.CallHolds pushed call)
    (same : moved.owns pushed = client.owns pushed ∨
      Loses state action ∧ moved.owns pushed = none) :
    HandsOn state target pushed pushed action ∧ Arbitrated size target pushed := by
  have before : calls state.clients id = client.call := by simp [calls, held]
  have hands : HandsOn state target pushed pushed action := by
    unfold HandsOn
    rw [free, clients]
    rcases same with kept | ⟨loses, gone⟩
    · exact .inl (Conserves.of_eq (owned_set_same held kept))
    · refine .inr ⟨loses, Relocates.of_loss (.inr id) ?_ ?_⟩
      · rw [owned_set_self held, gone]
      · exact fun owner different => owned_set_of_ne different
  refine ⟨hands, arbitrated.handOn ?_ (congrArg _ free) hands⟩
  rw [free, clients, calls_set held]
  refine arbitrated.protocol.move ?_ ?_ holds
  · intro p
    rw [before]
    exact iff_of_false (idleThen p).1 (idle p).1
  · intro p
    rw [before]
    exact iff_of_false (idleThen p).2 (idle p).2

/-- An access of a free-list call. -/
theorem Arbitrated.inside (arbitrated : Arbitrated size state pushed) {id : Nat}
    {wrap : Call Nat → Client} (wrapped : wrap = .getting ∨ wrap = .releasing)
    {call after : Call Nat} {free : MpmcRing Nat} {spurious : Bool}
    (held : state.clients[id]? = some (wrap call))
    (unwrapped : state.pool.free.Unwrapped call)
    (stepped : state.pool.free.step spurious call = some (free, after))
    (ring : target.pool.free = free) (clients : target.clients = state.clients.set id (wrap after)) :
    HandsOn state target pushed (pushed ++ claimed call after) (.access id spurious) ∧
      Arbitrated size target (pushed ++ claimed call after) := by
  have inProgress : calls state.clients id = some call := by
    rcases wrapped with rfl | rfl <;> simp [calls, held, Client.call]
  have called : (wrap after).call = some after := by
    rcases wrapped with rfl | rfl <;> rfl
  have hands : HandsOn state target pushed (pushed ++ claimed call after)
      (.access id spurious) := by
    unfold HandsOn
    rw [ring, clients]
    refine (owned_step wrapped arbitrated.protocol held unwrapped stepped).imp_right ?_
    rintro ⟨⟨value, pos, cell, rfl, heldCell, behind⟩, relocates⟩
    exact ⟨⟨value, pos, cell, inProgress, heldCell, behind⟩, relocates⟩
  refine ⟨hands, arbitrated.handOn ?_ ?_ hands⟩
  · rw [ring, clients, calls_set held, called]
    exact arbitrated.protocol.step inProgress unwrapped (arbitrated.claimable inProgress) stepped
  · rw [ring]
    exact step_cap stepped

/-- Every step hands the indices on. -/
theorem Arbitrated.step (arbitrated : Arbitrated size state pushed) {action : Action T}
    (stepped : next state action = some target) (keepsUp : KeepsUp state action) :
    ∃ pushedThen, HandsOn state target pushed pushedThen action ∧
      Arbitrated size target pushedThen := by
  have silent (p : Nat) : (¬ Writing (none : Option (Call Nat)) p) ∧
      ¬ Reading (none : Option (Call Nat)) p := ⟨writing_none p, reading_none p⟩
  have uncalled : ∀ call, (none : Option (Call Nat)) = some call →
      state.pool.free.CallHolds pushed call := by
    intro call called
    cases called
  rcases moves_of_next stepped with ⟨rfl, rfl⟩ | ⟨id, client, after, moved, held, moves, rfl⟩
  · have nobody : calls state.clients state.clients.length = none := by simp [calls]
    have hands : HandsOn state
        { state with clients := state.clients ++ [.getting .popLoad] } pushed pushed .getWith :=
      .inl (Conserves.of_eq (owned_append rfl))
    refine ⟨pushed, hands, arbitrated.handOn ?_ rfl hands⟩
    rw [calls_append]
    refine arbitrated.protocol.move ?_ ?_ ?_
    · simp [nobody, Client.call, Call.Writes]
    · simp [nobody, Client.call, Call.Reads]
    · rintro call ⟨⟩
      trivial
  · cases moves with
    | @listed _ call _ _ _ wrapped inner =>
        have calling : calls state.clients id = some call := by
          rcases wrapped with rfl | rfl <;> simp [calls, held, Client.call]
        exact ⟨_, arbitrated.inside wrapped held (keepsUp call calling) inner rfl rfl⟩
    | exhausted | counted | returned =>
        refine ⟨pushed, arbitrated.outside held rfl rfl (fun p => ?_) silent uncalled (.inl rfl)⟩
        simp [Client.call, Call.Writes, Call.Reads]
    | initialized | uninitialized | marked | filled | modified =>
        exact ⟨pushed, arbitrated.outside held rfl rfl silent silent uncalled (.inl rfl)⟩
    | panicked =>
        exact ⟨pushed, arbitrated.outside held rfl rfl silent silent uncalled (.inr ⟨trivial, rfl⟩)⟩
    | dropped =>
        refine ⟨pushed, arbitrated.outside held rfl rfl silent (fun p => ?_) ?_ (.inl rfl)⟩
        · simp [Client.call, Call.Writes, Call.Reads]
        · rintro call ⟨⟩
          trivial

/-- The free-list of a new pool has room for every index. -/
theorem room_new (allocated : max size 1 < 2 ^ 63) :
    (withCapacity (max size 1) : MpmcRing Nat).Idle [] ∧
      max size 1 ≤ (withCapacity (max size 1) : MpmcRing Nat).cap ∧
        (withCapacity (max size 1) : MpmcRing Nat).enqueuePos +
          (List.range (max size 1 % 2 ^ 32)).length ≤
            (withCapacity (max size 1) : MpmcRing Nat).dequeuePos +
              (withCapacity (max size 1) : MpmcRing Nat).cap := by
  have enough : max size 1 ≤ (withCapacity (max size 1) : MpmcRing Nat).cap := by
    have rounded := le_nextPowerOfTwo (show max (max size 1) 1 ≤ 2 ^ 63 by omega)
    exact Nat.le_trans (Nat.le_max_left _ 1) rounded
  refine ⟨protocol_withCapacity (by omega) fun _ => rfl, enough, ?_⟩
  have fewer : max size 1 % 2 ^ 32 ≤ max size 1 := Nat.mod_le ..
  rw [List.length_range]
  show 0 + _ ≤ 0 + _
  omega

theorem fresh_new (allocated : max size 1 < 2 ^ 63) : (BufferPool.fresh T size).New size where
  allocated := allocated
  slots := rfl
  free := (room_new allocated).1.pushesAll_stored (room_new allocated).2.2
  initialized := rfl
  outstanding := rfl

/-- In a new pool the free-list has the indices that fit in 32 bits, each once. -/
theorem arbitrated_new (made : state.pool.New size) (nobody : state.clients = []) :
    Arbitrated size state (List.range (max size 1 % 2 ^ 32)) ∧
      state.pool.free.dequeuePos = 0 := by
  obtain ⟨idle, enough, room⟩ := room_new made.allocated
  have fewer : max size 1 % 2 ^ 32 ≤ max size 1 := Nat.mod_le ..
  obtain ⟨filled, dequeued, cap⟩ := idle.pushesAll room made.free
  have owner : ∀ owner idx, owned state.pool.free (List.range (max size 1 % 2 ^ 32))
      state.clients owner = some idx → owner = .inl idx ∧ idx < max size 1 := by
    intro owner idx has
    cases owner with
    | inl p =>
        simp only [owned, dequeued] at has
        split at has
        · obtain ⟨inside, rfl⟩ := List.getElem?_eq_some_iff.mp has
          rw [List.length_range] at inside
          rw [List.getElem_range]
          exact ⟨rfl, by omega⟩
        · cases has
    | inr id => simp [owned, nobody] at has
  refine ⟨{ protocol := ?_, enough := ?_, exclusive := ?_, below := ?_ }, dequeued⟩
  · have noCalls : calls state.clients = fun _ => none := by
      funext id
      simp [calls, nobody]
    rw [noCalls]
    exact filled
  · rw [cap]
    exact enough
  · intro one other idx first second
    rw [(owner one idx first).1, (owner other idx second).1]
  · exact fun holder idx has => (owner holder idx has).2

end Teleop.Core.Pool
