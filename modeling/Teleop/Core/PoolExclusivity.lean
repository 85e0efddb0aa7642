import Teleop.Core.PoolSteps

/-!
# One guard a slot

While no compare-exchange succeeds on a counter that has turned round completely,
no slot has two guards and none in use is listed as free.  A pop that sleeps
through a full turn of the dequeue counter takes a slot that is in use.
-/

namespace Teleop.Core.Pool

open Teleop.Lib Teleop.Ring MpmcRing

universe u

variable {T : Type u} {size : Nat} {state target : State T} {pool after : BufferPool T}
  {pushed : List Nat} {client moved : Client}

section Initialization

def Filled (pool : BufferPool T) (idx : Nat) : Prop :=
  ∃ value, pool.slots[idx]? = some (some value)

/-- What a caller says about its slot. -/
def Client.Fits (pool : BufferPool T) : Client → Prop
  | .initializing idx => idx < pool.slots.length
  | .marking idx | .holding idx => Filled pool idx
  | _ => True

/-- Slots marked initialized are filled, and so are those about to be marked and those with a
guard. -/
structure Prepared (state : State T) : Prop where
  sized : state.pool.initialized.length = state.pool.slots.length
  flagged : ∀ idx, state.pool.initialized[idx]? = some true → Filled state.pool idx
  fits : ∀ (id : Nat) (client : Client), state.clients[id]? = some client → client.Fits state.pool

theorem prepared_new (made : state.pool.New size) (nobody : state.clients = []) :
    Prepared state where
  sized := by rw [made.initialized, made.slots, List.length_replicate, List.length_replicate]
  flagged idx flag := by
    rw [made.initialized, List.getElem?_replicate] at flag
    split at flag <;> cases flag
  fits id client held := by
    rw [nobody] at held
    cases held

/-- Slots only fill up. -/
structure FillsUp (pool after : BufferPool T) : Prop where
  length : after.slots.length = pool.slots.length
  filled : ∀ idx, Filled pool idx → Filled after idx

theorem FillsUp.of_eq (same : after.slots = pool.slots) : FillsUp pool after where
  length := by rw [same]
  filled idx filled := by
    unfold Filled at filled ⊢
    rwa [same]

theorem filled_set {idx : Nat} (inside : idx < pool.slots.length) (value : T) :
    Filled { pool with slots := pool.slots.set idx (some value) } idx :=
  ⟨value, by simp [inside]⟩

theorem FillsUp.set (pool : BufferPool T) (idx : Nat) (value : T) :
    FillsUp pool { pool with slots := pool.slots.set idx (some value) } where
  length := List.length_set ..
  filled other := by
    rintro ⟨found, filled⟩
    by_cases same : idx = other
    · subst same
      exact filled_set (List.getElem?_eq_some_iff.mp filled).1 value
    · exact ⟨found, by rw [List.getElem?_set_ne same]; exact filled⟩

theorem Client.Fits.mono (fits : client.Fits pool) (fillsUp : FillsUp pool after) :
    client.Fits after := by
  cases client with
  | initializing idx =>
      show idx < after.slots.length
      rw [fillsUp.length]
      exact fits
  | marking idx | holding idx => exact fillsUp.filled idx fits
  | _ => trivial

theorem Prepared.advance (prepared : Prepared state) {id : Nat}
    (fillsUp : FillsUp state.pool after)
    (flags : after.initialized.length = state.pool.initialized.length)
    (flagged : ∀ idx, after.initialized[idx]? = some true → Filled after idx)
    (fits : moved.Fits after) :
    Prepared { pool := after, clients := state.clients.set id moved } where
  sized := by
    show after.initialized.length = after.slots.length
    rw [flags, fillsUp.length]
    exact prepared.sized
  flagged := flagged
  fits other client held := by
    rcases List.mem_or_eq_of_mem_set (List.mem_of_getElem? held) with listed | rfl
    · obtain ⟨place, inside, here⟩ := List.mem_iff_getElem.mp listed
      exact (prepared.fits place client (by rw [← here]; exact List.getElem?_eq_getElem inside)).mono
        fillsUp
    · exact fits

theorem Prepared.step (prepared : Prepared state) {action : Action T}
    (stepped : next state action = some target) : Prepared target := by
  have still := prepared.flagged
  rcases moves_of_next stepped with ⟨rfl, rfl⟩ | ⟨id, client, after, moved, held, moves, rfl⟩
  · refine { prepared with fits := fun id client held => ?_ }
    rcases List.mem_append.mp (List.mem_of_getElem? held) with listed | new
    · obtain ⟨place, inside, rfl⟩ := List.mem_iff_getElem.mp listed
      exact prepared.fits place _ (List.getElem?_eq_getElem inside)
    · obtain rfl := List.mem_singleton.mp new
      trivial
  have fits := prepared.fits id client held
  cases moves with
  | listed wrapped inner =>
      refine prepared.advance (.of_eq rfl) rfl still ?_
      rcases wrapped with rfl | rfl <;> trivial
  | initialized flag => exact prepared.advance (.of_eq rfl) rfl still (still _ flag)
  | uninitialized flag =>
      refine prepared.advance (.of_eq rfl) rfl still ?_
      show _ < state.pool.slots.length
      rw [← prepared.sized]
      exact (List.getElem?_eq_some_iff.mp flag).1
  | @marked spurious idx =>
      refine prepared.advance (.of_eq rfl) (List.length_set ..) ?_ fits
      intro other flag
      by_cases same : idx = other
      · subst same
        exact fits
      · rw [List.getElem?_set_ne same] at flag
        exact still other flag
  | @filled idx value =>
      have fillsUp := FillsUp.set state.pool idx value
      exact prepared.advance fillsUp rfl (fun other flag => fillsUp.filled other (still other flag))
        (filled_set fits value)
  | @modified idx value =>
      have fillsUp := FillsUp.set state.pool idx value
      exact prepared.advance fillsUp rfl (fun other flag => fillsUp.filled other (still other flag))
        (fillsUp.filled idx fits)
  | exhausted | counted | returned | panicked | dropped =>
      exact prepared.advance (.of_eq rfl) rfl still trivial

end Initialization

/-- No slot has two guards, none with a guard is listed as free, and every slot with a guard was
initialized. -/
structure Excludes (state : State T) : Prop where
  oneGuard : ∀ id other idx, state.Holds id idx → state.Holds other idx → id = other
  notListed : ∀ id idx, state.Holds id idx → ¬ state.Listed idx
  initialized : ∀ id idx, state.Holds id idx → Filled state.pool idx

theorem owned_of_holds {id idx : Nat} (holds : state.Holds id idx) :
    owned state.pool.free pushed state.clients (.inr id) = some idx :=
  owned_inr holds

/-- A listed position has its index: nobody writes there any more. -/
theorem Arbitrated.owned_of_listedAt (arbitrated : Arbitrated size state pushed) {p idx : Nat}
    (listed : state.pool.free.dequeuePos ≤ p ∧ p < state.pool.free.enqueuePos ∧
      state.pool.free.cell p = some ⟨p + 1, some idx⟩) :
    owned state.pool.free pushed state.clients (.inl p) = some idx := by
  obtain ⟨late, early, held⟩ := listed
  have protocol := arbitrated.protocol
  rw [protocol.enqueued] at early
  have here := List.getElem?_eq_getElem early
  have unwritten : ∀ id, ¬ Writing (calls state.clients id) p := by
    intro id writing
    have seq := (protocol.of_writing writing).2.2.unique ⟨_, held, rfl⟩
    dsimp only at seq
    omega
  have full := protocol.full p _ late here unwritten
  cases held.symm.trans full
  simp [owned, late, here]

theorem Arbitrated.excludes (arbitrated : Arbitrated size state pushed)
    (prepared : Prepared state) : Excludes state where
  oneGuard id other idx first second := by
    have same := arbitrated.exclusive _ _ idx (owned_of_holds first) (owned_of_holds second)
    cases same
    rfl
  notListed id idx holds listed := by
    obtain ⟨p, listedAt⟩ := listed
    have has := arbitrated.owned_of_listedAt listedAt
    cases arbitrated.exclusive _ _ idx (owned_of_holds holds) has
  initialized id idx holds := prepared.fits id _ holds

/-- In every run in which no compare-exchange succeeds on a counter that has turned round
completely since it was loaded, slots are exclusive and initialized. -/
theorem excludes_of_keepsUp (reached : ((callers T size).restrict KeepsUp).Reachable state) :
    Excludes state := by
  obtain ⟨prepared, pushed, arbitrated⟩ := TransitionSystem.Reachable.invariant
    (P := fun state => Prepared state ∧ ∃ pushed, Arbitrated size state pushed)
    (by
      rintro state ⟨made, nobody⟩
      exact ⟨prepared_new made nobody, _, (arbitrated_new made nobody).1⟩)
    (by
      rintro state action target ⟨prepared, pushed, arbitrated⟩ ⟨keepsUp, stepped⟩
      obtain ⟨pushedThen, _, onward⟩ := arbitrated.step stepped keepsUp
      exact ⟨prepared.step stepped, pushedThen, onward⟩)
    reached
  exact arbitrated.excludes prepared

instance (state : State T) : DecidablePred (KeepsUp state)
  | .access id _ =>
      match held : calls state.clients id with
      | some call =>
          if unwrapped : state.pool.free.Unwrapped call then
            .isTrue fun _ same => Option.some.inj (held.symm.trans same) ▸ unwrapped
          else .isFalse fun keepsUp => unwrapped (keepsUp call held)
      | none => .isTrue fun _ same => nomatch held.symm.trans same
  | .getWith | .init _ _ | .modify _ _ | .drop _ => .isTrue trivial

/-- One caller checks out a slot and initializes it while another waits with a stale view. -/
def staleView : List (Action Nat) :=
  [.getWith, .getWith, .access 1 false, .access 1 false] ++
    List.replicate 7 (.access 0 false) ++ [.init 0 (some 7), .access 0 false, .access 1 false]

theorem staleView_excludes : ∃ state : State Nat,
    ((callers Nat 2).restrict KeepsUp).Reachable state ∧ state.Holds 0 0 ∧
      state.clients[1]? = some (.getting (.popCheck 1)) ∧ Excludes state := by
  have performed : TransitionSystem.perform
      (fun state action => if KeepsUp state action then next state action else none)
      ⟨BufferPool.fresh Nat 2, []⟩ staleView = some _ := rfl
  have reached : ((callers Nat 2).restrict KeepsUp).Reachable _ :=
    TransitionSystem.reachable_restrict_of_perform ⟨fresh_new (by decide), rfl⟩ performed
  exact ⟨_, reached, rfl, rfl, excludes_of_keepsUp reached⟩

section FullTurn

variable {clients : List Client} {id : Nat}

theorem access_wrap {wrap : Call Nat → Client} (wrapped : wrap = .getting ∨ wrap = .releasing)
    {spurious : Bool} {call onward : Call Nat} {free : MpmcRing Nat}
    (stepped : pool.free.step spurious call = some (free, onward)) :
    access pool spurious (wrap call) = some ({ pool with free := free }, wrap onward) := by
  rcases wrapped with rfl | rfl <;> cases call <;>
    first
      | cases stepped; done
      | simp [access, stepped]

theorem advance_set (inside : id < clients.length)
    {move : Client → Option (BufferPool T × Client)} (moves : move client = some (after, moved)) :
    State.advance ⟨pool, clients.set id client⟩ id move = some ⟨after, clients.set id moved⟩ := by
  simp [State.advance, inside, moves]

/-- A caller takes one more access. -/
theorem reachable_access (inside : id < clients.length) (spurious : Bool)
    (reached : (callers T size).Reachable ⟨pool, clients.set id client⟩)
    (moves : access pool spurious client = some (after, moved)) :
    (callers T size).Reachable ⟨after, clients.set id moved⟩ := by
  have stepped : next ⟨pool, clients.set id client⟩ (.access id spurious) =
      some ⟨after, clients.set id moved⟩ := advance_set inside moves
  exact reached.step stepped

/-- A caller takes the accesses of a call of the free-list with no other in between. -/
theorem reachable_returns {wrap : Call Nat → Client} (wrapped : wrap = .getting ∨ wrap = .releasing)
    (inside : id < clients.length) {ring free : MpmcRing Nat} {failures : Nat}
    {call result : Call Nat} (returns : Returns ring failures call free result)
    (reached : (callers T size).Reachable ⟨{ pool with free := ring }, clients.set id (wrap call)⟩) :
    (callers T size).Reachable ⟨{ pool with free := free }, clients.set id (wrap result)⟩ := by
  induction returns with
  | pushed => exact reached
  | popped => exact reached
  | @access ring middle target failures call after result stepped _ inductionHypothesis =>
      have moves : access { pool with free := ring } (decide (0 < failures)) (wrap call) =
          some ({ pool with free := middle }, wrap after) := access_wrap wrapped stepped
      exact inductionHypothesis (reachable_access inside _ reached moves)

/-- A caller that popped an index gets its guard. -/
theorem reachable_guard (inside : id < clients.length) {idx : Nat}
    (covered : idx < pool.initialized.length) (value : T)
    (reached : (callers T size).Reachable
      ⟨pool, clients.set id (.getting (.popped (some idx)))⟩) :
    ∃ after : BufferPool T, after.free = pool.free ∧
      after.initialized.length = pool.initialized.length ∧
        (callers T size).Reachable ⟨after, clients.set id (.holding idx)⟩ := by
  have counted := reachable_access inside false reached rfl
  have flag := List.getElem?_eq_getElem covered
  have checked := reachable_access inside false counted (congrArg (Option.map _) flag)
  cases ready : pool.initialized[idx] with
  | true =>
      rw [ready] at checked
      exact ⟨{ pool with outstanding := pool.outstanding + 1 }, rfl, rfl, checked⟩
  | false =>
      rw [ready] at checked
      have stored : next
          ⟨{ pool with outstanding := pool.outstanding + 1 }, clients.set id (.initializing idx)⟩
            (.init id (some value)) = some ⟨{ pool with
              outstanding := pool.outstanding + 1
              slots := pool.slots.set idx (some value) }, clients.set id (.marking idx)⟩ :=
        advance_set inside rfl
      have marked := reachable_access inside false (checked.step stored) rfl
      exact ⟨{ pool with
        outstanding := pool.outstanding + 1
        slots := pool.slots.set idx (some value)
        initialized := pool.initialized.set idx true }, rfl, List.length_set .., marked⟩

/-- The pool of one slot after `n` rounds of one caller, while another is about to claim
dequeue position 0. -/
structure Round (n : Nat) (state : State Nat) : Prop where
  reached : (callers Nat 1).Reachable state
  covered : state.pool.initialized.length = 1
  cap : state.pool.free.cap = 1
  dequeued : state.pool.free.dequeuePos = n
  idle : ∃ pushed, state.pool.free.Idle pushed ∧ pushed[n]? = some 0 ∧ pushed.length = n + 1
  sleeping : state.clients[0]? = some (.getting (.popClaim 0))

/-- A new caller checks the slot out. -/
theorem Round.checksOut {n : Nat} {state : State Nat} (round : Round n state) :
    ∃ after : BufferPool Nat, after.free = state.pool.free.removed 0 ∧
      after.initialized.length = 1 ∧ (callers Nat 1).Reachable
        ⟨after, (state.clients ++ [Client.getting .popLoad]).set state.clients.length (.holding 0)⟩ := by
  obtain ⟨pushed, idle, oldest, _⟩ := round.idle
  rw [← round.dequeued] at oldest
  have inside : state.clients.length < (state.clients ++ [Client.getting .popLoad]).length := by
    simp
  have called : (callers Nat 1).Reachable ⟨state.pool,
      (state.clients ++ [Client.getting .popLoad]).set state.clients.length
        (.getting .popLoad)⟩ := by
    have same : (state.clients ++ [Client.getting .popLoad]).set state.clients.length
        (.getting .popLoad) = state.clients ++ [.getting .popLoad] := by simp
    rw [same]
    exact round.reached.step (show next state .getWith = some _ from rfl)
  have popped := reachable_returns (.inl rfl) inside (returns_pop (idle.pop oldest).1 0) called
  have covered : 0 < ({ state.pool with free := state.pool.free.removed 0 } :
      BufferPool Nat).initialized.length := by
    show 0 < state.pool.initialized.length
    rw [round.covered]
    exact Nat.one_pos
  obtain ⟨after, free, sized, guarded⟩ := reachable_guard inside covered 0 popped
  exact ⟨after, free, sized.trans round.covered, guarded⟩

/-- The sleeping caller is not touched by what the new one does. -/
theorem Round.still_sleeping {n : Nat} {state : State Nat} (round : Round n state)
    (client : Client) :
    ((state.clients ++ [Client.getting .popLoad]).set state.clients.length client)[0]? =
      some (.getting (.popClaim 0)) := by
  have sleeping := round.sleeping
  have nonempty : 0 < state.clients.length := (List.getElem?_eq_some_iff.mp sleeping).1
  rw [List.getElem?_set_ne (by omega), List.getElem?_append_left nonempty]
  exact sleeping

/-- The new caller drops its guard. -/
theorem Round.next {n : Nat} {state : State Nat} (round : Round n state) :
    ∃ target, Round (n + 1) target := by
  obtain ⟨after, free, covered, guarded⟩ := round.checksOut
  obtain ⟨pushed, idle, oldest, length⟩ := round.idle
  rw [← round.dequeued] at oldest
  have idleThen := (idle.pop oldest).2
  rw [← free] at idleThen
  have dequeued : after.free.dequeuePos = n + 1 := by
    rw [free]
    exact congrArg (· + 1) round.dequeued
  have cap : after.free.cap = 1 := by
    rw [free]
    exact round.cap
  have space : after.free.enqueuePos < after.free.dequeuePos + after.free.cap := by
    rw [idleThen.enqueued]
    omega
  obtain ⟨has, idleAgain⟩ := idleThen.push space 0
  have inside : state.clients.length < (state.clients ++ [Client.getting .popLoad]).length := by
    simp
  have dropped : Pool.next
      ⟨after, (state.clients ++ [Client.getting .popLoad]).set state.clients.length (.holding 0)⟩
        (.drop state.clients.length) = some ⟨after,
          (state.clients ++ [Client.getting .popLoad]).set state.clients.length
            (.releasing (.pushLoad 0))⟩ := advance_set inside rfl
  have released := reachable_returns (.inr rfl) inside (returns_push has 0 0)
    (guarded.step dropped)
  have returned := reachable_access inside false released rfl
  exact ⟨_, {
    reached := returned
    covered := covered
    cap := cap
    dequeued := dequeued
    idle := ⟨pushed ++ [0], idleAgain, by rw [← length]; simp, by simp [length]⟩
    sleeping := round.still_sleeping _ }⟩

/-- A caller loads the dequeue position of a new pool and finds an index there. -/
theorem round_zero : ∃ state, Round 0 state := by
  have performed : TransitionSystem.perform next ⟨BufferPool.fresh Nat 1, []⟩
      [.getWith, .access 0 false, .access 0 false] = some
        ⟨BufferPool.fresh Nat 1, [.getting (.popClaim 0)]⟩ := rfl
  have reached : (callers Nat 1).Reachable _ :=
    TransitionSystem.reachable_of_perform ⟨fresh_new (by decide), rfl⟩ performed
  have allocated : max 1 1 < 2 ^ 63 := by decide
  obtain ⟨idle, _, room⟩ := room_new allocated
  have filled := idle.pushesAll room (idle.pushesAll_stored room)
  exact ⟨_, {
    reached := reached
    covered := rfl
    cap := rfl
    dequeued := rfl
    idle := ⟨[0], filled.1, rfl, rfl⟩
    sleeping := rfl }⟩

theorem exists_round (n : Nat) : ∃ state, Round n state := by
  induction n with
  | zero => exact round_zero
  | succ n inductionHypothesis =>
      obtain ⟨state, round⟩ := inductionHypothesis
      exact round.next

/-- After a full turn of the dequeue counter the claim of the sleeping caller succeeds, and it
reads the index that the last pop left behind. -/
theorem Round.wakes {n : Nat} {state : State Nat} (round : Round n state)
    (turned : cursor (n + 1) = cursor 0) {free : MpmcRing Nat}
    (removed : free = state.pool.free.removed 0) :
    ∃ target, Returns free 0 (.popClaim 0) target (.popped (some 0)) := by
  obtain ⟨pushed, idle, _⟩ := round.idle
  have won : cursor free.dequeuePos = cursor 0 := by
    rw [removed]
    show cursor (state.pool.free.dequeuePos + 1) = cursor 0
    rw [round.dequeued, turned]
  have sameCell : maskIndex state.pool.free.cap 0 =
      maskIndex state.pool.free.cap state.pool.free.dequeuePos := by
    rw [idle.rounded.maskIndex, idle.rounded.maskIndex, round.cap, Nat.mod_one, Nat.mod_one]
  have left : ({ free with dequeuePos := free.dequeuePos + 1 } : MpmcRing Nat).cell 0 =
      some ⟨state.pool.free.dequeuePos + state.pool.free.cap, some 0⟩ := by
    rw [removed]
    unfold cell
    show (state.pool.free.removed 0).cells (maskIndex state.pool.free.cap 0) = _
    rw [sameCell]
    exact cell_setCell_self ..
  exact ⟨_, .access (if_pos ⟨won, rfl⟩) (.access (step_popRead left _)
    (.access (step_popRelease left _ _) (.popped ..)))⟩

/-- A slot with two guards. -/
theorem fullTurn_two_guards : ∃ state, (callers Nat 1).Reachable state ∧
    (∃ other, other ≠ 0 ∧ state.Holds 0 0 ∧ state.Holds other 0) ∧ ¬ Excludes state := by
  obtain ⟨state, round⟩ := exists_round (2 ^ 64 - 1)
  obtain ⟨after, free, covered, guarded⟩ := round.checksOut
  have sleeping := round.still_sleeping (.holding 0)
  have nonempty : 0 < state.clients.length := (List.getElem?_eq_some_iff.mp round.sleeping).1
  obtain ⟨target, returns⟩ := round.wakes (by decide) free
  have holder : ((state.clients ++ [Client.getting .popLoad]).set state.clients.length
      (.holding 0))[state.clients.length]? = some (.holding 0) := by simp
  generalize (state.clients ++ [Client.getting .popLoad]).set state.clients.length
    (.holding 0) = clients at guarded sleeping holder
  have inside : 0 < clients.length := (List.getElem?_eq_some_iff.mp sleeping).1
  have unmoved : clients.set 0 (.getting (.popClaim 0)) = clients := by
    obtain ⟨_, here⟩ := List.getElem?_eq_some_iff.mp sleeping
    rw [← here, List.set_getElem_self]
  rw [← unmoved] at guarded
  have popped := reachable_returns (.inl rfl) inside returns guarded
  have ready : 0 < ({ after with free := target } : BufferPool Nat).initialized.length := by
    show 0 < after.initialized.length
    rw [covered]
    exact Nat.one_pos
  obtain ⟨final, _, _, reached⟩ := reachable_guard inside ready 0 popped
  have first : State.Holds ⟨final, clients.set 0 (.holding 0)⟩ 0 0 := by
    simp [State.Holds, inside]
  have second : State.Holds ⟨final, clients.set 0 (.holding 0)⟩ state.clients.length 0 := by
    show (clients.set 0 (.holding 0))[state.clients.length]? = some (.holding 0)
    rw [List.getElem?_set_ne (by omega)]
    exact holder
  refine ⟨_, reached, ⟨state.clients.length, by omega, first, second⟩, fun excludes => ?_⟩
  have same := excludes.oneGuard _ _ 0 first second
  omega

end FullTurn

end Teleop.Core.Pool
