import Mathlib.Data.Rat.Defs
import Mathlib.Logic.Function.Basic
import Mathlib.Order.Fin.Basic
import Teleop.Lib.TransitionSystem
import Teleop.Lib.Word

/-!
# Arbitration between the operators

Each operator keeps a slot of the hub alive by heartbeats; the one with the lowest identifier
whose slot is alive has all of the authority.  A slot is two atomics, so a heartbeat is two stores
and a query reads slot after slot, the flag before the stamp.  The calls of any number of threads
interleave at every access.
-/

namespace Teleop.Input

open Teleop.Lib

/-- Slots of the hub; operator 0 is the chief, operator 1 the co-pilot. -/
abbrev maxOperators : Nat := 2

structure CoPilotHub where
  lastSeen : Fin maxOperators → UInt64
  released : Fin maxOperators → Bool
  timeoutNs : UInt64

namespace CoPilotHub

def new (timeoutNs : UInt64) : CoPilotHub where
  lastSeen _ := 0
  released _ := true
  timeoutNs := timeoutNs

/-- The store of a stamp. -/
def stamp (hub : CoPilotHub) (id : Fin maxOperators) (nowNs : UInt64) : CoPilotHub :=
  { hub with lastSeen := Function.update hub.lastSeen id nowNs }

/-- The store of a flag. -/
def mark (hub : CoPilotHub) (id : Fin maxOperators) (released : Bool) : CoPilotHub :=
  { hub with released := Function.update hub.released id released }

def heartbeat (hub : CoPilotHub) (id : Nat) (nowNs : UInt64) : CoPilotHub :=
  if bounded : id < maxOperators then (hub.stamp ⟨id, bounded⟩ nowNs).mark ⟨id, bounded⟩ false
  else hub

def release (hub : CoPilotHub) (id : Nat) : CoPilotHub :=
  if bounded : id < maxOperators then hub.mark ⟨id, bounded⟩ true else hub

/-- The stamp has not expired. -/
def Fresh (hub : CoPilotHub) (id : Fin maxOperators) (nowNs : UInt64) : Prop :=
  saturatingSub nowNs (hub.lastSeen id) ≤ hub.timeoutNs

instance (hub : CoPilotHub) (id : Fin maxOperators) (nowNs : UInt64) :
    Decidable (hub.Fresh id nowNs) := UInt64.decLe _ _

def live (hub : CoPilotHub) (id : Fin maxOperators) (nowNs : UInt64) : Bool :=
  !hub.released id && hub.Fresh id nowNs

def effectiveOperator (hub : CoPilotHub) (nowNs : UInt64) : Option (Fin maxOperators) :=
  (List.finRange maxOperators).find? fun id => hub.live id nowNs

/-- All of the authority for the owner of the control, and none for anyone else. -/
def authority (owner : Option (Fin maxOperators)) (id : Nat) : ℚ :=
  if owner.map (·.val) = some id then 1 else 0

def authorityFor (hub : CoPilotHub) (id : Nat) (nowNs : UInt64) : ℚ :=
  authority (hub.effectiveOperator nowNs) id

theorem authority_sole {owner : Option (Fin maxOperators)} {first second : Nat}
    (mine : authority owner first ≠ 0) (yours : authority owner second ≠ 0) : first = second := by
  unfold authority at mine yours
  rw [ne_eq, ite_eq_right_iff, Classical.not_imp] at mine yours
  exact Option.some.inj (mine.1.symm.trans yours.1)

section Stores

variable (hub : CoPilotHub) {id other : Fin maxOperators} (nowNs : UInt64) (flag : Bool)

@[simp] theorem timeoutNs_stamp : (hub.stamp id nowNs).timeoutNs = hub.timeoutNs := rfl

@[simp] theorem timeoutNs_mark : (hub.mark id flag).timeoutNs = hub.timeoutNs := rfl

@[simp] theorem released_stamp : (hub.stamp id nowNs).released = hub.released := rfl

@[simp] theorem lastSeen_mark : (hub.mark id flag).lastSeen = hub.lastSeen := rfl

@[simp] theorem lastSeen_stamp_self : (hub.stamp id nowNs).lastSeen id = nowNs :=
  Function.update_self id _ _

@[simp] theorem released_mark_self : (hub.mark id flag).released id = flag :=
  Function.update_self id _ _

theorem lastSeen_stamp_of_ne (distinct : other ≠ id) :
    (hub.stamp id nowNs).lastSeen other = hub.lastSeen other := Function.update_of_ne distinct _ _

theorem released_mark_of_ne (distinct : other ≠ id) :
    (hub.mark id flag).released other = hub.released other := Function.update_of_ne distinct _ _

end Stores

end CoPilotHub

namespace CoPilots

/-- The methods of the hub; `authority_for` makes the accesses of `effective_operator`. -/
inductive Operation where
  | heartbeat (id : Nat) (nowNs : UInt64)
  | release (id : Nat)
  | effectiveOperator (nowNs : UInt64)

/-- How far a heartbeat has come. -/
inductive Beat where
  | called
  /-- The stamp is stored, the flag is not. -/
  | stamped
  | returned
  deriving DecidableEq

/-- How far a query has come. -/
inductive Search where
  /-- The flag of the slot is read next. -/
  | asking (id : Fin maxOperators)
  /-- The flag was down; the stamp of the slot is read next. -/
  | reading (id : Fin maxOperators)
  | answered (owner : Option (Fin maxOperators))

inductive Call where
  | heartbeat (id : Fin maxOperators) (nowNs : UInt64) (progress : Beat)
  | release (id : Fin maxOperators) (returned : Bool)
  | effectiveOperator (nowNs : UInt64) (search : Search)
  /-- There is no such slot, and the call has returned. -/
  | ignored

def Operation.begun : Operation → Call
  | .heartbeat id nowNs =>
      if bounded : id < maxOperators then .heartbeat ⟨id, bounded⟩ nowNs .called else .ignored
  | .release id => if bounded : id < maxOperators then .release ⟨id, bounded⟩ false else .ignored
  | .effectiveOperator nowNs => .effectiveOperator nowNs (.asking 0)

/-- A query goes on behind a slot that is not alive. -/
def passOver (id : Fin maxOperators) : Search :=
  if bounded : id.val + 1 < maxOperators then .asking ⟨id.val + 1, bounded⟩ else .answered none

/-- The next access of a call; `none` where it has returned. -/
def Call.access (hub : CoPilotHub) : Call → Option (CoPilotHub × Call)
  | .heartbeat id nowNs .called => some (hub.stamp id nowNs, .heartbeat id nowNs .stamped)
  | .heartbeat id nowNs .stamped => some (hub.mark id false, .heartbeat id nowNs .returned)
  | .release id false => some (hub.mark id true, .release id true)
  | .effectiveOperator nowNs (.asking id) =>
      some (hub, .effectiveOperator nowNs
        (if hub.released id then passOver id else .reading id))
  | .effectiveOperator nowNs (.reading id) =>
      some (hub, .effectiveOperator nowNs
        (if hub.Fresh id nowNs then .answered (some id) else passOver id))
  | _ => none

/-- The hub and the calls made so far, by the thread that makes them. -/
structure State where
  hub : CoPilotHub
  calls : Nat → Option Call

inductive Action where
  | call (thread : Nat) (operation : Operation)
  | access (thread : Nat)

def State.setCall (state : State) (thread : Nat) (call : Call) : State :=
  { state with calls := Function.update state.calls thread (some call) }

/-- One atomic step. -/
def next (state : State) : Action → Option State
  | .call thread operation =>
      match state.calls thread with
      | none => some (state.setCall thread operation.begun)
      | some _ => none
  | .access thread =>
      match state.calls thread with
      | some call => (call.access state.hub).map fun (hub, call) =>
          { state.setCall thread call with hub }
      | none => none

def start (timeoutNs : UInt64) : State where
  hub := .new timeoutNs
  calls _ := none

/-- All interleavings of all calls on a new hub. -/
def threads : TransitionSystem State Action :=
  .ofNext (fun state => ∃ timeoutNs, state = start timeoutNs) next

/-- What an access finds and leaves, one case for each kind. -/
inductive Accesses (hub : CoPilotHub) : Call → CoPilotHub → Call → Prop
  | stamps (id : Fin maxOperators) (nowNs : UInt64) :
      Accesses hub (.heartbeat id nowNs .called) (hub.stamp id nowNs)
        (.heartbeat id nowNs .stamped)
  | engages (id : Fin maxOperators) (nowNs : UInt64) :
      Accesses hub (.heartbeat id nowNs .stamped) (hub.mark id false)
        (.heartbeat id nowNs .returned)
  | yields (id : Fin maxOperators) :
      Accesses hub (.release id false) (hub.mark id true) (.release id true)
  | asks (nowNs : UInt64) (id : Fin maxOperators) (down : hub.released id = false) :
      Accesses hub (.effectiveOperator nowNs (.asking id)) hub
        (.effectiveOperator nowNs (.reading id))
  | skips (nowNs : UInt64) (id : Fin maxOperators) (raised : hub.released id = true) :
      Accesses hub (.effectiveOperator nowNs (.asking id)) hub
        (.effectiveOperator nowNs (passOver id))
  | finds (nowNs : UInt64) (id : Fin maxOperators) (fresh : hub.Fresh id nowNs) :
      Accesses hub (.effectiveOperator nowNs (.reading id)) hub
        (.effectiveOperator nowNs (.answered (some id)))
  | expires (nowNs : UInt64) (id : Fin maxOperators) (stale : ¬ hub.Fresh id nowNs) :
      Accesses hub (.effectiveOperator nowNs (.reading id)) hub
        (.effectiveOperator nowNs (passOver id))

theorem accesses_of_access {hub after : CoPilotHub} {call continued : Call}
    (accessed : call.access hub = some (after, continued)) :
    Accesses hub call after continued := by
  unfold Call.access at accessed
  split at accessed
  · cases accessed
    exact .stamps _ _
  · cases accessed
    exact .engages _ _
  · cases accessed
    exact .yields _
  · cases accessed
    split
    · rename_i raised
      exact .skips _ _ raised
    · rename_i lowered
      exact .asks _ _ (Bool.eq_false_iff.mpr lowered)
  · cases accessed
    split
    · rename_i fresh
      exact .finds _ _ fresh
    · rename_i stale
      exact .expires _ _ stale
  · cases accessed

section Steps

variable {state target : State} {action : Action}

/-- The state in which the call of one thread has continued. -/
def State.continue (state : State) (thread : Nat) (continued : Call) (hub : CoPilotHub) : State :=
  { state.setCall thread continued with hub }

@[simp] theorem State.continue_hub (state : State) (thread : Nat) (continued : Call)
    (hub : CoPilotHub) : (state.continue thread continued hub).hub = hub := rfl

@[simp] theorem State.continue_self (state : State) (thread : Nat) (continued : Call)
    (hub : CoPilotHub) : (state.continue thread continued hub).calls thread = some continued :=
  Function.update_self thread _ _

theorem State.continue_of_ne (state : State) {thread other : Nat} (continued : Call)
    (hub : CoPilotHub) (distinct : other ≠ thread) :
    (state.continue thread continued hub).calls other = state.calls other :=
  Function.update_of_ne distinct _ _

/-- A step begins a call or makes the next access of one. -/
theorem next_cases (stepped : next state action = some target) :
    (∃ thread operation, action = .call thread operation ∧ state.calls thread = none ∧
        target = state.continue thread operation.begun state.hub) ∨
      ∃ thread call continued hub, action = .access thread ∧ state.calls thread = some call ∧
        Accesses state.hub call hub continued ∧ target = state.continue thread continued hub := by
  cases action with
  | call thread operation =>
      simp only [next] at stepped
      split at stepped
      · rename_i fresh
        cases stepped
        exact .inl ⟨thread, operation, rfl, fresh, rfl⟩
      · cases stepped
  | access thread =>
      simp only [next] at stepped
      split at stepped
      · rename_i call running
        obtain ⟨⟨hub, continued⟩, accessed, rfl⟩ := Option.map_eq_some_iff.mp stepped
        exact .inr ⟨thread, call, continued, hub, rfl, running, accesses_of_access accessed, rfl⟩
      · cases stepped

/-- The search behind a slot goes on at the next one or ends with nobody. -/
theorem passOver_cases (id : Fin maxOperators) :
    (∃ other : Fin maxOperators, other.val = id.val + 1 ∧ passOver id = .asking other) ∨
      passOver id = .answered none := by
  unfold passOver
  split
  · rename_i bounded
    exact .inl ⟨⟨id.val + 1, bounded⟩, rfl, rfl⟩
  · exact .inr rfl

theorem passOver_ne_reading (other id : Fin maxOperators) : passOver other ≠ .reading id := by
  rcases passOver_cases other with ⟨behind, -, asks⟩ | ends
  · rw [asks]
    exact nofun
  · rw [ends]
    exact nofun

theorem passOver_ne_answered (other id : Fin maxOperators) :
    passOver other ≠ .answered (some id) := by
  rcases passOver_cases other with ⟨behind, -, asks⟩ | ends
  · rw [asks]
    exact nofun
  · rw [ends]
    exact nofun

/-- A query begins at the first slot, and no other call is one. -/
theorem begun_cases (operation : Operation) {nowNs : UInt64} {search : Search}
    (begun : operation.begun = .effectiveOperator nowNs search) : search = .asking 0 := by
  cases operation with
  | heartbeat raw =>
      simp only [Operation.begun] at begun
      split at begun <;> cases begun
  | release raw =>
      simp only [Operation.begun] at begun
      split at begun <;> cases begun
  | effectiveOperator =>
      cases begun
      rfl

theorem timeoutNs_of_accesses {hub after : CoPilotHub} {call continued : Call}
    (accesses : Accesses hub call after continued) : after.timeoutNs = hub.timeoutNs := by
  cases accesses <;> rfl

/-- A flag is lowered by the second store of a heartbeat and raised by a release. -/
theorem released_of_accesses {hub after : CoPilotHub} {call continued : Call}
    (accesses : Accesses hub call after continued) (id : Fin maxOperators) :
    after.released id = hub.released id ∨
      (∃ nowNs, call = .heartbeat id nowNs .stamped ∧ after.released id = false) ∨
      (call = .release id false ∧ after.released id = true) := by
  cases accesses with
  | engages other nowNs =>
      rcases eq_or_ne id other with rfl | distinct
      · exact .inr (.inl ⟨nowNs, rfl, CoPilotHub.released_mark_self ..⟩)
      · exact .inl (CoPilotHub.released_mark_of_ne _ _ distinct)
  | yields other =>
      rcases eq_or_ne id other with rfl | distinct
      · exact .inr (.inr ⟨rfl, CoPilotHub.released_mark_self ..⟩)
      · exact .inl (CoPilotHub.released_mark_of_ne _ _ distinct)
  | stamps => exact .inl rfl
  | asks => exact .inl rfl
  | skips => exact .inl rfl
  | finds => exact .inl rfl
  | expires => exact .inl rfl

/-- A stamp is replaced by the first store of a heartbeat. -/
theorem lastSeen_of_accesses {hub after : CoPilotHub} {call continued : Call}
    (accesses : Accesses hub call after continued) (id : Fin maxOperators) :
    after.lastSeen id = hub.lastSeen id ∨
      ∃ nowNs, call = .heartbeat id nowNs .called ∧
        continued = .heartbeat id nowNs .stamped ∧ after.lastSeen id = nowNs := by
  cases accesses with
  | stamps other nowNs =>
      rcases eq_or_ne id other with rfl | distinct
      · exact .inr ⟨nowNs, rfl, rfl, CoPilotHub.lastSeen_stamp_self ..⟩
      · exact .inl (CoPilotHub.lastSeen_stamp_of_ne _ _ distinct)
  | engages => exact .inl rfl
  | yields => exact .inl rfl
  | asks => exact .inl rfl
  | skips => exact .inl rfl
  | finds => exact .inl rfl
  | expires => exact .inl rfl

end Steps

/-- What a method does on a hub that nobody else touches, and the call when it has returned. -/
def Operation.run (hub : CoPilotHub) : Operation → CoPilotHub × Call
  | .heartbeat id nowNs =>
      (hub.heartbeat id nowNs,
        if bounded : id < maxOperators then .heartbeat ⟨id, bounded⟩ nowNs .returned else .ignored)
  | .release id =>
      (hub.release id,
        if bounded : id < maxOperators then .release ⟨id, bounded⟩ true else .ignored)
  | .effectiveOperator nowNs =>
      (hub, .effectiveOperator nowNs (.answered (hub.effectiveOperator nowNs)))

section Alone

variable {hub : CoPilotHub}

/-- Accesses of one call with none of another between them. -/
inductive Alone : CoPilotHub → Call → Nat → CoPilotHub → Call → Prop
  | done (hub : CoPilotHub) (call : Call) : Alone hub call 0 hub call
  | access {hub middle after : CoPilotHub} {call continued final : Call} {count : Nat} :
      call.access hub = some (middle, continued) → Alone middle continued count after final →
      Alone hub call (count + 1) after final

theorem Alone.perform {after : CoPilotHub} {call final : Call} {count thread : Nat}
    (alone : Alone hub call count after final) {state : State} (same : state.hub = hub)
    (running : state.calls thread = some call) :
    ∃ target, TransitionSystem.perform next state (.replicate count (.access thread)) =
        some target ∧ target.hub = after ∧ target.calls thread = some final := by
  induction alone generalizing state with
  | done hub call => exact ⟨state, rfl, same, running⟩
  | @access hub middle after call continued final count accessed _ inductionHypothesis =>
      have stepped : next state (.access thread) = some (state.continue thread continued middle) := by
        rw [← same] at accessed
        simp only [next, running, accessed]
        rfl
      obtain ⟨target, performed, left⟩ :=
        inductionHypothesis (state.continue_hub thread continued middle) (state.continue_self ..)
      refine ⟨target, ?_, left⟩
      rw [List.replicate_succ, TransitionSystem.perform_cons stepped]
      exact performed

/-- A slot that is not alive is passed over, after one access or two. -/
theorem alone_of_dead {after : CoPilotHub} {id : Fin maxOperators} {nowNs : UInt64} {final : Call}
    (dead : hub.live id nowNs = false)
    (behind : ∃ count, Alone hub (.effectiveOperator nowNs (passOver id)) count after final) :
    ∃ count, Alone hub (.effectiveOperator nowNs (.asking id)) count after final := by
  obtain ⟨count, alone⟩ := behind
  by_cases raised : hub.released id = true
  · exact ⟨count + 1, .access (by simp [Call.access, raised]) alone⟩
  · have stale : ¬ hub.Fresh id nowNs := by simpa [CoPilotHub.live, raised] using dead
    exact ⟨count + 2, .access (by simp [Call.access, raised]; exact ⟨rfl, rfl⟩)
      (.access (by simp [Call.access, stale]) alone)⟩

theorem alone_of_live {id : Fin maxOperators} {nowNs : UInt64}
    (alive : hub.live id nowNs = true) :
    ∃ count, Alone hub (.effectiveOperator nowNs (.asking id)) count hub
      (.effectiveOperator nowNs (.answered (some id))) := by
  obtain ⟨down, fresh⟩ : hub.released id = false ∧ hub.Fresh id nowNs := by
    simpa [CoPilotHub.live] using alive
  exact ⟨2, .access (by simp [Call.access, down]; exact ⟨rfl, rfl⟩)
    (.access (by simp [Call.access, fresh]) (.done _ _))⟩

/-- The search reads the slots in their order. -/
theorem alone_search (hub : CoPilotHub) (nowNs : UInt64) :
    ∃ count, Alone hub (.effectiveOperator nowNs (.asking 0)) count hub
      (.effectiveOperator nowNs (.answered (hub.effectiveOperator nowNs))) := by
  have slots : List.finRange maxOperators = [0, 1] := rfl
  rw [CoPilotHub.effectiveOperator, slots]
  cases chief : hub.live 0 nowNs with
  | true =>
      simp only [List.find?_cons, chief]
      exact alone_of_live chief
  | false =>
      simp only [List.find?_cons, chief]
      apply alone_of_dead chief
      cases copilot : hub.live 1 nowNs with
      | true => exact alone_of_live copilot
      | false => exact alone_of_dead copilot ⟨0, .done _ _⟩

/-- Run without interruption, the accesses of a call do what the method does. -/
theorem runs_alone (state : State) {thread : Nat} (fresh : state.calls thread = none)
    (operation : Operation) :
    ∃ count target,
      TransitionSystem.perform next state
          (.call thread operation :: .replicate count (.access thread)) = some target ∧
        target.hub = (operation.run state.hub).1 ∧
        target.calls thread = some (operation.run state.hub).2 := by
  have begun : next state (.call thread operation) =
      some (state.continue thread operation.begun state.hub) := by
    simp only [next, fresh]
    rfl
  have alone : ∃ count, Alone state.hub operation.begun count (operation.run state.hub).1
      (operation.run state.hub).2 := by
    cases operation with
    | heartbeat id nowNs =>
        by_cases bounded : id < maxOperators
        · simp only [Operation.begun, Operation.run, CoPilotHub.heartbeat, dif_pos bounded]
          exact ⟨2, .access rfl (.access rfl (.done _ _))⟩
        · simp only [Operation.begun, Operation.run, CoPilotHub.heartbeat, dif_neg bounded]
          exact ⟨0, .done _ _⟩
    | release id =>
        by_cases bounded : id < maxOperators
        · simp only [Operation.begun, Operation.run, CoPilotHub.release, dif_pos bounded]
          exact ⟨1, .access rfl (.done _ _)⟩
        · simp only [Operation.begun, Operation.run, CoPilotHub.release, dif_neg bounded]
          exact ⟨0, .done _ _⟩
    | effectiveOperator nowNs => exact alone_search state.hub nowNs
  obtain ⟨count, accesses⟩ := alone
  obtain ⟨target, performed, left⟩ := accesses.perform (state.continue_hub thread _ _)
    (state.continue_self ..)
  refine ⟨count, target, ?_, left⟩
  rw [TransitionSystem.perform_cons begun]
  exact performed

end Alone

/-- A heartbeat of the operator has stored the stamp. -/
def Sent (state : State) (id : Fin maxOperators) (stamp : UInt64) : Prop :=
  ∃ thread progress, state.calls thread = some (.heartbeat id stamp progress) ∧
    progress ≠ .called

/-- The stamp of the slot is one that its operator sent. -/
def Heard (state : State) (id : Fin maxOperators) : Prop := Sent state id (state.hub.lastSeen id)

/-- What a call relies on. -/
def Rests (state : State) : Call → Prop
  | .heartbeat id _ .stamped => Heard state id
  | .effectiveOperator _ (.reading id) => Heard state id
  | .effectiveOperator nowNs (.answered (some owner)) =>
      ∃ stamp, Sent state owner stamp ∧ saturatingSub nowNs stamp ≤ state.hub.timeoutNs
  | _ => True

/-- A flag is down only over a stamp that was sent: a heartbeat stores the stamp first, and a query
reads it last. -/
structure Grounded (state : State) : Prop where
  flag : ∀ id, state.hub.released id = false → Heard state id
  calls : ∀ thread call, state.calls thread = some call → Rests state call

section Grounds

variable {state target : State} {action : Action}

theorem timeoutNs_of_next (stepped : next state action = some target) :
    target.hub.timeoutNs = state.hub.timeoutNs := by
  rcases next_cases stepped with
    ⟨thread, operation, -, -, rfl⟩ | ⟨thread, call, continued, hub, -, -, accesses, rfl⟩
  · rfl
  · exact timeoutNs_of_accesses accesses

theorem Sent.next {id : Fin maxOperators} {stamp : UInt64} (sent : Sent state id stamp)
    (stepped : next state action = some target) : Sent target id stamp := by
  obtain ⟨sender, progress, beating, stored⟩ := sent
  rcases next_cases stepped with
    ⟨thread, operation, -, fresh, rfl⟩ | ⟨thread, call, continued, hub, -, running, accesses, rfl⟩
  · have distinct : sender ≠ thread := by
      rintro rfl
      rw [fresh] at beating
      cases beating
    exact ⟨sender, progress, (State.continue_of_ne _ _ _ distinct).trans beating, stored⟩
  · rcases eq_or_ne sender thread with rfl | distinct
    · obtain rfl := Option.some.inj (running.symm.trans beating)
      cases accesses with
      | stamps => exact absurd rfl stored
      | engages => exact ⟨sender, .returned, State.continue_self .., nofun⟩
    · exact ⟨sender, progress, (State.continue_of_ne _ _ _ distinct).trans beating, stored⟩

theorem Heard.next {id : Fin maxOperators} (heard : Heard state id)
    (stepped : next state action = some target) : Heard target id := by
  have sent := Sent.next heard stepped
  rcases next_cases stepped with
    ⟨thread, operation, -, -, rfl⟩ | ⟨thread, call, continued, hub, -, -, accesses, rfl⟩
  · exact sent
  · rcases lastSeen_of_accesses accesses id with same | ⟨nowNs, -, rfl, stored⟩
    · rw [Heard, State.continue_hub, same]
      exact sent
    · rw [Heard, State.continue_hub, stored]
      exact ⟨thread, .stamped, State.continue_self .., nofun⟩

theorem Rests.next {call : Call} (rests : Rests state call)
    (stepped : next state action = some target) : Rests target call := by
  unfold Rests at *
  split
  · exact Heard.next rests stepped
  · exact Heard.next rests stepped
  · obtain ⟨stamp, sent, fresh⟩ := rests
    exact ⟨stamp, sent.next stepped, by rwa [timeoutNs_of_next stepped]⟩
  · trivial

theorem rests_passOver (state : State) (nowNs : UInt64) (id : Fin maxOperators) :
    Rests state (.effectiveOperator nowNs (passOver id)) := by
  rcases passOver_cases id with ⟨other, -, asks⟩ | ends
  · rw [asks]
    trivial
  · rw [ends]
    trivial

theorem rests_begun (state : State) (operation : Operation) : Rests state operation.begun := by
  cases operation with
  | heartbeat id nowNs =>
      by_cases bounded : id < maxOperators <;> simp only [Operation.begun, bounded] <;> trivial
  | release id =>
      by_cases bounded : id < maxOperators <;> simp only [Operation.begun, bounded] <;> trivial
  | effectiveOperator => trivial

/-- What the accessing call relies on from then on. -/
theorem Grounded.continues {hub : CoPilotHub} {thread : Nat} {call continued : Call}
    (grounded : Grounded state) (running : state.calls thread = some call)
    (accesses : Accesses state.hub call hub continued)
    (stepped : CoPilots.next state action = some (state.continue thread continued hub)) :
    Rests (state.continue thread continued hub) continued := by
  have rests := grounded.calls thread call running
  cases accesses with
  | stamps id nowNs =>
      refine ⟨thread, .stamped, ?_, nofun⟩
      rw [State.continue_hub, CoPilotHub.lastSeen_stamp_self]
      exact State.continue_self ..
  | engages => trivial
  | yields => trivial
  | asks nowNs id down => exact (grounded.flag id down).next stepped
  | skips nowNs id => exact rests_passOver _ nowNs id
  | finds nowNs id fresh => exact ⟨_, Sent.next rests stepped, fresh⟩
  | expires nowNs id => exact rests_passOver _ nowNs id

theorem Grounded.next (grounded : Grounded state) (stepped : next state action = some target) :
    Grounded target := by
  rcases next_cases stepped with
    ⟨thread, operation, -, -, rfl⟩ | ⟨thread, call, continued, hub, -, running, accesses, rfl⟩
  · constructor
    · intro id down
      exact (grounded.flag id down).next stepped
    · intro other call made
      rcases eq_or_ne other thread with rfl | distinct
      · obtain rfl := Option.some.inj ((State.continue_self ..).symm.trans made)
        exact rests_begun _ operation
      · rw [State.continue_of_ne _ _ _ distinct] at made
        exact (grounded.calls other call made).next stepped
  · constructor
    · intro id down
      have rests := grounded.calls thread call running
      refine Heard.next ?_ stepped
      rcases released_of_accesses accesses id with same | ⟨nowNs, rfl, -⟩ | ⟨-, raised⟩
      · exact grounded.flag id (same.symm.trans down)
      · exact rests
      · rw [State.continue_hub, raised] at down
        cases down
    · intro other before made
      rcases eq_or_ne other thread with rfl | distinct
      · obtain rfl := Option.some.inj ((State.continue_self ..).symm.trans made)
        exact grounded.continues running accesses stepped
      · rw [State.continue_of_ne _ _ _ distinct] at made
        exact (grounded.calls other before made).next stepped

theorem grounded_of_reachable (reached : threads.Reachable state) : Grounded state := by
  apply reached.invariant
  · rintro _ ⟨timeoutNs, rfl⟩
    exact ⟨nofun, nofun⟩
  · intro state action target grounded stepped
    exact grounded.next stepped

end Grounds

/-- The step neither releases the operator nor stamps it earlier than `since`. -/
def KeepsUp (id : Fin maxOperators) (since : UInt64) (state : State) (action : Action) : Prop :=
  ∀ thread, action = .access thread → state.calls thread ≠ some (.release id false) ∧
    ∀ nowNs, state.calls thread = some (.heartbeat id nowNs .called) → since ≤ nowNs

/-- The step does not begin a heartbeat of the operator. -/
def Silences (id : Fin maxOperators) (_ : State) (action : Action) : Prop :=
  ∀ thread nowNs, action ≠ .call thread (.heartbeat id nowNs)

/-- No heartbeat of the operator is under way. -/
def Silent (state : State) (id : Fin maxOperators) : Prop :=
  ∀ thread nowNs progress, state.calls thread = some (.heartbeat id nowNs progress) →
    progress = .returned

/-- A search that has not gone past the slot. -/
def Search.Upto (id : Fin maxOperators) : Search → Prop
  | .asking other => other ≤ id
  | .reading other => other ≤ id
  | .answered owner => ∃ first ≤ id, owner = some first

/-- The search behind a slot before another one has not gone past that. -/
theorem upto_passOver {id other : Fin maxOperators} (before : other < id) :
    (passOver other).Upto id := by
  have bounded : other.val + 1 < maxOperators := Nat.lt_of_le_of_lt before id.isLt
  rw [passOver, dif_pos bounded]
  exact before

section Upkeep

variable {source state target : State} {action : Action} {id : Fin maxOperators}
  {since nowNs : UInt64}

/-- An operator that keeps up, and the queries that were begun meanwhile. -/
structure Kept (source : State) (id : Fin maxOperators) (since nowNs : UInt64) (state : State) :
    Prop where
  down : state.hub.released id = false
  seen : since ≤ state.hub.lastSeen id
  reach : saturatingSub nowNs since ≤ state.hub.timeoutNs
  queries : ∀ thread search, source.calls thread = none →
    state.calls thread = some (.effectiveOperator nowNs search) → search.Upto id

theorem Kept.fresh (kept : Kept source id since nowNs state) : state.hub.Fresh id nowNs := by
  have seen := kept.seen
  have reach := kept.reach
  unfold CoPilotHub.Fresh
  rw [UInt64.le_iff_toNat_le] at *
  rw [toNat_saturatingSub] at *
  omega

/-- Where a slot before the operator or its own is found not to be alive, it is one before. -/
theorem Kept.accesses {hub : CoPilotHub} {thread : Nat} {call : Call} {search : Search}
    (kept : Kept source id since nowNs state) (running : state.calls thread = some call)
    (later : source.calls thread = none)
    (accesses : Accesses state.hub call hub (.effectiveOperator nowNs search)) :
    search.Upto id := by
  cases accesses with
  | asks _ other =>
      have upto : other ≤ id := kept.queries thread _ later running
      exact upto
  | skips _ other raised =>
      have upto : other ≤ id := kept.queries thread _ later running
      apply upto_passOver
      apply lt_of_le_of_ne upto
      rintro rfl
      rw [kept.down] at raised
      cases raised
  | finds _ other =>
      have upto : other ≤ id := kept.queries thread _ later running
      exact ⟨other, upto, rfl⟩
  | expires _ other stale =>
      have upto : other ≤ id := kept.queries thread _ later running
      apply upto_passOver
      apply lt_of_le_of_ne upto
      rintro rfl
      exact stale kept.fresh

theorem Kept.next (kept : Kept source id since nowNs state)
    (keepsUp : KeepsUp id since state action) (stepped : next state action = some target) :
    Kept source id since nowNs target := by
  have reach := kept.reach
  rw [← timeoutNs_of_next stepped] at reach
  rcases next_cases stepped with
    ⟨thread, operation, -, -, rfl⟩ | ⟨thread, call, continued, hub, rfl, running, accesses, rfl⟩
  · refine ⟨kept.down, kept.seen, reach, ?_⟩
    intro other search later made
    rcases eq_or_ne other thread with rfl | distinct
    · rw [State.continue_self] at made
      rw [begun_cases operation (Option.some.inj made)]
      exact Fin.zero_le id
    · rw [State.continue_of_ne _ _ _ distinct] at made
      exact kept.queries other search later made
  · obtain ⟨notReleased, notEarlier⟩ := keepsUp thread rfl
    refine ⟨?_, ?_, reach, ?_⟩
    · rcases released_of_accesses accesses id with same | ⟨-, -, lowered⟩ | ⟨rfl, -⟩
      · exact same.trans kept.down
      · exact lowered
      · exact absurd running notReleased
    · rw [State.continue_hub]
      rcases lastSeen_of_accesses accesses id with same | ⟨nowNs, rfl, -, stored⟩
      · rw [same]
        exact kept.seen
      · rw [stored]
        exact notEarlier nowNs running
    · intro other search later made
      rcases eq_or_ne other thread with rfl | distinct
      · rw [State.continue_self] at made
        obtain rfl := Option.some.inj made
        exact kept.accesses running later accesses
      · rw [State.continue_of_ne _ _ _ distinct] at made
        exact kept.queries other search later made

/-- An operator that is silent, and the queries that were begun meanwhile. -/
structure Muted (source : State) (id : Fin maxOperators) (nowNs : UInt64) (state : State) :
    Prop where
  silent : Silent state id
  seen : state.hub.lastSeen id = source.hub.lastSeen id
  timeout : state.hub.timeoutNs = source.hub.timeoutNs
  raised : source.hub.released id = true → state.hub.released id = true
  reading : ∀ thread, source.calls thread = none →
    state.calls thread = some (.effectiveOperator nowNs (.reading id)) →
    source.hub.released id = false
  unanswered : ∀ thread, source.calls thread = none →
    state.calls thread ≠ some (.effectiveOperator nowNs (.answered (some id)))

theorem Silent.next (silent : Silent state id) (silences : Silences id state action)
    (stepped : next state action = some target) : Silent target id := by
  intro other nowNs progress beating
  rcases next_cases stepped with
    ⟨thread, operation, rfl, -, rfl⟩ | ⟨thread, call, continued, hub, rfl, running, accesses, rfl⟩
  · rcases eq_or_ne other thread with rfl | distinct
    · rw [State.continue_self] at beating
      cases operation with
      | heartbeat raw nowNs =>
          simp only [Operation.begun] at beating
          split at beating
          · cases beating
            exact absurd rfl (silences other nowNs)
          · cases beating
      | release raw => simp only [Operation.begun] at beating; split at beating <;> cases beating
      | effectiveOperator => cases beating
    · rw [State.continue_of_ne _ _ _ distinct] at beating
      exact silent other nowNs progress beating
  · rcases eq_or_ne other thread with rfl | distinct
    · rw [State.continue_self] at beating
      obtain rfl := Option.some.inj beating
      cases accesses with
      | stamps => exact absurd (silent other _ _ running) nofun
      | engages => rfl
    · rw [State.continue_of_ne _ _ _ distinct] at beating
      exact silent other nowNs progress beating

/-- A query reads the stamp only of an operator that had not released, and finds it expired. -/
theorem Muted.accesses {hub : CoPilotHub} {thread : Nat} {call : Call} {search : Search}
    (muted : Muted source id nowNs state) (dead : source.hub.live id nowNs = false)
    (running : state.calls thread = some call) (later : source.calls thread = none)
    (accesses : Accesses state.hub call hub (.effectiveOperator nowNs search)) :
    (search = .reading id → source.hub.released id = false) ∧ search ≠ .answered (some id) := by
  generalize made : Call.effectiveOperator nowNs search = continued at accesses
  cases accesses with
  | stamps => cases made
  | engages => cases made
  | yields => cases made
  | asks _ other down =>
      cases made
      constructor
      · intro same
        cases same
        by_contra lowered
        rw [muted.raised (Bool.eq_true_of_not_eq_false lowered)] at down
        cases down
      · exact nofun
  | skips _ other =>
      cases made
      exact ⟨fun reads => absurd reads (passOver_ne_reading other id),
        passOver_ne_answered other id⟩
  | finds _ other fresh =>
      cases made
      constructor
      · exact nofun
      · intro same
        cases same
        have down := muted.reading thread later running
        have stale : ¬ source.hub.Fresh id nowNs := by
          simpa [CoPilotHub.live, down] using dead
        apply stale
        unfold CoPilotHub.Fresh at *
        rwa [muted.seen, muted.timeout] at fresh
  | expires _ other =>
      cases made
      exact ⟨fun reads => absurd reads (passOver_ne_reading other id),
        passOver_ne_answered other id⟩

theorem Muted.next (muted : Muted source id nowNs state)
    (dead : source.hub.live id nowNs = false) (silences : Silences id state action)
    (stepped : next state action = some target) : Muted source id nowNs target := by
  have silent := muted.silent.next silences stepped
  have timeout := (timeoutNs_of_next stepped).trans muted.timeout
  rcases next_cases stepped with
    ⟨thread, operation, rfl, -, rfl⟩ | ⟨thread, call, continued, hub, rfl, running, accesses, rfl⟩
  · refine ⟨silent, muted.seen, timeout, muted.raised, ?_, ?_⟩
    · intro other later reads
      rcases eq_or_ne other thread with rfl | distinct
      · rw [State.continue_self] at reads
        exact absurd (begun_cases operation (Option.some.inj reads)) nofun
      · rw [State.continue_of_ne _ _ _ distinct] at reads
        exact muted.reading other later reads
    · intro other later answers
      rcases eq_or_ne other thread with rfl | distinct
      · rw [State.continue_self] at answers
        exact absurd (begun_cases operation (Option.some.inj answers)) nofun
      · rw [State.continue_of_ne _ _ _ distinct] at answers
        exact muted.unanswered other later answers
  · refine ⟨silent, ?_, timeout, ?_, ?_, ?_⟩
    · rcases lastSeen_of_accesses accesses id with same | ⟨nowNs, rfl, -, -⟩
      · exact same.trans muted.seen
      · exact absurd (muted.silent thread _ _ running) nofun
    · intro released
      rcases released_of_accesses accesses id with same | ⟨nowNs, rfl, -⟩ | ⟨-, raised⟩
      · exact same.trans (muted.raised released)
      · exact absurd (muted.silent thread _ _ running) nofun
      · exact raised
    · intro other later reads
      rcases eq_or_ne other thread with rfl | distinct
      · rw [State.continue_self] at reads
        obtain rfl := Option.some.inj reads
        exact (muted.accesses dead running later accesses).1 rfl
      · rw [State.continue_of_ne _ _ _ distinct] at reads
        exact muted.reading other later reads
    · intro other later answers
      rcases eq_or_ne other thread with rfl | distinct
      · rw [State.continue_self] at answers
        obtain rfl := Option.some.inj answers
        exact (muted.accesses dead running later accesses).2 rfl
      · rw [State.continue_of_ne _ _ _ distinct] at answers
        exact muted.unanswered other later answers

end Upkeep

/-- Who has the control.  An owner rests on a heartbeat of its own that has not expired.  From here
on, an operator that keeps its slot alive is passed over only for one before it, and one that is
neither alive nor sends heartbeats is not chosen. -/
structure Arbitrates (state : State) : Prop where
  grounded : ∀ thread nowNs owner,
    state.calls thread = some (.effectiveOperator nowNs (.answered (some owner))) →
      ∃ stamp, Sent state owner stamp ∧ saturatingSub nowNs stamp ≤ state.hub.timeoutNs
  holds : ∀ id since actions target, state.hub.released id = false →
    since ≤ state.hub.lastSeen id →
    (threads.restrict (KeepsUp id since)).Execution state actions target →
    ∀ thread nowNs owner, state.calls thread = none →
      saturatingSub nowNs since ≤ state.hub.timeoutNs →
      target.calls thread = some (.effectiveOperator nowNs (.answered owner)) →
      ∃ first ≤ id, owner = some first
  yields : ∀ id nowNs actions target, Silent state id → state.hub.live id nowNs = false →
    (threads.restrict (Silences id)).Execution state actions target →
    ∀ thread owner, state.calls thread = none →
      target.calls thread = some (.effectiveOperator nowNs (.answered owner)) → owner ≠ some id
  /-- A call that nothing interrupts does what the method does on the hub. -/
  alone : ∀ thread operation, state.calls thread = none → ∃ count target,
    TransitionSystem.perform next state
        (.call thread operation :: .replicate count (.access thread)) = some target ∧
      target.hub = (operation.run state.hub).1 ∧
      target.calls thread = some (operation.run state.hub).2
  /-- At any time one operator at most has authority. -/
  sole : ∀ nowNs first second, state.hub.authorityFor first nowNs ≠ 0 →
    state.hub.authorityFor second nowNs ≠ 0 → first = second

/-- In every run, however the accesses of the threads interleave, the hub arbitrates. -/
theorem arbitrates_of_reachable {state : State} (reached : threads.Reachable state) :
    Arbitrates state := by
  constructor
  · intro thread nowNs owner answered
    exact (grounded_of_reachable reached).calls thread _ answered
  · intro id since actions target down seen execution thread nowNs owner later reach answered
    have kept : Kept state id since nowNs target := by
      refine execution.preserves ?_ ⟨down, seen, reach, ?_⟩
      · rintro middle action after kept ⟨keepsUp, stepped⟩
        exact kept.next keepsUp stepped
      · intro other search fresh begun
        rw [fresh] at begun
        cases begun
    exact kept.queries thread _ later answered
  · rintro id nowNs actions target silent dead execution thread owner later answered rfl
    have muted : Muted state id nowNs target := by
      refine execution.preserves ?_ ⟨silent, rfl, rfl, fun raised => raised, ?_, ?_⟩
      · rintro middle action after muted ⟨silences, stepped⟩
        exact muted.next dead silences stepped
      · intro other fresh begun
        rw [fresh] at begun
        cases begun
      · intro other fresh begun
        rw [fresh] at begun
        cases begun
    exact muted.unanswered thread later answered
  · intro thread operation fresh
    exact runs_alone state fresh operation
  · intro nowNs first second
    exact CoPilotHub.authority_sole

/-- The chief has sent a heartbeat, and the owner of the control was asked for. -/
def chiefEngaged : List Action :=
  [.call 0 (.heartbeat 0 5), .access 0, .access 0, .call 1 (.effectiveOperator 60), .access 1,
    .access 1]

theorem arbitrates_chiefEngaged : ∃ state,
    TransitionSystem.perform next (start 100) chiefEngaged = some state ∧
      state.calls 1 = some (.effectiveOperator 60 (.answered (some 0))) ∧ Arbitrates state := by
  obtain ⟨state, performed⟩ : ∃ state,
      TransitionSystem.perform next (start 100) chiefEngaged = some state :=
    Option.isSome_iff_exists.mp (by decide)
  have reached : threads.Reachable state :=
    TransitionSystem.reachable_of_perform ⟨100, rfl⟩ performed
  have answered : state.calls 1 = some (.effectiveOperator 60 (.answered (some 0))) := by
    cases performed
    rfl
  exact ⟨state, performed, answered, arbitrates_of_reachable reached⟩

end CoPilots

end Teleop.Input
