import Mathlib.Data.List.Nodup
import Teleop.Core.EventLog
import Teleop.Ring.SpscFifo

/-!
# When the transition log stays intact

The ring is safe for overlapping commits as long as no tail store puts the tail behind the
position the observer has come to: the positions from there to the highest tail so far hold
records that were not drained yet.  A delayed tail store that falls behind makes the
observer read slots a second time, or slots that were never written.
-/

namespace Teleop.Core.EventLog

open Teleop.Lib

/-- The position after the last one the observer has gone for. -/
def State.claimed (state : State) : Nat :=
  match state.observer with
  | .idle | .loadHead | .loadTail _ => state.head
  | .read _ | .storeHead _ _ => state.head + 1

/-- The first position the observer has not read. -/
def State.unread (state : State) : Nat :=
  match state.observer with
  | .idle | .loadHead | .loadTail _ | .read _ => state.head
  | .storeHead _ _ => state.head + 1

/-- What was drained, and what the observer has read and is about to return. -/
def State.taken (state : State) : List (Option Event) :=
  match state.observer with
  | .idle | .loadHead | .loadTail _ | .read _ => state.drained
  | .storeHead _ value => state.drained ++ [value]

/-- A tail store does not put the tail behind the observer; other steps are free. -/
def keepsAhead (state : State) : Action → Bool
  | .push id =>
      match state.calls id with
      | some ⟨_, .pushing _ _ (.storeTail t)⟩ => decide (state.claimed ≤ t + 1)
      | _ => true
  | .call _ _ | .load _ | .store _ _ | .take | .observe => true

/-- The slot of position `p` holds a record that was not taken. -/
def State.Untaken (cap : Nat) (state : State) (p : Nat) : Prop :=
  ∃ event, state.slots (maskIndex cap p) = some event ∧ some event ∉ state.taken

/-- The call has written its record, so it writes nothing any more. -/
def Progress.wrote : Progress → Bool
  | .mode (.returned _) | .pushing _ _ (.storeTail _) => true
  | .mode .called | .mode (.loaded _) => false
  | .pushing _ _ .loadTail | .pushing _ _ (.loadHead _) | .pushing _ _ (.write _) => false

/-- What holds of a push at each of its accesses, `top` being the highest tail so far. -/
def PushHolds (cap top : Nat) (state : State) : Push → Prop
  | .loadTail => True
  | .loadHead t => t ≤ top
  | .write t => t ≤ top ∧ t < state.head + cap
  | .storeTail t => t ≤ top ∧ t < state.head + cap ∧ (t = top → state.Untaken cap t)

/-- What holds of the observer at each of its accesses. -/
def State.AtHead (state : State) : Prop :=
  match state.observer with
  | .idle | .loadHead => True
  | .loadTail h | .read h | .storeHead h _ => h = state.head

/-- Every position from the first unread one to the highest tail holds a record of its own
that was not taken, and nothing was taken twice. -/
structure Intact (cap top : Nat) (state : State) : Prop where
  ahead : state.claimed ≤ state.tail
  highest : state.tail ≤ top
  bounded : top ≤ state.head + cap
  untaken : ∀ p, state.unread ≤ p → p < top → state.Untaken cap p
  pushes : ∀ id operation source event push,
    state.calls id = some ⟨operation, .pushing source event push⟩ →
      event.commit = id ∧ PushHolds cap top state push
  wrote : ∀ event ∈ state.recorded, ∃ call, state.calls event.commit = some call ∧
    call.progress.wrote = true
  listed : ∀ s event, state.slots s = some event → event ∈ state.recorded
  apart : ∀ s s' event, state.slots s = some event → state.slots s' = some event → s = s'
  taken : ∀ value ∈ state.taken, ∃ event ∈ state.recorded, value = some event
  once : state.taken.Nodup
  atHead : state.AtHead

theorem start_intact (cap : Nat) : Intact cap 0 start where
  ahead := Nat.le_refl 0
  highest := Nat.le_refl 0
  bounded := Nat.zero_le _
  untaken p _ below := absurd below (Nat.not_lt_zero p)
  pushes _ _ _ _ _ waiting := by cases waiting
  wrote _ listed := absurd listed List.not_mem_nil
  listed _ _ held := by cases held
  apart _ _ _ held := by cases held
  taken _ listed := absurd listed List.not_mem_nil
  once := List.nodup_nil
  atHead := trivial

section Steps

variable {cap top : Nat} {state target : State}

/-- What holds of a push outlives a rising tail and an advancing head, if the slot of the
highest tail does. -/
theorem PushHolds.mono {top' : Nat} {push : Push} (holds : PushHolds cap top state push)
    (higher : top ≤ top') (forward : state.head ≤ target.head)
    (kept : top < state.head + cap → state.Untaken cap top → target.Untaken cap top) :
    PushHolds cap top' target push := by
  cases push with
  | loadTail => trivial
  | loadHead t => exact Nat.le_trans holds higher
  | write t =>
      obtain ⟨behind, near⟩ := holds
      exact ⟨Nat.le_trans behind higher, Nat.lt_of_lt_of_le near (Nat.add_le_add_right forward cap)⟩
  | storeTail t =>
      obtain ⟨behind, near, untaken⟩ := holds
      refine ⟨Nat.le_trans behind higher,
        Nat.lt_of_lt_of_le near (Nat.add_le_add_right forward cap), ?_⟩
      intro last
      have highest : t = top := Nat.le_antisymm behind (last ▸ higher)
      subst highest
      exact kept near (untaken rfl)

/-- A call that has not written its record has none in the ring. -/
theorem Intact.unrecorded (intact : Intact cap top state) {id : Nat}
    (unwritten : ∀ call, state.calls id = some call → call.progress.wrote = false)
    {event : Event} (recorded : event ∈ state.recorded) : event.commit ≠ id := by
  rintro rfl
  obtain ⟨call, present, written⟩ := intact.wrote event recorded
  rw [unwritten call present] at written
  cases written

/-- A call moves on without touching the ring. -/
theorem Intact.setCall (intact : Intact cap top state) {id : Nat} {call : Call} (stored : UInt8)
    (written : ∀ event ∈ state.recorded, event.commit = id → call.progress.wrote = true)
    (holds : ∀ source event push, call.progress = .pushing source event push →
      event.commit = id ∧ PushHolds cap top state push) :
    Intact cap top { state.setCall id call with stored } where
  ahead := intact.ahead
  highest := intact.highest
  bounded := intact.bounded
  untaken := intact.untaken
  pushes other operation source event push waiting := by
    change Function.update state.calls id (some call) other = _ at waiting
    by_cases same : other = id
    · subst same
      rw [Function.update_self] at waiting
      cases waiting
      exact holds source event push rfl
    · rw [Function.update_of_ne same] at waiting
      exact intact.pushes other operation source event push waiting
  wrote event recorded := by
    change ∃ found, Function.update state.calls id (some call) event.commit = some found ∧ _
    by_cases same : event.commit = id
    · exact ⟨call, by rw [same, Function.update_self], written event recorded same⟩
    · rw [Function.update_of_ne same]
      exact intact.wrote event recorded
  listed := intact.listed
  apart := intact.apart
  taken := intact.taken
  once := intact.once
  atHead := intact.atHead

/-- A call that has not written its record moves on. -/
theorem Intact.advance (intact : Intact cap top state) {id : Nat} {before call : Call}
    (waiting : state.calls id = some before) (unwritten : before.progress.wrote = false)
    (stored : UInt8)
    (holds : ∀ source event push, call.progress = .pushing source event push →
      event.commit = id ∧ PushHolds cap top state push) :
    Intact cap top { state.setCall id call with stored } := by
  apply intact.setCall stored
  · intro event recorded own
    refine absurd own (intact.unrecorded ?_ recorded)
    intro found present
    cases waiting.symm.trans present
    exact unwritten
  · exact holds

/-- The observer moves on without reading. -/
theorem Intact.observe (intact : Intact cap top state) {observer : Observer} {head : Nat}
    {drained : List (Option Event)} (forward : state.head ≤ head)
    (ahead : State.claimed { state with observer, head, drained } ≤ state.tail)
    (unread : State.unread { state with observer, head, drained } = state.unread)
    (taken : State.taken { state with observer, head, drained } = state.taken)
    (atHead : State.AtHead { state with observer, head, drained }) :
    Intact cap top { state with observer, head, drained } := by
  have untaken : ∀ p, State.Untaken cap { state with observer, head, drained } p ↔
      state.Untaken cap p := by
    intro p
    unfold State.Untaken
    rw [taken]
  have bounded := intact.bounded
  constructor
  · exact ahead
  · exact intact.highest
  · change top ≤ head + cap
    omega
  · intro p above below
    rw [unread] at above
    exact (untaken p).mpr (intact.untaken p above below)
  · intro id operation source event push waiting
    obtain ⟨same, holds⟩ := intact.pushes id operation source event push waiting
    exact ⟨same, holds.mono (Nat.le_refl _) forward fun _ => (untaken top).mpr⟩
  · exact intact.wrote
  · exact intact.listed
  · exact intact.apart
  · rw [taken]
    exact intact.taken
  · rw [taken]
    exact intact.once
  · exact atHead

/-- The observer reads the record at its head. -/
theorem Intact.read (rounded : cap = 0 ∨ ∃ k ≤ 63, cap = 2 ^ k) (intact : Intact cap top state)
    {h : Nat} (stage : state.observer = .read h) :
    Intact cap top
      { state with observer := .storeHead h (state.slots (maskIndex cap h)) } := by
  have claimed : state.claimed = state.head + 1 := by simp [State.claimed, stage]
  have unread : state.unread = state.head := by simp [State.unread, stage]
  have drained : state.taken = state.drained := by simp [State.taken, stage]
  have here : h = state.head := by
    have position := intact.atHead
    simpa [State.AtHead, stage] using position
  have ahead := intact.ahead
  have highest := intact.highest
  have bounded := intact.bounded
  rw [claimed] at ahead
  obtain ⟨event, held, fresh⟩ := intact.untaken state.head (by omega) (by omega)
  rw [here, held]
  -- the record read sits in no other slot of the window
  have untaken : ∀ p, state.head < p → p < state.head + cap → state.Untaken cap p →
      State.Untaken cap { state with observer := .storeHead state.head (some event) } p := by
    rintro p above below ⟨other, held', fresh'⟩
    refine ⟨other, held', ?_⟩
    simp only [State.taken, List.mem_append, List.mem_singleton, not_or]
    rw [drained] at fresh'
    refine ⟨fresh', ?_⟩
    intro same
    cases same
    exact maskIndex_ne rounded above below (intact.apart _ _ event held held')
  constructor
  · change state.head + 1 ≤ state.tail
    exact ahead
  · exact highest
  · exact bounded
  · intro p above below
    change state.head + 1 ≤ p at above
    exact untaken p (by omega) (by omega) (intact.untaken p (by omega) below)
  · intro id operation source other push waiting
    obtain ⟨same, holds⟩ := intact.pushes id operation source other push waiting
    exact ⟨same, holds.mono (Nat.le_refl _) (Nat.le_refl _) (untaken top (by omega))⟩
  · exact intact.wrote
  · exact intact.listed
  · exact intact.apart
  · intro value listed
    simp only [State.taken, List.mem_append, List.mem_singleton] at listed
    rcases listed with earlier | rfl
    · rw [← drained] at earlier
      exact intact.taken value earlier
    · exact ⟨event, intact.listed _ event held, rfl⟩
  · simp only [State.taken]
    rw [← drained]
    exact List.Nodup.append intact.once (List.nodup_singleton _) (by simpa using fresh)
  · rfl

/-- A push writes its record, which is in no slot yet. -/
theorem Intact.write (intact : Intact cap top state) {id : Nat}
    {operation : Threads.Operation} {source : Mode} {event : Event} {t : Nat}
    (waiting : state.calls id = some ⟨operation, .pushing source event (.write t)⟩) :
    Intact cap top
      { state.setCall id ⟨operation, .pushing source event (.storeTail t)⟩ with
        slots := Function.update state.slots (maskIndex cap t) (some event)
        recorded := state.recorded ++ [event] } := by
  obtain ⟨own, before, near⟩ := intact.pushes id operation source event _ waiting
  have unwritten : ∀ call, state.calls id = some call → call.progress.wrote = false := by
    intro call present
    rw [waiting] at present
    cases present
    rfl
  have fresh : event ∉ state.recorded := fun recorded =>
    intact.unrecorded unwritten recorded own
  have untouched : some event ∉ state.taken := by
    intro listed
    obtain ⟨other, recorded, same⟩ := intact.taken _ listed
    cases same
    exact fresh recorded
  have slots : ∀ p, Function.update state.slots (maskIndex cap t) (some event) p =
      if p = maskIndex cap t then some event else state.slots p :=
    Function.update_apply state.slots _ _
  have written : ∀ p, maskIndex cap p = maskIndex cap t ∨ state.Untaken cap p →
      ∃ other, Function.update state.slots (maskIndex cap t) (some event) (maskIndex cap p) =
        some other ∧ some other ∉ state.taken := by
    intro p either
    by_cases same : maskIndex cap p = maskIndex cap t
    · exact ⟨event, by rw [same, Function.update_self], untouched⟩
    · obtain ⟨other, held, kept⟩ := either.resolve_left same
      exact ⟨other, by rw [Function.update_of_ne same, held], kept⟩
  constructor
  · exact intact.ahead
  · exact intact.highest
  · exact intact.bounded
  · intro p above below
    exact written p (.inr (intact.untaken p above below))
  · intro other operation' source' event' push waiting'
    change Function.update state.calls id _ other = _ at waiting'
    by_cases same : other = id
    · subst same
      rw [Function.update_self] at waiting'
      cases waiting'
      exact ⟨own, before, near, fun _ => written t (.inl rfl)⟩
    · rw [Function.update_of_ne same] at waiting'
      obtain ⟨owner, holds⟩ := intact.pushes other operation' source' event' push waiting'
      exact ⟨owner, holds.mono (Nat.le_refl _) (Nat.le_refl _) fun _ untaken =>
        written top (.inr untaken)⟩
  · intro other recorded
    change ∃ call, Function.update state.calls id _ other.commit = some call ∧ _
    by_cases same : other.commit = id
    · exact ⟨_, by rw [same, Function.update_self], rfl⟩
    · rw [Function.update_of_ne same]
      rcases List.mem_append.mp recorded with earlier | added
      · exact intact.wrote other earlier
      · obtain rfl := List.mem_singleton.mp added
        exact absurd own same
  · intro s other held
    change Function.update state.slots _ _ s = _ at held
    rw [slots] at held
    split at held
    · cases held
      exact List.mem_append_right _ List.mem_cons_self
    · exact List.mem_append_left _ (intact.listed s other held)
  · intro s s' other held held'
    change Function.update state.slots _ _ s = _ at held
    change Function.update state.slots _ _ s' = _ at held'
    rw [slots] at held held'
    split at held
    · rename_i here
      split at held'
      · rename_i here'
        exact here.trans here'.symm
      · cases held
        exact absurd (intact.listed s' _ held') fresh
    · split at held'
      · cases held'
        exact absurd (intact.listed s _ held) fresh
      · exact intact.apart s s' other held held'
  · intro value listed
    obtain ⟨other, recorded, same⟩ := intact.taken value listed
    exact ⟨other, List.mem_append_left _ recorded, same⟩
  · exact intact.once
  · exact intact.atHead

/-- A tail store that stays ahead of the observer. -/
theorem Intact.storeTail (intact : Intact cap top state) {id : Nat}
    {operation : Threads.Operation} {source : Mode} {event : Event} {t : Nat}
    (waiting : state.calls id = some ⟨operation, .pushing source event (.storeTail t)⟩)
    (ahead : state.claimed ≤ t + 1) :
    Intact cap (max top (t + 1))
      { state.setCall id ⟨operation, .mode (.returned (.ok source))⟩ with tail := t + 1 } := by
  obtain ⟨_, before, near, last⟩ := intact.pushes id operation source event _ waiting
  have bounded := intact.bounded
  constructor
  · exact ahead
  · exact Nat.le_max_right _ _
  · change max top (t + 1) ≤ state.head + cap
    omega
  · intro p above below
    by_cases under : p < top
    · exact intact.untaken p above under
    · have same : t = p := by omega
      subst same
      exact last (by omega)
  · intro other operation' source' event' push waiting'
    change Function.update state.calls id _ other = _ at waiting'
    by_cases same : other = id
    · subst same
      rw [Function.update_self] at waiting'
      cases waiting'
    · rw [Function.update_of_ne same] at waiting'
      obtain ⟨owner, holds⟩ := intact.pushes other operation' source' event' push waiting'
      exact ⟨owner, holds.mono (Nat.le_max_left _ _) (Nat.le_refl _) fun _ untaken =>
        untaken⟩
  · intro other recorded
    change ∃ call, Function.update state.calls id _ other.commit = some call ∧ _
    by_cases same : other.commit = id
    · exact ⟨_, by rw [same, Function.update_self], rfl⟩
    · rw [Function.update_of_ne same]
      exact intact.wrote other recorded
  · exact intact.listed
  · exact intact.apart
  · exact intact.taken
  · exact intact.once
  · exact intact.atHead

theorem lt_of_rounded (rounded : cap = 0 ∨ ∃ k ≤ 63, cap = 2 ^ k) : cap < 2 ^ 64 := by
  obtain zero | ⟨k, small, power⟩ := rounded
  · omega
  · rw [power]
    exact Nat.pow_lt_pow_right (by decide) (by omega)

/-- The check for room compares words, but passes only before the end of the lap. -/
theorem Intact.room (rounded : cap = 0 ∨ ∃ k ≤ 63, cap = 2 ^ k) (intact : Intact cap top state)
    {t : Nat} (behind : t ≤ top) (room : ¬cap ≤ (cursor t - cursor state.head).toNat) :
    t < state.head + cap := by
  have bounded := intact.bounded
  have limit := lt_of_rounded rounded
  by_cases before : t < state.head
  · omega
  · rw [toNat_cursor_sub (by omega) (by omega)] at room
    omega

/-- Every step that keeps the tail ahead of the observer keeps the log intact. -/
theorem Intact.step (rounded : cap = 0 ∨ ∃ k ≤ 63, cap = 2 ^ k) (intact : Intact cap top state)
    {action : Action} (keeps : keepsAhead state action = true)
    (does : Does cap state action target) : ∃ top, Intact cap top target := by
  cases does with
  | @call id operation fresh =>
      refine ⟨top, intact.setCall state.stored ?_ ?_⟩
      · intro event recorded own
        refine absurd own (intact.unrecorded ?_ recorded)
        intro call present
        rw [fresh] at present
        cases present
      · intro _ _ _ impossible
        cases impossible
  | @load id operation waiting =>
      refine ⟨top, intact.advance waiting rfl state.stored ?_⟩
      intro _ _ _ impossible
      cases impossible
  | @store id operation source atUnixNs waiting =>
      refine ⟨top, intact.advance waiting rfl operation.target.asU8 ?_⟩
      intro _ _ _ pushing
      cases pushing
      exact ⟨rfl, trivial⟩
  | @loadTail id operation source event waiting =>
      refine ⟨top, intact.advance waiting rfl state.stored ?_⟩
      intro _ _ _ pushing
      cases pushing
      exact ⟨(intact.pushes id operation source event _ waiting).1, intact.highest⟩
  | @full id operation source event t waiting =>
      refine ⟨top, intact.setCall state.stored (fun _ _ _ => rfl) ?_⟩
      intro _ _ _ impossible
      cases impossible
  | @room id operation source event t waiting room =>
      obtain ⟨owner, behind⟩ := intact.pushes id operation source event _ waiting
      refine ⟨top, intact.advance waiting rfl state.stored ?_⟩
      intro _ _ _ pushing
      cases pushing
      exact ⟨owner, behind, intact.room rounded behind room⟩
  | write waiting => exact ⟨top, intact.write waiting⟩
  | @storeTail id operation source event t waiting =>
      have ahead : state.claimed ≤ t + 1 := by
        simp only [keepsAhead, waiting] at keeps
        exact of_decide_eq_true keeps
      exact ⟨_, intact.storeTail waiting ahead⟩
  | take stage =>
      have ahead := intact.ahead
      refine ⟨top, intact.observe (Nat.le_refl _) ?_ ?_ ?_ trivial⟩
      · simpa [State.claimed, stage] using ahead
      · simp [State.unread, stage]
      · simp [State.taken, stage]
  | loadHead stage =>
      have ahead := intact.ahead
      refine ⟨top, intact.observe (Nat.le_refl _) ?_ ?_ ?_ rfl⟩
      · simpa [State.claimed, stage] using ahead
      · simp [State.unread, stage]
      · simp [State.taken, stage]
  | empty stage _ =>
      have ahead := intact.ahead
      refine ⟨top, intact.observe (Nat.le_refl _) ?_ ?_ ?_ trivial⟩
      · simpa [State.claimed, stage] using ahead
      · simp [State.unread, stage]
      · simp [State.taken, stage]
  | @occupied h stage occupied =>
      have ahead := intact.ahead
      have position := intact.atHead
      simp only [State.claimed, stage] at ahead
      simp only [State.AtHead, stage] at position
      refine ⟨top, intact.observe (Nat.le_refl _) ?_ ?_ ?_ position⟩
      · -- the words differ, so the tail is beyond the head
        change state.head + 1 ≤ state.tail
        have different : h ≠ state.tail := fun same => occupied (congrArg cursor same)
        omega
      · simp [State.unread, stage]
      · simp [State.taken, stage]
  | read stage => exact ⟨top, intact.read rounded stage⟩
  | @storeHead h value stage =>
      have ahead := intact.ahead
      have position := intact.atHead
      simp only [State.claimed, stage] at ahead
      simp only [State.AtHead, stage] at position
      refine ⟨top, intact.observe (by omega) ?_ ?_ ?_ trivial⟩
      · change h + 1 ≤ state.tail
        omega
      · simp [State.unread, stage, position]
      · simp [State.taken, stage]

theorem intact_of_reachable (rounded : cap = 0 ∨ ∃ k ≤ 63, cap = 2 ^ k)
    (reached : ((system cap).restrict fun state action =>
      keepsAhead state action = true).Reachable state) : ∃ top, Intact cap top state := by
  apply reached.invariant (P := fun state => ∃ top, Intact cap top state)
  · rintro _ rfl
    exact ⟨0, start_intact cap⟩
  · rintro state action target ⟨top, intact⟩ ⟨keeps, stepped⟩
    exact intact.step rounded keeps (does_of_next stepped)

end Steps

section Returns

variable {cap : Nat} {state target : State}

/-- Left alone, the observer returns from `take_transitions` after some number of accesses. -/
def Returns (cap : Nat) (state : State) : Prop :=
  ∃ n final, TransitionSystem.perform (next cap) state (List.replicate n .observe) = some final ∧
    final.observer = .idle

theorem Returns.of_step (stepped : next cap state .observe = some target)
    (returns : Returns cap target) : Returns cap state := by
  obtain ⟨n, final, performed, idle⟩ := returns
  exact ⟨n + 1, final, (TransitionSystem.perform_cons stepped _).trans performed, idle⟩

/-- With `n` records ahead it goes round the loop `n` times. -/
theorem returns_of_loadHead (n : Nat) (small : n < 2 ^ 64) (stage : state.observer = .loadHead)
    (distance : state.tail = state.head + n) : Returns cap state := by
  induction n generalizing state with
  | zero =>
      have first : next cap state .observe =
          some { state with observer := .loadTail state.head } := by
        simp [next, observerStep, stage]
      have second : next cap { state with observer := .loadTail state.head } .observe =
          some { state with observer := .idle } := by
        have same : cursor state.head = cursor state.tail := by rw [distance, Nat.add_zero]
        simp [next, observerStep, same]
      exact .of_step first (.of_step second ⟨0, _, rfl, rfl⟩)
  | succ n inductionHypothesis =>
      have different : cursor state.head ≠ cursor state.tail := by
        intro same
        have equal := cursor_inj (by omega) (by omega) same.symm
        omega
      have first : next cap state .observe =
          some { state with observer := .loadTail state.head } := by
        simp [next, observerStep, stage]
      have second : next cap { state with observer := .loadTail state.head } .observe =
          some { state with observer := .read state.head } := by
        simp [next, observerStep, different]
      refine .of_step first (.of_step second (.of_step rfl (.of_step rfl ?_)))
      apply inductionHypothesis (by omega) rfl
      change state.tail = state.head + 1 + n
      omega

theorem returns_of_storeHead {h : Nat} {value : Option Event} (n : Nat) (small : n < 2 ^ 64)
    (stage : state.observer = .storeHead h value) (distance : state.tail = h + 1 + n) :
    Returns cap state := by
  have step : next cap state .observe = some { state with
      head := h + 1
      observer := .loadHead
      drained := state.drained ++ [value] } := by
    simp [next, observerStep, stage]
  exact .of_step step (returns_of_loadHead n small rfl distance)

theorem returns_of_read {h : Nat} (n : Nat) (small : n < 2 ^ 64)
    (stage : state.observer = .read h) (distance : state.tail = h + 1 + n) :
    Returns cap state := by
  have step : next cap state .observe =
      some { state with observer := .storeHead h (state.slots (maskIndex cap h)) } := by
    simp [next, observerStep, stage]
  exact .of_step step (returns_of_storeHead n small rfl distance)

theorem Intact.returns {top : Nat} (rounded : cap = 0 ∨ ∃ k ≤ 63, cap = 2 ^ k)
    (intact : Intact cap top state) : Returns cap state := by
  have ahead := intact.ahead
  have highest := intact.highest
  have bounded := intact.bounded
  have position := intact.atHead
  have limit := lt_of_rounded rounded
  cases stage : state.observer with
  | idle => exact ⟨0, state, rfl, stage⟩
  | loadHead =>
      simp only [State.claimed, stage] at ahead
      exact returns_of_loadHead (state.tail - state.head) (by omega) stage (by omega)
  | loadTail h =>
      simp only [State.claimed, stage] at ahead
      simp only [State.AtHead, stage] at position
      by_cases same : cursor h = cursor state.tail
      · have step : next cap state .observe = some { state with observer := .idle } := by
          simp [next, observerStep, stage, same]
        exact .of_step step ⟨0, _, rfl, rfl⟩
      · have step : next cap state .observe = some { state with observer := .read h } := by
          simp [next, observerStep, stage, same]
        have different : h ≠ state.tail := fun equal => same (congrArg cursor equal)
        refine .of_step step ?_
        exact returns_of_read (state.tail - (h + 1)) (by omega) rfl
          (show state.tail = h + 1 + (state.tail - (h + 1)) by omega)
  | read h =>
      simp only [State.claimed, stage] at ahead
      simp only [State.AtHead, stage] at position
      exact returns_of_read (state.tail - (h + 1)) (by omega) stage (by omega)
  | storeHead h value =>
      simp only [State.claimed, stage] at ahead
      simp only [State.AtHead, stage] at position
      exact returns_of_storeHead (state.tail - (h + 1)) (by omega) stage (by omega)

end Returns

/-- What an observer may rely on: each record it drained was recorded by a commit, none was
drained twice, and left alone it returns. -/
structure Sound (cap : Nat) (state : State) : Prop where
  recorded : ∀ value ∈ state.drained, ∃ event ∈ state.recorded, value = some event
  once : state.drained.Nodup
  returns : Returns cap state

theorem Intact.sound {cap top : Nat} {state : State}
    (rounded : cap = 0 ∨ ∃ k ≤ 63, cap = 2 ^ k) (intact : Intact cap top state) :
    Sound cap state := by
  have among : state.drained.Sublist state.taken := by
    unfold State.taken
    split
    · exact List.Sublist.refl _
    · exact List.Sublist.refl _
    · exact List.Sublist.refl _
    · exact List.Sublist.refl _
    · exact List.sublist_append_left _ _
  constructor
  · intro value drained
    exact intact.taken value (among.subset drained)
  · exact intact.once.sublist among
  · exact intact.returns rounded

/-- In every run of any number of calls and one observer in which no tail store puts the tail
behind the observer, the log is sound in every state. -/
theorem sound_of_keepsAhead (eventCapacity : Nat) (state : State)
    (reached : ((system (ringCap eventCapacity)).restrict fun state action =>
      keepsAhead state action = true).Reachable state) : Sound (ringCap eventCapacity) state := by
  have rounded := Ring.Threads.rounded_withCapacity eventCapacity
  obtain ⟨top, intact⟩ := intact_of_reachable rounded reached
  exact intact.sound rounded

/-- Two stops that load the mode before either is stored. -/
def twoStops : List Action :=
  [.call 0 .forceEmergencyStop, .call 1 .forceEmergencyStop, .load 0, .load 1,
    .store 0 10, .store 1 11]

/-- A push from its first access to its tail store. -/
def wholePush (id : Nat) : List Action := List.replicate 4 (.push id)

/-- Both commits load the same tail, and the second overwrites the record of the first. -/
def overlapping : Option State :=
  TransitionSystem.perform
    (fun state action => if keepsAhead state action = true then next (ringCap 2) state action
      else none) start
    (twoStops ++ [.push 0, .push 1, .push 0, .push 1, .push 0, .push 1, .push 0, .push 1] ++
      .take :: List.replicate 6 .observe)

theorem overlapping_sound :
    ∃ state, overlapping = some state ∧ state.drained.length = 1 ∧ Sound (ringCap 2) state := by
  obtain ⟨state, performed⟩ := Option.isSome_iff_exists.mp (show overlapping.isSome by decide)
  have one : overlapping.map (·.drained.length) = some 1 := by decide
  rw [performed] at one
  have reached : ((system (ringCap 2)).restrict fun state action =>
      keepsAhead state action = true).Reachable state :=
    TransitionSystem.reachable_restrict_of_perform rfl performed
  exact ⟨state, performed, Option.some.inj one, sound_of_keepsAhead 2 state reached⟩

/-- Commit 0 has loaded the cursors and stops before its write; commits 1 and 2 push their
records and the observer drains both; then commit 0 writes and stores its old tail. -/
def delayed : Option State :=
  TransitionSystem.perform (next (ringCap 2)) start
    ([.call 2 .forceEmergencyStop, .load 2] ++ twoStops ++ [.store 2 12, .push 0, .push 0] ++
      wholePush 1 ++ wholePush 2 ++ .take :: List.replicate 10 .observe ++
      [.push 0, .push 0, .take] ++ List.replicate 8 .observe)

/-- The observer drains the record of commit 2 twice. -/
theorem delayed_drains_twice :
    ∃ state, (system (ringCap 2)).Reachable state ∧ ¬state.drained.Nodup ∧
      ¬Sound (ringCap 2) state := by
  obtain ⟨state, performed⟩ := Option.isSome_iff_exists.mp (show delayed.isSome by decide)
  have twice : delayed.map (fun state => decide state.drained.Nodup) = some false := by decide
  rw [performed] at twice
  have reached : (system (ringCap 2)).Reachable state :=
    TransitionSystem.reachable_of_perform rfl performed
  have repeated : ¬state.drained.Nodup := of_decide_eq_false (Option.some.inj twice)
  exact ⟨state, reached, repeated, fun sound => repeated sound.once⟩

end Teleop.Core.EventLog
