import Teleop.Link.SelectiveRepeat

/-!
# Recovery after losses

Whatever the network did before, one round without loss moves the receiver on by a full reorder
window: the timer fires, what it emits arrives in any order, and the acknowledgement of what was
drained comes back.  The sender has to leave one number of its window unused, since an
acknowledgement of a whole window moves nothing.
-/

namespace Teleop.Link.SelectiveRepeat

open Teleop.Lib

/-- The application leaves the last number of the window unused. -/
def LeavesRoom (state : Exchange) : Action → Prop
  | .send number _ _ => number + 1 < state.txBase + state.tx.window
  | _ => True

def careful : TransitionSystem Exchange Action := system.restrict LeavesRoom

/-- The history only grows. -/
structure Extends (earlier later : Exchange) : Prop where
  window_eq : later.tx.window = earlier.tx.window
  txBase_le : earlier.txBase ≤ later.txBase
  rxNext_le : earlier.rxNext ≤ later.rxNext
  accepted : ∀ n, (earlier.accepted n).isSome → (later.accepted n).isSome
  filled : ∀ n stored, earlier.filled n = some stored → later.filled n = some stored
  frames : earlier.frames <+: later.frames
  acks : earlier.acks <+: later.acks

theorem Extends.refl (state : Exchange) : Extends state state :=
  ⟨rfl, Nat.le_refl _, Nat.le_refl _, fun _ => id, fun _ _ => id, List.prefix_rfl, List.prefix_rfl⟩

theorem Extends.trans {first second third : Exchange} (left : Extends first second)
    (right : Extends second third) : Extends first third where
  window_eq := right.window_eq.trans left.window_eq
  txBase_le := Nat.le_trans left.txBase_le right.txBase_le
  rxNext_le := Nat.le_trans left.rxNext_le right.rxNext_le
  accepted n held := right.accepted n (left.accepted n held)
  filled n stored kept := right.filled n stored (left.filled n stored kept)
  frames := left.frames.trans right.frames
  acks := left.acks.trans right.acks

/-- A sound exchange whose sender has left room. -/
structure Roomy (state : Exchange) : Prop extends Sound state where
  room : ∀ n, (state.offered n).isSome → n + 1 < state.txBase + state.tx.window

theorem getElem?_of_prefix {α : Type} {earlier later : List α} {i : Nat} {value : α}
    (grown : earlier <+: later) (found : earlier[i]? = some value) : later[i]? = some value := by
  obtain ⟨inside, rfl⟩ := List.getElem?_eq_some_iff.mp found
  exact List.prefix_iff_getElem?.mp grown i inside

section Steps

variable {state target : Exchange}

theorem window_send (tx : ReliableTx) (seq : UInt32) (payload : Payload) (nowNs : UInt64) :
    (tx.send seq payload nowNs).1.window = tx.window := by
  rcases tx.send_cases seq payload nowNs with refused | ⟨_, _, filled⟩
  · rw [refused]
  · rw [filled]
    rfl

/-- No `send` replaces what is stored for a number. -/
theorem extends_send (sound : Sound state) {number : Nat} {payload : Payload} {nowNs : UInt64}
    (stepped : next state (.send number payload nowNs) = some target) : Extends state target := by
  simp only [next] at stepped
  split at stepped
  · rename_i may
    cases stepped
    refine { Extends.refl state with
      window_eq := window_send _ _ _ _
      filled := ?_
      frames := List.prefix_append _ _ }
    intro n stored kept
    have other : n ≠ number := by
      rintro rfl
      obtain ⟨present, -⟩ := sound.retains.stored n stored.1 stored.2 kept
      rcases may.1 with unsent | ⟨-, unfilled⟩
      · rw [unsent] at present
        cases present
      · rw [unfilled] at kept
        cases kept
    cases (state.tx.send (serial number) payload nowNs).2 with
    | ok _ => exact (Function.update_of_ne other ..).trans kept
    | error _ => exact kept
  · cases stepped

theorem extends_deliverFrame {position : Nat}
    (stepped : next state (.deliverFrame position) = some target) : Extends state target := by
  obtain ⟨frame, -, stepped⟩ := Option.bind_eq_some_iff.mp stepped
  dsimp only at stepped
  split at stepped
  · cases stepped
    refine { Extends.refl state with accepted := ?_ }
    intro n held
    dsimp only
    split
    · by_cases same : n = frame.number
      · rw [same, Function.update_self]
        rfl
      · rw [Function.update_of_ne same]
        exact held
    · exact held
  · cases stepped

theorem extends_deliverAck {position : Nat} {nowNs : UInt64}
    (stepped : next state (.deliverAck position nowNs) = some target) : Extends state target := by
  obtain ⟨ack, -, stepped⟩ := Option.bind_eq_some_iff.mp stepped
  dsimp only at stepped
  split at stepped
  · cases stepped
    exact { Extends.refl state with
      window_eq := congrArg (· + 1) (ReliableTx.onAck_mask _ _ _)
      txBase_le := Nat.le_add_right _ _ }
  · cases stepped

theorem extends_of_step (sound : Sound state) {action : Action}
    (stepped : next state action = some target) : Extends state target := by
  cases action with
  | send number payload nowNs => exact extends_send sound stepped
  | tick nowNs rtoNs =>
      cases stepped
      exact { Extends.refl state with
        window_eq := rfl
        frames := List.prefix_append _ _ }
  | deliverFrame position => exact extends_deliverFrame stepped
  | drain =>
      cases stepped
      exact { Extends.refl state with rxNext_le := Nat.le_add_right _ _ }
  | buildAck rttSampleNs =>
      cases stepped
      exact { Extends.refl state with acks := List.prefix_append _ _ }
  | deliverAck position nowNs => exact extends_deliverAck stepped

theorem sound_of_step (sound : Sound state) {action : Action}
    (stepped : next state action = some target) : Sound target := by
  cases action with
  | send number payload nowNs => exact send_sound sound stepped
  | tick nowNs rtoNs => exact tick_sound sound stepped
  | deliverFrame position => exact deliverFrame_sound sound stepped
  | drain => exact drain_sound sound stepped
  | buildAck rttSampleNs => exact buildAck_sound sound stepped
  | deliverAck position nowNs => exact deliverAck_sound sound stepped

/-- Only `send` offers a number. -/
theorem offered_of_step {action : Action} (stepped : next state action = some target) {n : Nat}
    (present : (target.offered n).isSome) :
    (state.offered n).isSome ∨ ∃ payload nowNs, action = .send n payload nowNs := by
  cases action with
  | send number payload nowNs =>
      simp only [next] at stepped
      split at stepped
      · cases stepped
        by_cases same : n = number
        · exact .inr ⟨payload, nowNs, by rw [same]⟩
        · dsimp only at present
          rw [Function.update_of_ne same] at present
          exact .inl present
      · cases stepped
  | tick | drain | buildAck =>
      cases stepped
      exact .inl present
  | deliverFrame | deliverAck =>
      obtain ⟨_, -, stepped⟩ := Option.bind_eq_some_iff.mp stepped
      dsimp only at stepped
      split at stepped
      · cases stepped
        exact .inl present
      · cases stepped

theorem Roomy.step (roomy : Roomy state) {action : Action}
    (stepped : next state action = some target) (leaves : LeavesRoom state action) :
    Roomy target := by
  have extended := extends_of_step roomy.toSound stepped
  refine ⟨sound_of_step roomy.toSound stepped, ?_⟩
  intro n present
  have inside : n + 1 < state.txBase + state.tx.window := by
    rcases offered_of_step stepped present with earlier | ⟨_, _, rfl⟩
    · exact roomy.room n earlier
    · exact leaves
  rw [extended.window_eq]
  exact Nat.lt_of_lt_of_le inside (Nat.add_le_add_right extended.txBase_le _)

/-- The receiver never expects a number beyond the window. -/
theorem Roomy.rxNext_lt (roomy : Roomy state) :
    state.rxNext < state.txBase + state.tx.window := by
  cases expected : state.rxNext with
  | zero => exact Nat.add_pos_right _ (Nat.succ_pos _)
  | succ last =>
      apply roomy.room last
      obtain ⟨payload, held⟩ := Option.isSome_iff_exists.mp
        (roomy.tracks.before last (by omega))
      rw [roomy.owned last payload held]
      rfl

/-- A frame that arrives within the reorder window has been taken, now or before. -/
theorem accepted_of_deliverFrame (sound : Sound state) {position : Nat} {frame : Frame}
    (found : state.frames[position]? = some frame)
    (near : frame.number < state.rxNext + sackBits)
    (stepped : next state (.deliverFrame position) = some target) :
    (target.accepted frame.number).isSome := by
  obtain ⟨seq_eq, present⟩ := sound.frames frame (List.mem_of_getElem? found)
  simp only [next, found, Option.bind_some] at stepped
  split at stepped
  · rename_i notStale
    have ahead := sound.retains.near_of_some present
    have base_le := sound.base_le
    have outcome := sound.tracks.accept frame.payload (n := frame.number) (by omega) (by omega)
    rw [ofInt_natCast, ← seq_eq] at outcome
    cases stepped
    rcases outcome with ⟨refused, -, held⟩ | ⟨taken, -⟩
    · rw [refused]
      exact held frame.number rfl near
    · rw [taken]
      simp
  · cases stepped

end Steps

section Runs

variable {state target : Exchange}

theorem extends_of_execution (roomy : Roomy state) {actions : List Action}
    (execution : careful.Execution state actions target) :
    Extends state target ∧ Roomy target := by
  induction execution with
  | nil state => exact ⟨.refl state, roomy⟩
  | cons stepped _ inductionHypothesis =>
      obtain ⟨leaves, moved⟩ := stepped
      obtain ⟨extended, kept⟩ := inductionHypothesis (roomy.step moved leaves)
      exact ⟨(extends_of_step roomy.toSound moved).trans extended, kept⟩

/-- A frame that is delivered at some point of a run, and lay within the reorder window at its
start, has been taken at its end. -/
theorem accepted_of_delivered (roomy : Roomy state) {actions : List Action}
    (execution : careful.Execution state actions target) {position : Nat} {frame : Frame}
    (found : state.frames[position]? = some frame)
    (near : frame.number < state.rxNext + sackBits)
    (delivered : .deliverFrame position ∈ actions) :
    (target.accepted frame.number).isSome := by
  induction execution with
  | nil state => cases delivered
  | cons stepped rest inductionHypothesis =>
      obtain ⟨leaves, moved⟩ := stepped
      have extended := extends_of_step roomy.toSound moved
      have kept := roomy.step moved leaves
      rcases List.mem_cons.mp delivered with rfl | later
      · have taken := accepted_of_deliverFrame roomy.toSound found near moved
        exact (extends_of_execution kept rest).1.accepted _ taken
      · apply inductionHypothesis kept
        · exact getElem?_of_prefix extended.frames found
        · exact Nat.lt_of_lt_of_le near (Nat.add_le_add_right extended.rxNext_le _)
        · exact later

/-- Every number below `m` was stored, with something in it and not at time 0. -/
def Stored (state : Exchange) (m : Nat) : Prop :=
  ∀ n < m, ∃ payload firstNs, state.filled n = some (payload, firstNs) ∧ payload.val ≠ [] ∧
    firstNs ≠ 0

theorem Stored.mono {m : Nat} (stored : Stored state m) (extended : Extends state target) :
    Stored target m := by
  intro n below
  obtain ⟨payload, firstNs, filled, content⟩ := stored n below
  exact ⟨payload, firstNs, extended.filled n _ filled, content⟩

/-- The clock is a timeout past the last transmission of every retained frame. -/
def Late (state : Exchange) (nowNs rtoNs : UInt64) : Prop :=
  ∀ i, 0 < (state.tx.slots i).len →
    (state.tx.slots i).lastNs.toNat + rtoNs.toNat ≤ nowNs.toNat

/-- A late tick emits each stored number that the receiver has not taken. -/
theorem emits_of_late (sound : Sound state) {nowNs rtoNs : UInt64}
    (late : Late state nowNs rtoNs) {n : Nat} {payload : Payload} {firstNs : UInt64}
    (filled : state.filled n = some (payload, firstNs)) (nonempty : payload.val ≠ [])
    (timed : firstNs ≠ 0) (missing : state.accepted n = none)
    (stepped : next state (.tick nowNs rtoNs) = some target) :
    ∃ position frame, state.frames.length ≤ position ∧ position < target.frames.length ∧
      target.frames[position]? = some frame ∧ frame.number = n := by
  obtain ⟨present, ⟨above, inside, retained⟩ | taken⟩ :=
    sound.retains.stored n payload firstNs filled
  · have near := sound.retains.near_of_some present
    let home := state.tx.index (serial n)
    have live : (state.tx.slots home).len ≠ 0 := by
      unfold TxSlot.len
      rw [retained.payload_eq]
      exact mt List.length_eq_zero_iff.mp nonempty
    have due : ReliableTx.overdue nowNs rtoNs (state.tx.slots home) = true := by
      apply decide_eq_true
      refine ⟨live, ?_, ?_⟩
      · rw [retained.firstNs_eq]
        exact timed
      · rw [ge_iff_le, UInt64.le_iff_toNat_le, toNat_saturatingSub]
        have := late home (Nat.pos_of_ne_zero live)
        omega
    have sent : (serial n, payload) ∈ (state.tx.tick nowNs rtoNs).2 := by
      refine List.mem_map.mpr ⟨home, List.mem_filter.mpr ⟨List.mem_finRange _, due⟩, ?_⟩
      rw [retained.seq_eq, retained.payload_eq]
    have number : (state.resent (serial n, payload)).number = n := by
      unfold Exchange.resent
      dsimp only
      rw [sound.retains.oldest_eq, toNat_serial_sub above (by omega)]
      omega
    obtain ⟨j, emitted⟩ := List.mem_iff_getElem?.mp (List.mem_map_of_mem (f := state.resent) sent)
    cases stepped
    refine ⟨state.frames.length + j, _, Nat.le_add_right _ _, ?_, ?_, number⟩
    · rw [List.length_append]
      exact Nat.add_lt_add_left (List.getElem?_eq_some_iff.mp emitted).1 _
    · rw [List.getElem?_append_right (Nat.le_add_right _ _), Nat.add_sub_cancel_left]
      exact emitted
  · rw [missing] at taken
    cases taken

end Runs

/-- A round without loss: the timer fires late enough, everything it emits is delivered at some
point, then the receiver drains and acknowledges, and that acknowledgement is delivered at some
point.  Whatever else happens meanwhile, losses, repetitions and new sends included. -/
inductive Round (rtoNs : UInt64) : Exchange → Exchange → Prop
  | intro {source ticked delivered drained built returned target : Exchange}
      {deliveries returns : List Action} {nowNs rttSampleNs ackNs : UInt64} :
      Late source nowNs rtoNs →
      next source (.tick nowNs rtoNs) = some ticked →
      careful.Execution ticked deliveries delivered →
      (∀ position, source.frames.length ≤ position → position < ticked.frames.length →
        .deliverFrame position ∈ deliveries) →
      next delivered .drain = some drained →
      next drained (.buildAck rttSampleNs) = some built →
      careful.Execution built returns returned →
      next returned (.deliverAck drained.acks.length ackNs) = some target →
      Round rtoNs source target

/-- A number of such rounds, with anything in between. -/
inductive Rounds (rtoNs : UInt64) : Nat → Exchange → Exchange → Prop
  | none (state : Exchange) : Rounds rtoNs 0 state state
  | more {count : Nat} {source between start target : Exchange} {actions : List Action} :
      Rounds rtoNs count source between → careful.Execution between actions start →
      Round rtoNs start target → Rounds rtoNs (count + 1) source target

section Rounds

variable {source target : Exchange} {rtoNs : UInt64} {m : Nat}

/-- What a drain leaves is the first number that was not taken. -/
theorem le_rxNext_of_drain (sound : Sound source) {bound : Nat}
    (taken : ∀ n < bound, (source.accepted n).isSome) (stepped : next source .drain = some target) :
    bound ≤ target.rxNext := by
  obtain ⟨-, -, missing⟩ := sound.tracks.drain
  have moved : target.rxNext = source.rxNext + source.rx.drain.2.length := by
    cases stepped
    rfl
  rw [← moved] at missing
  by_contra short
  have held := taken _ (Nat.lt_of_not_le short)
  rw [missing] at held
  cases held

/-- An acknowledgement whose base lies inside the window moves the sender up to it. -/
theorem le_txBase_of_deliverAck (roomy : Roomy source) (narrow : source.tx.window < 2 ^ 32)
    {position : Nat} {ackNs : UInt64} {ack : Ack} (found : source.acks[position]? = some ack)
    (stepped : next source (.deliverAck position ackNs) = some target) :
    ack.number ≤ target.txBase := by
  have expected := roomy.rxNext_lt
  obtain ⟨base_eq, bound, -⟩ := roomy.acks ack (List.mem_of_getElem? found)
  simp only [next, found, Option.bind_some] at stepped
  split at stepped
  · cases stepped
    dsimp only
    by_cases ahead : source.txBase ≤ ack.number
    · rcases source.tx.window32_cases with ⟨small, equal⟩ | ⟨large, -⟩
      · have distance : (ack.frame.baseSeq - source.tx.oldest).toNat =
            ack.number - source.txBase := by
          rw [base_eq, roomy.retains.oldest_eq, toNat_serial_sub ahead (by omega)]
        have inside : ack.frame.baseSeq - source.tx.oldest < source.tx.window32 := by
          rw [UInt32.lt_iff_toNat_lt, distance, equal]
          omega
        rw [ReliableTx.onAck_oldest_of_inside (.inr inside), distance]
        omega
      · exact absurd narrow (Nat.not_lt.mpr large)
    · omega
  · cases stepped

/-- A round moves receiver and sender on by a reorder window, or past everything stored. -/
theorem Round.progress (round : Round rtoNs source target) (roomy : Roomy source)
    (narrow : source.tx.window < 2 ^ 32) (stored : Stored source m) :
    Extends source target ∧ Roomy target ∧
      min m (source.rxNext + sackBits) ≤ target.rxNext ∧
      min m (source.rxNext + sackBits) ≤ target.txBase := by
  cases round with
  | @intro ticked delivered drained built returned _ deliveries returns nowNs rttSampleNs ackNs
      late tick delivering complete drain build returning acknowledge =>
      have first := extends_of_step roomy.toSound tick
      have roomyTicked := roomy.step tick trivial
      obtain ⟨second, roomyDelivered⟩ := extends_of_execution roomyTicked delivering
      have third := extends_of_step roomyDelivered.toSound drain
      have roomyDrained := roomyDelivered.step drain trivial
      have fourth := extends_of_step roomyDrained.toSound build
      have roomyBuilt := roomyDrained.step build trivial
      obtain ⟨fifth, roomyReturned⟩ := extends_of_execution roomyBuilt returning
      have last := extends_of_step roomyReturned.toSound acknowledge
      have reached : min m (source.rxNext + sackBits) ≤ drained.rxNext := by
        apply le_rxNext_of_drain roomyDelivered.toSound _ drain
        intro n below
        cases held : source.accepted n with
        | some payload => exact (first.trans second).accepted n (by rw [held]; rfl)
        | none =>
            obtain ⟨payload, firstNs, filled, nonempty, timed⟩ := stored n (by omega)
            obtain ⟨position, frame, above, within, found, rfl⟩ :=
              emits_of_late roomy.toSound late filled nonempty timed held tick
            apply accepted_of_delivered roomyTicked delivering found
            · have := first.rxNext_le
              omega
            · exact complete position above within
      have found : returned.acks[drained.acks.length]? =
          some ⟨drained.rxNext, drained.rx.buildAck rttSampleNs⟩ := by
        apply getElem?_of_prefix fifth.acks
        cases build
        exact List.getElem?_concat_length
      have through := (third.trans fourth).trans fifth
      have narrowReturned : returned.tx.window < 2 ^ 32 := by
        rw [((first.trans second).trans through).window_eq]
        exact narrow
      have moved := le_txBase_of_deliverAck roomyReturned narrowReturned found acknowledge
      refine ⟨(((first.trans second).trans through).trans last), ?_, ?_, ?_⟩
      · exact roomyReturned.step acknowledge trivial
      · exact Nat.le_trans reached (((fourth.trans fifth).trans last).rxNext_le)
      · exact Nat.le_trans reached moved

theorem Rounds.progress {count : Nat} (rounds : Rounds rtoNs count source target)
    (roomy : Roomy source) (narrow : source.tx.window < 2 ^ 32) (stored : Stored source m) :
    Extends source target ∧ Roomy target ∧
      min m (source.rxNext + sackBits * count) ≤ target.rxNext ∧
      (count ≠ 0 → min m (source.rxNext + sackBits * count) ≤ target.txBase) := by
  induction rounds with
  | none state => exact ⟨.refl state, roomy, Nat.min_le_right _ _, fun some => absurd rfl some⟩
  | more _ between last inductionHypothesis =>
      obtain ⟨earlier, kept, before, -⟩ := inductionHypothesis roomy narrow stored
      obtain ⟨meanwhile, roomyStart⟩ := extends_of_execution kept between
      have through := earlier.trans meanwhile
      have narrowStart := through.window_eq ▸ narrow
      obtain ⟨final, roomyTarget, received, released⟩ :=
        last.progress roomyStart narrowStart (stored.mono through)
      have moved := meanwhile.rxNext_le
      refine ⟨through.trans final, roomyTarget, ?_, fun _ => ?_⟩
      · rw [Nat.mul_succ]
        omega
      · rw [Nat.mul_succ]
        omega

/-- Frames that are not stale can all be delivered, one after the other. -/
theorem exists_deliveries (roomy : Roomy source) {positions : List Nat}
    (fresh : ∀ position ∈ positions, ∃ frame, source.frames[position]? = some frame ∧
      source.rxNext ≤ frame.number + 2 ^ 31) :
    ∃ target, careful.Execution source (positions.map .deliverFrame) target := by
  induction positions generalizing source with
  | nil => exact ⟨source, .nil source⟩
  | cons position rest inductionHypothesis =>
      obtain ⟨⟨frame, found, notStale⟩, others⟩ := List.forall_mem_cons.mp fresh
      have stepped : ∃ middle, next source (.deliverFrame position) = some middle ∧
          middle.frames = source.frames ∧ middle.rxNext = source.rxNext := by
        simp only [next, found, Option.bind_some, if_pos notStale]
        exact ⟨_, rfl, rfl, rfl⟩
      obtain ⟨middle, moved, frames, rxNext⟩ := stepped
      rw [← frames, ← rxNext] at others
      obtain ⟨target, execution⟩ := inductionHypothesis (roomy.step moved trivial) others
      exact ⟨target, .cons ⟨trivial, moved⟩ execution⟩

/-- What a tick emits is not stale. -/
theorem fresh_of_tick (roomy : Roomy source) (narrow : source.tx.window < 2 ^ 32)
    (nowNs rtoNs : UInt64) :
    ∃ ticked, next source (.tick nowNs rtoNs) = some ticked ∧
      ∀ position, source.frames.length ≤ position → position < ticked.frames.length →
        ∃ frame, ticked.frames[position]? = some frame ∧
          ticked.rxNext ≤ frame.number + 2 ^ 31 := by
  refine ⟨_, rfl, ?_⟩
  intro position above within
  dsimp only at within ⊢
  have expected := roomy.rxNext_lt
  have small : source.tx.window ≤ 2 ^ 31 := by
    rcases source.tx.window32_cases with ⟨small, -⟩ | ⟨large, -⟩
    · exact small
    · exact absurd narrow (Nat.not_lt.mpr large)
  have listed := List.getElem?_eq_getElem within
  rw [List.getElem_append_right above] at listed
  refine ⟨_, listed, ?_⟩
  rw [List.getElem_map]
  unfold Exchange.resent
  dsimp only
  omega

/-- Such a round is always possible: nothing that it delivers is stale. -/
theorem exists_round (roomy : Roomy source) (narrow : source.tx.window < 2 ^ 32) {nowNs : UInt64}
    (late : Late source nowNs rtoNs) : ∃ target, Round rtoNs source target := by
  obtain ⟨ticked, tick, fresh⟩ := fresh_of_tick roomy narrow nowNs rtoNs
  have roomyTicked := roomy.step tick trivial
  let positions := List.range' source.frames.length (ticked.frames.length - source.frames.length)
  have listed (position : Nat) : position ∈ positions ↔
      source.frames.length ≤ position ∧ position < ticked.frames.length := by
    rw [List.mem_range'_1]
    omega
  have due : ∀ position ∈ positions, ∃ frame, ticked.frames[position]? = some frame ∧
      ticked.rxNext ≤ frame.number + 2 ^ 31 := by
    intro position among
    obtain ⟨above, within⟩ := (listed position).mp among
    exact fresh position above within
  obtain ⟨delivered, delivering⟩ := exists_deliveries roomyTicked due
  have roomyDelivered := (extends_of_execution roomyTicked delivering).2
  obtain ⟨drained, drain⟩ : ∃ drained, next delivered .drain = some drained := ⟨_, rfl⟩
  have base_le := (roomyDelivered.step drain trivial).base_le
  obtain ⟨built, build, txBase, found⟩ : ∃ built, next drained (.buildAck 0) = some built ∧
      built.txBase = drained.txBase ∧
      built.acks[drained.acks.length]? = some ⟨drained.rxNext, drained.rx.buildAck 0⟩ :=
    ⟨_, rfl, rfl, List.getElem?_concat_length⟩
  have notStale : built.txBase ≤ drained.rxNext + 2 ^ 31 := by omega
  obtain ⟨target, acknowledge⟩ :
      ∃ target, next built (.deliverAck drained.acks.length nowNs) = some target := by
    simp only [next, found, Option.bind_some, if_pos notStale]
    exact ⟨_, rfl⟩
  refine ⟨target, .intro late tick delivering ?_ drain build (.nil built) acknowledge⟩
  intro position above within
  exact List.mem_map_of_mem ((listed position).mpr ⟨above, within⟩)

end Rounds

end Teleop.Link.SelectiveRepeat
