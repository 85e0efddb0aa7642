import Teleop.Link.AckCoverage

/-!
# Frames are retransmitted until they are acknowledged

A frame is followed from the `send` that accepted it, through every call that does not free
it.  Its slot keeps its number, its payload and its first transmission time; the timer only
moves its last transmission time.  Empty payloads and transmissions at time 0 write the
values that mark a free slot, and are lost.
-/

namespace Teleop.Link.ReliableTx

open Teleop.Lib

instance carriesDecidable (tx : ReliableTx) (seq : UInt32) : Decidable (tx.Carries seq) :=
  inferInstanceAs (Decidable (0 < (tx.slotAt seq).len ∧ (tx.slotAt seq).seq = seq))

/-- The call is an acknowledgement that frees the frame numbered `seq`. -/
def freedBy (tx : ReliableTx) (seq : UInt32) : Call → Bool
  | .onAck ack nowNs => decide (tx.Carries seq ∧ ¬(tx.onAck ack nowNs).1.Carries seq)
  | .send _ _ _ | .tick _ _ => false

/-- A sender with the time at which the followed frame was last transmitted. -/
structure Watched where
  tx : ReliableTx
  lastNs : UInt64

/-- One call, as long as it does not free the frame numbered `seq`; a `tick` that emits the
frame is a transmission of it. -/
def watch (seq : UInt32) (state : Watched) (call : Call) : Option Watched :=
  if state.tx.freedBy seq call then none
  else
    some {
      tx := (state.tx.perform call).1
      lastNs := match call with
        | .tick nowNs _ => if seq ∈ (state.tx.perform call).2 then nowNs else state.lastNs
        | .send _ _ _ | .onAck _ _ => state.lastNs }

/-- The runs from `sent` on in which no acknowledgement frees the frame numbered `seq`. -/
def unfreed (seq : UInt32) (sent : Watched) : TransitionSystem Watched Call :=
  .ofNext (· = sent) (watch seq)

/-- What is promised of an unacknowledged frame: it is counted as in flight, a repeated
`send` of its number is refused and changes nothing, and every `tick` that comes a timeout
after its last transmission emits it once, as it was sent. -/
structure Awaiting (state : Watched) (seq : UInt32) (payload : Payload) : Prop where
  counted : ∃ i, state.tx.counts i = true ∧ (state.tx.slots i).seq = seq ∧
    (state.tx.slots i).payload = payload
  refused : ∀ (other : Payload) (nowNs : UInt64),
    state.tx.send seq other nowNs = (state.tx, .error ⟨seq⟩)
  emitted : ∀ nowNs rtoNs : UInt64, state.lastNs.toNat + rtoNs.toNat ≤ nowNs.toNat →
    (state.tx.tick nowNs rtoNs).2.filter (fun frame => frame.1 = seq) = [(seq, payload)]

section Tick

variable {tx : ReliableTx} {seq : UInt32}

theorem filter_finRange {n : Nat} (k : Fin n) (chosen : Bool) :
    (List.finRange n).filter (fun i => decide (i = k) && chosen) =
      if chosen then [k] else [] := by
  cases chosen with
  | false => simp
  | true =>
      have once := List.count_eq_one_of_mem (List.nodup_finRange n) (List.mem_finRange k)
      simp [List.filter_eq, once]

/-- Of the frames numbered `seq`, `tick` emits that of its slot, when it is overdue. -/
theorem tick_filter (aligned : tx.Aligned) (carries : tx.Carries seq) (nowNs rtoNs : UInt64) :
    (tx.tick nowNs rtoNs).2.filter (fun frame => frame.1 = seq) =
      if overdue nowNs rtoNs (tx.slotAt seq) then [(seq, (tx.slotAt seq).payload)] else [] := by
  have home : ∀ i, (decide ((tx.slots i).seq = seq) && overdue nowNs rtoNs (tx.slots i)) =
      (decide (i = tx.index seq) && overdue nowNs rtoNs (tx.slotAt seq)) := by
    intro i
    by_cases here : i = tx.index seq
    · have same : (tx.slots (tx.index seq)).seq = seq := carries.2
      simp [here, same, slotAt]
    · simp only [here, decide_false, Bool.false_and, Bool.and_eq_false_iff, decide_eq_false_iff_not]
      by_cases same : (tx.slots i).seq = seq
      · right
        by_contra due
        have live := (of_decide_eq_true ((Bool.not_eq_false _).mp due)).1
        obtain ⟨index, _⟩ := aligned i (Nat.pos_of_ne_zero live)
        rw [same] at index
        exact here index.symm
      · exact .inl same
  unfold tick
  simp only [List.filter_map, List.filter_filter, Function.comp_def, home, filter_finRange]
  split
  · have same : (tx.slots (tx.index seq)).seq = seq := carries.2
    simp [same, slotAt]
  · rfl

theorem mem_tick_iff (aligned : tx.Aligned) (carries : tx.Carries seq) (nowNs rtoNs : UInt64) :
    seq ∈ (tx.tick nowNs rtoNs).2.map (·.1) ↔ overdue nowNs rtoNs (tx.slotAt seq) = true := by
  have emitted := tick_filter aligned carries nowNs rtoNs
  constructor
  · intro sent
    obtain ⟨frame, listed, number⟩ := List.mem_map.mp sent
    by_contra early
    rw [if_neg early, List.filter_eq_nil_iff] at emitted
    exact emitted frame listed (decide_eq_true number)
  · intro due
    rw [if_pos due] at emitted
    have listed : (seq, (tx.slotAt seq).payload) ∈ (tx.tick nowNs rtoNs).2 := by
      apply List.mem_of_mem_filter (p := fun frame => decide (frame.1 = seq))
      rw [emitted]
      exact List.mem_singleton_self _
    exact List.mem_map.mpr ⟨_, listed, rfl⟩

theorem tick_slotAt (tx : ReliableTx) (seq : UInt32) (nowNs rtoNs : UInt64) :
    (tx.tick nowNs rtoNs).1.slotAt seq =
      if overdue nowNs rtoNs (tx.slotAt seq) then
        { tx.slotAt seq with lastNs := nowNs, resends := (tx.slotAt seq).resends + 1 }
      else tx.slotAt seq := rfl

end Tick

/-- The followed frame is in its slot, live, with its transmission times. -/
structure Keeps (state : Watched) (seq : UInt32) (payload : Payload) (firstNs : UInt64) : Prop where
  aligned : state.tx.Aligned
  number : (state.tx.slotAt seq).seq = seq
  content : (state.tx.slotAt seq).payload = payload
  first : (state.tx.slotAt seq).firstNs = firstNs
  last : (state.tx.slotAt seq).lastNs = state.lastNs
  bounded : state.tx.window < 2 ^ 32

section Follow

variable {state : Watched} {seq : UInt32} {payload : Payload} {firstNs : UInt64}

theorem Keeps.carries (keeps : Keeps state seq payload firstNs) (nonempty : payload.val ≠ []) :
    state.tx.Carries seq := by
  refine ⟨?_, keeps.number⟩
  unfold TxSlot.len
  rw [keeps.content]
  exact List.length_pos_iff.mpr nonempty

/-- A call that leaves the window and the slot of the frame alone keeps it. -/
theorem Keeps.of_slotAt {tx : ReliableTx} (keeps : Keeps state seq payload firstNs)
    (aligned : tx.Aligned) (window : tx.window = state.tx.window)
    (same : tx.slotAt seq = state.tx.slotAt seq) :
    Keeps ⟨tx, state.lastNs⟩ seq payload firstNs where
  aligned := aligned
  number := by rw [same]; exact keeps.number
  content := by rw [same]; exact keeps.content
  first := by rw [same]; exact keeps.first
  last := by rw [same]; exact keeps.last
  bounded := by rw [window]; exact keeps.bounded

/-- No `send` overwrites the slot: another number of the window has another slot, and the
number itself is refused. -/
theorem Keeps.send (keeps : Keeps state seq payload firstNs) (nonempty : payload.val ≠ [])
    (timed : firstNs ≠ 0) (other : UInt32) (content : Payload) (nowNs : UInt64) :
    Keeps ⟨(state.tx.send other content nowNs).1, state.lastNs⟩ seq payload firstNs := by
  have carries := keeps.carries nonempty
  apply keeps.of_slotAt (keeps.aligned.send content nowNs) (send_window _ _ _ _).2
  rcases send_cases state.tx other content nowNs with refused | ⟨inside, fresh, filled⟩
  · rw [refused]
  · rw [filled]
    have elsewhere : state.tx.index seq ≠ state.tx.index other := by
      intro equal
      obtain rfl := seq_eq_of_index_eq equal (carries.inside keeps.aligned) inside
      have running : (state.tx.slotAt seq).firstNs ≠ 0 := by
        rw [keeps.first]
        exact timed
      exact fresh ⟨carries.1, carries.2, running⟩
    change (state.tx.setSlot _ _).slots (state.tx.index seq) = _
    rw [setSlot_slots, if_neg elsewhere]
    rfl

/-- An acknowledgement that does not free the frame leaves its slot as it is. -/
theorem Keeps.onAck (keeps : Keeps state seq payload firstNs) (nonempty : payload.val ≠ [])
    {ack : AckFrame} {nowNs : UInt64} (spared : state.tx.freedBy seq (.onAck ack nowNs) = false) :
    Keeps ⟨(state.tx.onAck ack nowNs).1, state.lastNs⟩ seq payload firstNs := by
  have carries := keeps.carries nonempty
  have aligned := keeps.aligned.onAck ack nowNs
  have still : (state.tx.onAck ack nowNs).1.Carries seq := by
    by_contra gone
    exact of_decide_eq_false spared ⟨carries, gone⟩
  have unreached : ¬state.tx.Reaches ack seq := by
    intro reached
    exact aligned.absent_iff.mp
      ((onAck_absent_iff keeps.aligned carries nowNs).mpr reached) still
  apply keeps.of_slotAt aligned
  · unfold window
    rw [onAck_mask]
  · exact onAck_slotAt keeps.aligned carries unreached nowNs

/-- The timer moves the last transmission time of the slot exactly when it emits the frame. -/
theorem Keeps.tick (keeps : Keeps state seq payload firstNs) (nonempty : payload.val ≠ [])
    (nowNs rtoNs : UInt64) :
    Keeps ⟨(state.tx.tick nowNs rtoNs).1,
      if seq ∈ (state.tx.tick nowNs rtoNs).2.map (·.1) then nowNs else state.lastNs⟩
      seq payload firstNs := by
  have carries := keeps.carries nonempty
  have aligned := keeps.aligned.tick nowNs rtoNs
  simp only [mem_tick_iff keeps.aligned carries]
  by_cases due : overdue nowNs rtoNs (state.tx.slotAt seq) = true
  · have moved := tick_slotAt state.tx seq nowNs rtoNs
    rw [if_pos due] at moved
    rw [if_pos due]
    constructor
    · exact aligned
    · rw [moved]
      exact keeps.number
    · rw [moved]
      exact keeps.content
    · rw [moved]
      exact keeps.first
    · rw [moved]
    · exact keeps.bounded
  · rw [if_neg due]
    apply keeps.of_slotAt aligned rfl
    rw [tick_slotAt, if_neg due]

theorem Keeps.watch {target : Watched} {call : Call} (keeps : Keeps state seq payload firstNs)
    (nonempty : payload.val ≠ []) (timed : firstNs ≠ 0)
    (stepped : watch seq state call = some target) : Keeps target seq payload firstNs := by
  unfold ReliableTx.watch at stepped
  split at stepped
  · cases stepped
  · rename_i spared
    cases stepped
    cases call with
    | send other content nowNs => exact keeps.send nonempty timed other content nowNs
    | onAck ack nowNs => exact keeps.onAck nonempty (Bool.eq_false_iff.mpr spared)
    | tick nowNs rtoNs => exact keeps.tick nonempty nowNs rtoNs

/-- A kept frame is counted, protected from a second `send`, and emitted when overdue. -/
theorem Keeps.awaiting (keeps : Keeps state seq payload firstNs) (nonempty : payload.val ≠ [])
    (timed : firstNs ≠ 0) : Awaiting state seq payload := by
  have carries := keeps.carries nonempty
  have inside := carries.inside keeps.aligned
  have running : (state.tx.slotAt seq).firstNs ≠ 0 := by
    rw [keeps.first]
    exact timed
  constructor
  · refine ⟨state.tx.index seq, ?_, keeps.number, keeps.content⟩
    apply decide_eq_true
    refine ⟨carries.1, ?_⟩
    rcases state.tx.window32_cases with ⟨_, exact32⟩ | ⟨large, _⟩
    · have same : (state.tx.slots (state.tx.index seq)).seq = seq := carries.2
      rw [UInt32.lt_iff_toNat_lt, exact32, same]
      exact inside
    · exact absurd keeps.bounded (Nat.not_lt.mpr large)
  · intro other nowNs
    unfold ReliableTx.send
    rw [if_neg (Nat.not_le.mpr inside)]
    exact if_pos ⟨carries.1, carries.2, running⟩
  · intro nowNs rtoNs late
    have due : overdue nowNs rtoNs (state.tx.slotAt seq) = true := by
      apply decide_eq_true
      refine ⟨Nat.ne_of_gt carries.1, running, ?_⟩
      rw [ge_iff_le, UInt64.le_iff_toNat_le, toNat_saturatingSub, keeps.last]
      omega
    rw [tick_filter keeps.aligned carries, if_pos due, keeps.content]

end Follow

/-- The slot that an accepted `send` fills. -/
theorem send_slotAt {tx sent : ReliableTx} {seq : UInt32} {payload : Payload} {nowNs : UInt64}
    (accepted : tx.send seq payload nowNs = (sent, .ok ())) :
    sent.slotAt seq = ⟨seq, payload, nowNs, nowNs, 0⟩ ∧
      (seq - sent.oldest).toNat < sent.window ∧ sent.window = tx.window := by
  rcases send_cases tx seq payload nowNs with refused | ⟨inside, _, filled⟩
  · rw [refused] at accepted
    exact absurd (Prod.mk.inj accepted).2 (by simp)
  · rw [filled] at accepted
    obtain ⟨rfl, _⟩ := Prod.mk.inj accepted
    refine ⟨?_, inside, rfl⟩
    change (tx.setSlot _ _).slots (tx.index seq) = _
    rw [setSlot_slots, if_pos rfl]

/-- In every run, and in every continuation of it after an accepted `send` in which no
acknowledgement frees the frame, the frame is counted, protected and retransmitted, exactly
when its payload is not empty, it was not sent at time 0 and the window has fewer than 2³²
frames. -/
theorem awaiting_until_freed_iff (tx : ReliableTx) (reached : system.Reachable tx)
    (seq : UInt32) (payload : Payload) (nowNs : UInt64) (sent : ReliableTx)
    (accepted : tx.send seq payload nowNs = (sent, .ok ())) :
    (∀ state, (unfreed seq ⟨sent, nowNs⟩).Reachable state → Awaiting state seq payload) ↔
      payload.val ≠ [] ∧ nowNs ≠ 0 ∧ tx.window < 2 ^ 32 := by
  obtain ⟨filled, inside, window⟩ := send_slotAt accepted
  constructor
  · intro always
    obtain ⟨⟨i, counted, _, content⟩, refused, _⟩ := always ⟨sent, nowNs⟩ (.of_initial rfl)
    obtain ⟨live, near⟩ := of_decide_eq_true counted
    refine ⟨?_, ?_, ?_⟩
    · unfold TxSlot.len at live
      rw [content] at live
      exact List.length_pos_iff.mp live
    · -- a slot first sent at time 0 takes the same number again
      rintro rfl
      have again := refused payload 0
      unfold ReliableTx.send at again
      dsimp only at again
      change sent.slots (sent.index seq) = _ at filled
      rw [if_neg (Nat.not_le.mpr inside), filled, if_neg] at again
      · exact absurd (Prod.mk.inj again).2 (by simp)
      · simp
    · rw [← window]
      rcases sent.window32_cases with ⟨small, _⟩ | ⟨_, zero⟩
      · omega
      · dsimp only at near
        rw [zero] at near
        exact absurd (UInt32.lt_iff_toNat_lt.mp near) (Nat.not_lt_zero _)
  · rintro ⟨nonempty, timed, bounded⟩ state following
    have aligned : sent.Aligned := by
      have kept : (tx.send seq payload nowNs).1.Aligned :=
        (aligned_of_reachable reached).send payload nowNs
      rwa [accepted] at kept
    have keeps : Keeps state seq payload nowNs := by
      apply following.invariant (P := fun state => Keeps state seq payload nowNs)
      · rintro _ rfl
        refine ⟨aligned, ?_, ?_, ?_, ?_, ?_⟩
        · rw [filled]
        · rw [filled]
        · rw [filled]
        · rw [filled]
        · rw [window]
          exact bounded
      · intro state call target keeps stepped
        exact keeps.watch nonempty timed stepped
    exact keeps.awaiting nonempty timed

/-- Frame 0 sent at time 5 on a window of four. -/
def oneSent : ReliableTx := (new { window := 4 }).send 0 (.single 7) 5 |>.1

/-- Twelve milliseconds and one retransmission later the frame is still waiting. -/
theorem oneSent_awaiting :
    ∃ state, TransitionSystem.perform (watch 0) ⟨oneSent, 5⟩
        [.send 1 (.single 8) 6, .tick 12000000 10000000] = some state ∧
      Awaiting state 0 (.single 7) := by
  obtain ⟨state, performed⟩ := Option.isSome_iff_exists.mp
    (show (TransitionSystem.perform (watch 0) ⟨oneSent, 5⟩
      [.send 1 (.single 8) 6, .tick 12000000 10000000]).isSome by decide)
  have following : (unfreed 0 ⟨oneSent, 5⟩).Reachable state :=
    TransitionSystem.reachable_of_perform rfl performed
  refine ⟨state, performed, ?_⟩
  apply (awaiting_until_freed_iff (new { window := 4 }) (.of_initial ⟨_, rfl⟩) 0 (.single 7) 5
    oneSent rfl).mpr ⟨by decide, by decide, by decide⟩
  exact following

/-- Frame 0 sent at time 0: it is never emitted, and its number is taken a second time. -/
theorem sentAtZero_not_retransmitted :
    ∃ sent, (new { window := 4 }).send 0 (.single 7) 0 = (sent, .ok ()) ∧
      sent.Carries 0 ∧ (sent.tick 1000000000 10000000).2 = [] ∧
      (sent.send 0 (.single 8) 1).2 = .ok () ∧ ¬Awaiting ⟨sent, 0⟩ 0 (.single 7) := by
  refine ⟨((new { window := 4 }).send 0 (.single 7) 0).1, rfl, by decide, by decide, rfl, ?_⟩
  intro awaiting
  have emitted := awaiting.emitted 1000000000 10000000 (by decide)
  exact absurd emitted (by decide)

end Teleop.Link.ReliableTx
