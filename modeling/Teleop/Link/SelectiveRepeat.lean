import Teleop.Link.ReliableRx
import Teleop.Link.ReliableTx

/-!
# Sender and receiver over a lossy network

The two ends of the reliable channel with every frame and acknowledgement ever put
on the wire.  A frame that stays on the wire may be delivered any number of times,
in any order, or never.  Each carries the unbounded number its sequence number
stands for; the numbers only bound how stale a delivery may be.
-/

namespace Teleop.Link

open Teleop.Lib

namespace SelectiveRepeat

/-- A data frame on the wire. -/
structure Frame where
  number : Nat
  seq : UInt32
  payload : Payload

/-- An acknowledgement on the wire; `number` is the true number of its base. -/
structure Ack where
  number : Nat
  frame : AckFrame

/-- Both ends, the wire, and the history: the payload the application handed over for each
number, what `send` stored and when, what the receiver took, and what it drained. -/
structure Exchange where
  tx : ReliableTx
  rx : ReliableRx
  txBase : Nat
  rxNext : Nat
  frames : List Frame
  acks : List Ack
  offered : Nat → Option Payload
  filled : Nat → Option (Payload × UInt64)
  accepted : Nat → Option Payload
  drained : List (UInt32 × Payload)

inductive Action where
  | send (number : Nat) (payload : Payload) (nowNs : UInt64)
  | tick (nowNs rtoNs : UInt64)
  | deliverFrame (position : Nat)
  | drain
  | buildAck (rttSampleNs : UInt64)
  | deliverAck (position : Nat) (nowNs : UInt64)

def Exchange.start (cfg : ReliableConfig) : Exchange where
  tx := .new cfg
  rx := .new
  txBase := 0
  rxNext := 0
  frames := []
  acks := []
  offered _ := none
  filled _ := none
  accepted _ := none
  drained := []

/-- The application sends each number at most once; a number that was refused may be offered
again with its payload. -/
def Exchange.maySend (state : Exchange) (number : Nat) (payload : Payload) : Prop :=
  (state.offered number = none ∨
      state.offered number = some payload ∧ state.filled number = none) ∧
    state.txBase ≤ number + 2 ^ 31 ∧ number < state.txBase + 2 ^ 32

instance (state : Exchange) (number : Nat) (payload : Payload) :
    Decidable (state.maySend number payload) := by
  unfold Exchange.maySend
  infer_instance

/-- The frame `tick` sends for a slot, numbered by its distance from `oldest`. -/
def Exchange.resent (state : Exchange) (frame : UInt32 × Payload) : Frame where
  number := state.txBase + (frame.1 - state.tx.oldest).toNat
  seq := frame.1
  payload := frame.2

/-- One step.  Deliveries pick a frame or acknowledgement of the wire by position and leave
it there; those older than half a turn of the numbers are not delivered. -/
def next (state : Exchange) : Action → Option Exchange
  | .send number payload nowNs =>
      if state.maySend number payload then
        let (tx, result) := state.tx.send (serial number) payload nowNs
        some { state with
          tx
          frames := state.frames ++ [⟨number, serial number, payload⟩]
          offered := Function.update state.offered number (some payload)
          filled :=
            match result with
            | .ok () => Function.update state.filled number (some (payload, nowNs))
            | .error _ => state.filled }
      else none
  | .tick nowNs rtoNs =>
      let (tx, sent) := state.tx.tick nowNs rtoNs
      some { state with tx, frames := state.frames ++ sent.map state.resent }
  | .deliverFrame position =>
      (state.frames[position]?).bind fun frame =>
        if state.rxNext ≤ frame.number + 2 ^ 31 then
          let (rx, answer) := state.rx.accept frame.seq frame.payload
          some { state with
            rx
            accepted :=
              if answer.taken then
                Function.update state.accepted frame.number (some frame.payload)
              else state.accepted }
        else none
  | .drain =>
      let (rx, frames) := state.rx.drain
      some { state with
        rx
        rxNext := state.rxNext + frames.length
        drained := state.drained ++ frames }
  | .buildAck rttSampleNs =>
      some { state with
        acks := state.acks ++ [⟨state.rxNext, state.rx.buildAck rttSampleNs⟩] }
  | .deliverAck position nowNs =>
      (state.acks[position]?).bind fun ack =>
        if state.txBase ≤ ack.number + 2 ^ 31 then
          let (tx, _) := state.tx.onAck ack.frame nowNs
          some { state with
            tx
            txBase := state.txBase + (tx.oldest - state.tx.oldest).toNat }
        else none

def system : TransitionSystem Exchange Action :=
  .ofNext (fun state => ∃ cfg, state = .start cfg) next

/-- The slot of number `n` holds what `send` stored for it. -/
structure Retained (tx : ReliableTx) (n : Nat) (payload : Payload) (firstNs : UInt64) :
    Prop where
  seq_eq : (tx.slots (tx.index (serial n))).seq = serial n
  payload_eq : (tx.slots (tx.index (serial n))).payload = payload
  firstNs_eq : (tx.slots (tx.index (serial n))).firstNs = firstNs

/-- What the sender keeps, read through true numbers: every live slot is the slot of a
number of the window, and every stored number is still retained or was taken. -/
structure Retains (tx : ReliableTx) (base : Nat) (offered : Nat → Option Payload)
    (filled : Nat → Option (Payload × UInt64)) (accepted : Nat → Option Payload) : Prop where
  oldest_eq : tx.oldest = serial base
  wide : 2 ^ 32 ≤ tx.window → base = 0
  near : ∀ n, (offered n).isSome → n < base + 2 ^ 32
  live : ∀ i, 0 < (tx.slots i).len → ∃ n, base ≤ n ∧ n < base + tx.window ∧
    (tx.slots i).seq = serial n ∧ tx.index (serial n) = i ∧
    offered n = some (tx.slots i).payload
  stored : ∀ n payload firstNs, filled n = some (payload, firstNs) →
    offered n = some payload ∧
      ((base ≤ n ∧ n < base + tx.window ∧ Retained tx n payload firstNs) ∨
        (accepted n).isSome)

section Sender

variable {tx : ReliableTx} {base : Nat} {offered : Nat → Option Payload}
  {filled : Nat → Option (Payload × UInt64)} {accepted : Nat → Option Payload}

theorem Retains.near_of_some (retains : Retains tx base offered filled accepted) {n : Nat}
    {payload : Payload} (present : offered n = some payload) : n < base + 2 ^ 32 :=
  retains.near n (by rw [present]; rfl)

theorem window32_le (tx : ReliableTx) : tx.window32.toNat ≤ 2 ^ 31 := by
  rcases tx.window32_cases with ⟨small, equal⟩ | ⟨_, zero⟩
  · omega
  · rw [zero]
    exact Nat.zero_le _

/-- Releasing the slot of a taken number of the window. -/
theorem Retains.release (retains : Retains tx base offered filled accepted) {q : Nat}
    (taken : (accepted q).isSome) (above : base ≤ q) (inside : q < base + tx.window)
    (near : q < base + 2 ^ 32) :
    Retains (tx.release (serial q)) base offered filled accepted where
  oldest_eq := retains.oldest_eq
  wide := retains.wide
  near := retains.near
  live i live := by
    obtain ⟨_, kept⟩ := ReliableTx.live_of_release live
    rw [kept] at live ⊢
    exact retains.live i live
  stored n payload firstNs filledN := by
    obtain ⟨present, ⟨aboveN, insideN, retained⟩ | takenN⟩ :=
      retains.stored n payload firstNs filledN
    · refine ⟨present, ?_⟩
      by_cases same : n = q
      · subst same
        exact .inr taken
      · have elsewhere : tx.index (serial n) ≠ tx.index (serial q) := fun equal =>
          same (ReliableTx.eq_of_index_eq equal aboveN insideN (retains.near_of_some present) above inside
            near)
        have kept : (tx.release (serial q)).slots (tx.index (serial n)) =
            tx.slots (tx.index (serial n)) := by
          rw [ReliableTx.release_slots, if_neg elsewhere]
        refine .inl ⟨aboveN, insideN, ?_, ?_, ?_⟩
        · exact (congrArg TxSlot.seq kept).trans retained.seq_eq
        · exact (congrArg TxSlot.payload kept).trans retained.payload_eq
        · exact (congrArg TxSlot.firstNs kept).trans retained.firstNs_eq
    · exact ⟨present, .inr takenN⟩

/-- Moving past a base whose slot is free and whose number was taken. -/
theorem Retains.raise (retains : Retains tx base offered filled accepted)
    (taken : (accepted base).isSome) (narrow : tx.window < 2 ^ 32)
    (free : ¬0 < (tx.slots (tx.index (serial base))).len) :
    Retains { tx with oldest := tx.oldest + 1 } (base + 1) offered filled accepted where
  oldest_eq := by
    dsimp only
    rw [retains.oldest_eq, serial_add]
    rfl
  wide := by
    intro large
    exact absurd large (Nat.not_le.mpr narrow)
  near n present := Nat.lt_of_lt_of_le (retains.near n present) (by omega)
  live i live := by
    obtain ⟨n, above, inside, carries, home, present⟩ := retains.live i live
    have other : n ≠ base := by
      rintro rfl
      rw [home] at free
      exact free live
    refine ⟨n, by omega, ?_, carries, home, present⟩
    exact Nat.lt_of_lt_of_le inside (Nat.add_le_add_right (Nat.le_succ base) _)
  stored n payload firstNs filledN := by
    obtain ⟨present, ⟨aboveN, insideN, retained⟩ | takenN⟩ :=
      retains.stored n payload firstNs filledN
    · refine ⟨present, ?_⟩
      by_cases same : n = base
      · subst same
        exact .inr taken
      · refine .inl ⟨by omega, ?_, retained.seq_eq, retained.payload_eq, retained.firstNs_eq⟩
        exact Nat.lt_of_lt_of_le insideN (Nat.add_le_add_right (Nat.le_succ base) _)
    · exact ⟨present, .inr takenN⟩

/-- One pass of the cumulative loop, over a number that was taken. -/
theorem Retains.dropOldest (retains : Retains tx base offered filled accepted)
    (taken : (accepted base).isSome) (narrow : tx.window < 2 ^ 32) :
    Retains { tx.release tx.oldest with oldest := tx.oldest + 1 } (base + 1)
      offered filled accepted := by
  have released := retains.release taken (Nat.le_refl base)
    (Nat.lt_add_of_pos_right (Nat.succ_pos tx.mask)) (by omega)
  rw [← retains.oldest_eq] at released
  apply released.raise taken narrow
  intro live
  have elsewhere := (ReliableTx.live_of_release live).1
  rw [retains.oldest_eq] at elsewhere
  exact elsewhere rfl

/-- An acknowledgement that tells the truth, and is at most half a turn stale, frees only
what was taken; the base moves at most to that of the acknowledgement. -/
theorem Retains.onAck (retains : Retains tx base offered filled accepted) {ack : AckFrame}
    {b : Nat} (nowNs : UInt64) (base_eq : ack.baseSeq = serial b)
    (notStale : base ≤ b + 2 ^ 31) (cumulative : ∀ n < b, (accepted n).isSome)
    (selective : ∀ i < sackBits - 1, bit ack.bitmap i = true → (accepted (b + 1 + i)).isSome)
    (owned : ∀ n, (accepted n).isSome → (offered n).isSome) :
    ∃ base', base ≤ base' ∧ (base' = base ∨ base' ≤ b ∧ b < base + 2 ^ 32) ∧
      Retains (tx.onAck ack nowNs).1 base' offered filled accepted := by
  have bounded : b ≤ base + 2 ^ 32 := by
    rcases Nat.eq_zero_or_pos b with rfl | positive
    · exact Nat.zero_le _
    · have last := retains.near (b - 1) (owned _ (cumulative (b - 1) (by omega)))
      omega
  refine ReliableTx.onAck_preserves (P := fun tx => ∃ base', base ≤ base' ∧
    (base' = base ∨ base' ≤ b ∧ b < base + 2 ^ 32) ∧
    Retains tx base' offered filled accepted) nowNs ?_ ?_ ⟨base, Nat.le_refl _, .inl rfl, retains⟩
  · rintro tx ⟨base', above, progress, retains⟩ apart inside
    have limit := window32_le tx
    have distance := UInt32.lt_iff_toNat_lt.mp inside
    rw [base_eq, retains.oldest_eq] at apart distance
    -- a stale base would look at least half a turn ahead, which is outside the window
    have ahead : base' < b := by
      by_contra behind
      rcases Nat.eq_or_lt_of_le (Nat.le_of_not_lt behind) with rfl | behind
      · exact apart (UInt32.sub_self _)
      · rw [toNat_serial_sub_of_lt behind (by omega)] at distance
        omega
    have short : b ≠ base' + 2 ^ 32 := by
      rintro rfl
      apply apart
      apply UInt32.toNat.inj
      rw [UInt32.toNat_sub, toNat_serial, toNat_serial, UInt32.toNat_zero]
      omega
    have narrow : tx.window < 2 ^ 32 := by
      rcases tx.window32_cases with ⟨small, _⟩ | ⟨_, zero⟩
      · omega
      · rw [zero] at inside
        exact absurd inside (UInt32.not_lt.mpr (UInt32.le_iff_toNat_le.mpr (Nat.zero_le _)))
    refine ⟨base' + 1, by omega, .inr ⟨ahead, by omega⟩, ?_⟩
    exact retains.dropOldest (cumulative base' ahead) narrow
  · rintro tx i small ⟨base', above, progress, retains⟩ sacked
    have taken := selective i small sacked.set
    have nearQ := retains.near _ (owned _ taken)
    have seq_eq : ack.baseSeq + serial (1 + i) = serial (b + 1 + i) := by
      rw [base_eq, ← serial_add, Nat.add_assoc]
    have limit := window32_le tx
    have distance := UInt32.lt_iff_toNat_lt.mp sacked.inside
    rw [seq_eq, retains.oldest_eq] at distance
    have ahead : base' ≤ b + 1 + i := by
      by_contra behind
      rw [toNat_serial_sub_of_lt (Nat.lt_of_not_le behind) (by omega)] at distance
      omega
    rw [toNat_serial_sub ahead (by omega)] at distance
    have inside : b + 1 + i < base' + tx.window := by
      rcases tx.window32_cases with ⟨_, equal⟩ | ⟨large, _⟩
      · omega
      · omega
    rw [seq_eq]
    exact ⟨base', above, progress, retains.release taken ahead inside nearQ⟩

theorem offered_kept {n : Nat} {payload : Payload}
    (consistent : offered n = none ∨ offered n = some payload) (m : Nat) (earlier : Payload)
    (present : offered m = some earlier) :
    Function.update offered n (some payload) m = some earlier := by
  by_cases same : m = n
  · subst same
    rcases consistent with missing | equal
    · rw [missing] at present
      exact absurd present (by simp)
    · rw [Function.update_self, ← equal, present]
  · rw [Function.update_of_ne same, present]

/-- The application hands over a number, again with the same payload if at all. -/
theorem Retains.offer (retains : Retains tx base offered filled accepted) {n : Nat}
    {payload : Payload} (near : n < base + 2 ^ 32)
    (consistent : offered n = none ∨ offered n = some payload) :
    Retains tx base (Function.update offered n (some payload)) filled accepted := by
  have kept := offered_kept consistent
  refine ⟨retains.oldest_eq, retains.wide, ?_, ?_, ?_⟩
  · intro m present
    by_cases same : m = n
    · rw [same]
      exact near
    · rw [Function.update_of_ne same] at present
      exact retains.near m present
  · intro i live
    obtain ⟨m, above, inside, carries, home, present⟩ := retains.live i live
    exact ⟨m, above, inside, carries, home, kept m _ present⟩
  · intro m stored firstNs filledM
    obtain ⟨present, rest⟩ := retains.stored m stored firstNs filledM
    exact ⟨kept m stored present, rest⟩

/-- Storing an offered number of the window. -/
theorem Retains.fill (retains : Retains tx base offered filled accepted) {n : Nat}
    {payload : Payload} (nowNs : UInt64) (present : offered n = some payload)
    (above : base ≤ n) (inside : n < base + tx.window) :
    Retains (tx.setSlot (tx.index (serial n)) ⟨serial n, payload, nowNs, nowNs, 0⟩) base
      offered (Function.update filled n (some (payload, nowNs))) accepted where
  oldest_eq := retains.oldest_eq
  wide := retains.wide
  near := retains.near
  live := by
    intro (i : Fin (tx.mask + 1)) live
    by_cases same : i = tx.index (serial n)
    · rw [ReliableTx.setSlot_slots, if_pos same]
      exact ⟨n, above, inside, rfl, same.symm, present⟩
    · rw [ReliableTx.setSlot_slots, if_neg same] at live ⊢
      exact retains.live i live
  stored := by
    intro m stored firstNs filledM
    by_cases same : m = n
    · subst same
      rw [Function.update_self] at filledM
      cases filledM
      have content := ReliableTx.setSlot_slots tx (tx.index (serial m)) (tx.index (serial m))
        ⟨serial m, payload, nowNs, nowNs, 0⟩
      rw [if_pos rfl] at content
      refine ⟨present, .inl ⟨above, inside, ?_, ?_, ?_⟩⟩
      · exact congrArg TxSlot.seq content
      · exact congrArg TxSlot.payload content
      · exact congrArg TxSlot.firstNs content
    · rw [Function.update_of_ne same] at filledM
      obtain ⟨presentM, ⟨aboveM, insideM, retained⟩ | taken⟩ :=
        retains.stored m stored firstNs filledM
      · have elsewhere : tx.index (serial m) ≠ tx.index (serial n) := fun equal =>
          same (ReliableTx.eq_of_index_eq equal aboveM insideM (retains.near_of_some presentM) above inside
            (retains.near_of_some present))
        have kept := ReliableTx.setSlot_slots tx (tx.index (serial n)) (tx.index (serial m))
          ⟨serial n, payload, nowNs, nowNs, 0⟩
        rw [if_neg elsewhere] at kept
        refine ⟨presentM, .inl ⟨aboveM, insideM, ?_, ?_, ?_⟩⟩
        · exact (congrArg TxSlot.seq kept).trans retained.seq_eq
        · exact (congrArg TxSlot.payload kept).trans retained.payload_eq
        · exact (congrArg TxSlot.firstNs kept).trans retained.firstNs_eq
      · exact ⟨presentM, .inr taken⟩

/-- A number that `send` stores lies in the window, not half a turn behind it. -/
theorem Retains.inside_of_near (retains : Retains tx base offered filled accepted) {n : Nat}
    (notStale : base ≤ n + 2 ^ 31) (near : n < base + 2 ^ 32)
    (inside : (serial n - tx.oldest).toNat < tx.window) :
    base ≤ n ∧ n < base + tx.window := by
  rw [retains.oldest_eq] at inside
  by_cases ahead : base ≤ n
  · rw [toNat_serial_sub ahead (by omega)] at inside
    exact ⟨ahead, by omega⟩
  · rw [toNat_serial_sub_of_lt (Nat.lt_of_not_le ahead) (by omega)] at inside
    rcases tx.window32_cases with ⟨small, _⟩ | ⟨large, _⟩
    · omega
    · have zero := retains.wide large
      omega

theorem Retains.tick (retains : Retains tx base offered filled accepted)
    (nowNs rtoNs : UInt64) :
    Retains (tx.tick nowNs rtoNs).1 base offered filled accepted where
  oldest_eq := retains.oldest_eq
  wide := retains.wide
  near := retains.near
  live := by
    intro (i : Fin (tx.mask + 1)) live
    rw [ReliableTx.tick_len] at live
    obtain ⟨seq_eq, payload_eq, _⟩ := ReliableTx.tick_slots tx nowNs rtoNs i
    rw [seq_eq, payload_eq]
    exact retains.live i live
  stored := by
    intro n payload firstNs filledN
    obtain ⟨present, ⟨above, inside, retained⟩ | taken⟩ :=
      retains.stored n payload firstNs filledN
    · obtain ⟨seq_eq, payload_eq, firstNs_eq⟩ :=
        ReliableTx.tick_slots tx nowNs rtoNs (tx.index (serial n))
      refine ⟨present, .inl ⟨above, inside, ?_, ?_, ?_⟩⟩
      · exact seq_eq.trans retained.seq_eq
      · exact payload_eq.trans retained.payload_eq
      · exact firstNs_eq.trans retained.firstNs_eq
    · exact ⟨present, .inr taken⟩

theorem Retains.mono (retains : Retains tx base offered filled accepted)
    {accepted' : Nat → Option Payload}
    (kept : ∀ n, (accepted n).isSome → (accepted' n).isSome) :
    Retains tx base offered filled accepted' where
  oldest_eq := retains.oldest_eq
  wide := retains.wide
  near := retains.near
  live := retains.live
  stored n payload firstNs filledN := by
    obtain ⟨present, retained | taken⟩ := retains.stored n payload firstNs filledN
    · exact ⟨present, .inl retained⟩
    · exact ⟨present, .inr (kept n taken)⟩

end Sender

/-- The invariant of the exchange: the sender retains what the receiver has not taken, and
every frame and acknowledgement of the wire tells the truth. -/
structure Sound (state : Exchange) : Prop where
  retains : Retains state.tx state.txBase state.offered state.filled state.accepted
  tracks : state.rx.Tracks state.rxNext state.accepted
  base_le : state.txBase ≤ state.rxNext
  owned : ∀ n payload, state.accepted n = some payload → state.offered n = some payload
  frames : ∀ frame ∈ state.frames,
    frame.seq = serial frame.number ∧ state.offered frame.number = some frame.payload
  acks : ∀ ack ∈ state.acks, ack.frame.baseSeq = serial ack.number ∧
    ack.number ≤ state.rxNext ∧
    ∀ i < sackBits - 1, bit ack.frame.bitmap i = true →
      (state.accepted (ack.number + 1 + i)).isSome
  counted : state.drained.length = state.rxNext
  inRow : ReliableRx.InRow state.accepted 0 state.drained

theorem start_sound (cfg : ReliableConfig) : Sound (.start cfg) where
  retains :=
    { oldest_eq := rfl
      wide := fun _ => rfl
      near := fun _ impossible => absurd impossible (by simp [Exchange.start])
      live := fun _ impossible => absurd impossible (Nat.lt_irrefl 0)
      stored := fun _ _ _ impossible => absurd impossible (by simp [Exchange.start]) }
  tracks := ReliableRx.new_tracks
  base_le := Nat.le_refl 0
  owned _ _ impossible := absurd impossible (by simp [Exchange.start])
  frames _ impossible := absurd impossible List.not_mem_nil
  acks _ impossible := absurd impossible List.not_mem_nil
  counted := rfl
  inRow _ impossible := absurd impossible (Nat.not_lt_zero _)

section Steps

variable {state target : Exchange}

theorem send_sound (sound : Sound state) {number : Nat} {payload : Payload} {nowNs : UInt64}
    (stepped : next state (.send number payload nowNs) = some target) : Sound target := by
  simp only [next] at stepped
  split at stepped
  · rename_i may
    obtain ⟨unsent, notStale, near⟩ := may
    have consistent : state.offered number = none ∨ state.offered number = some payload :=
      unsent.imp_right And.left
    have offered := sound.retains.offer near consistent
    have kept := offered_kept consistent
    cases stepped
    refine ⟨?_, sound.tracks, sound.base_le, ?_, ?_, sound.acks, sound.counted, sound.inRow⟩
    · dsimp only
      rcases ReliableTx.send_cases state.tx (serial number) payload nowNs with
        refused | ⟨inside, _, stored⟩
      · rw [refused]
        exact offered
      · rw [stored]
        obtain ⟨above, within⟩ := sound.retains.inside_of_near notStale near inside
        exact offered.fill nowNs (Function.update_self ..) above within
    · intro n earlier taken
      exact kept n earlier (sound.owned n earlier taken)
    · intro frame onWire
      rcases List.mem_append.mp onWire with earlier | new
      · obtain ⟨seq_eq, present⟩ := sound.frames frame earlier
        exact ⟨seq_eq, kept _ _ present⟩
      · rw [List.mem_singleton] at new
        subst new
        exact ⟨rfl, Function.update_self ..⟩
  · exact absurd stepped (by simp)

theorem tick_sound (sound : Sound state) {nowNs rtoNs : UInt64}
    (stepped : next state (.tick nowNs rtoNs) = some target) : Sound target := by
  cases stepped
  refine ⟨sound.retains.tick nowNs rtoNs, sound.tracks, sound.base_le, sound.owned, ?_,
    sound.acks, sound.counted, sound.inRow⟩
  intro frame onWire
  rcases List.mem_append.mp onWire with earlier | resent
  · exact sound.frames frame earlier
  · -- a retransmitted frame is a live slot, whose number is its distance from the base
    obtain ⟨emitted, sent, rfl⟩ := List.mem_map.mp resent
    obtain ⟨i, live, rfl⟩ := ReliableTx.exists_slot_of_tick sent
    obtain ⟨n, above, _, carries, _, present⟩ := sound.retains.live i live
    have number : state.txBase + ((state.tx.slots i).seq - state.tx.oldest).toNat = n := by
      have near := sound.retains.near_of_some present
      rw [carries, sound.retains.oldest_eq, toNat_serial_sub above (by omega)]
      omega
    unfold Exchange.resent
    dsimp only
    rw [number]
    exact ⟨carries, present⟩

theorem deliverFrame_sound (sound : Sound state) {position : Nat}
    (stepped : next state (.deliverFrame position) = some target) : Sound target := by
  obtain ⟨frame, found, stepped⟩ := Option.bind_eq_some_iff.mp stepped
  obtain ⟨seq_eq, present⟩ := sound.frames frame (List.mem_of_getElem? found)
  dsimp only at stepped
  split at stepped
  · rename_i notStale
    have near := sound.retains.near_of_some present
    have base_le := sound.base_le
    have outcome := sound.tracks.accept frame.payload (n := frame.number) (by omega) (by omega)
    rw [ofInt_natCast, ← seq_eq] at outcome
    cases stepped
    rcases outcome with ⟨refused, unchanged, _⟩ | ⟨taken, m, same, _, free, stored⟩
    · rw [refused, unchanged]
      exact ⟨sound.retains, sound.tracks, sound.base_le, sound.owned, sound.frames, sound.acks,
        sound.counted, sound.inRow⟩
    · have number : frame.number = m := Int.ofNat.inj same
      rw [← number] at free stored
      have kept : ∀ n, (state.accepted n).isSome →
          (Function.update state.accepted frame.number (some frame.payload) n).isSome := by
        intro n earlier
        by_cases same : n = frame.number
        · rw [same, Function.update_self]
          rfl
        · rw [Function.update_of_ne same]
          exact earlier
      rw [if_pos taken]
      refine ⟨sound.retains.mono kept, stored, sound.base_le, ?_, sound.frames, ?_,
        sound.counted, ?_⟩
      · intro n payload accepted
        dsimp only at accepted ⊢
        by_cases same : n = frame.number
        · subst same
          rw [Function.update_self] at accepted
          cases accepted
          exact present
        · rw [Function.update_of_ne same] at accepted
          exact sound.owned n payload accepted
      · intro ack onWire
        obtain ⟨base_eq, bound, selective⟩ := sound.acks ack onWire
        exact ⟨base_eq, bound, fun i small set => kept _ (selective i small set)⟩
      · intro i inside
        obtain ⟨payload, drained, held⟩ := sound.inRow i inside
        refine ⟨payload, drained, ?_⟩
        have other : 0 + i ≠ frame.number := by
          intro same
          rw [same, free] at held
          exact absurd held (by simp)
        dsimp only
        rw [Function.update_of_ne other]
        exact held
  · exact absurd stepped (by simp)

theorem drain_sound (sound : Sound state) (stepped : next state .drain = some target) :
    Sound target := by
  cases stepped
  obtain ⟨tracks, inRow, _⟩ := sound.tracks.drain
  refine ⟨sound.retains, tracks, ?_, sound.owned, sound.frames, ?_, ?_, ?_⟩
  · exact Nat.le_trans sound.base_le (Nat.le_add_right _ _)
  · intro ack onWire
    obtain ⟨base_eq, bound, selective⟩ := sound.acks ack onWire
    exact ⟨base_eq, Nat.le_trans bound (Nat.le_add_right _ _), selective⟩
  · rw [List.length_append, sound.counted]
  · apply sound.inRow.append
    rw [sound.counted, Nat.zero_add]
    exact inRow

theorem buildAck_sound (sound : Sound state) {rttSampleNs : UInt64}
    (stepped : next state (.buildAck rttSampleNs) = some target) : Sound target := by
  cases stepped
  refine ⟨sound.retains, sound.tracks, sound.base_le, sound.owned, sound.frames, ?_,
    sound.counted, sound.inRow⟩
  intro ack onWire
  rcases List.mem_append.mp onWire with earlier | new
  · exact sound.acks ack earlier
  · rw [List.mem_singleton] at new
    subst new
    refine ⟨sound.tracks.next_eq, Nat.le_refl _, ?_⟩
    intro i small set
    have mark := sound.tracks.bit_eq ⟨i + 1, Nat.add_lt_of_lt_sub small⟩
    have set : bit (state.rx.map >>> 1) i = true := set
    rw [bit_shiftRight_one, mark] at set
    dsimp only at set ⊢
    rw [Nat.add_assoc, Nat.add_comm 1 i]
    exact set

theorem deliverAck_sound (sound : Sound state) {position : Nat} {nowNs : UInt64}
    (stepped : next state (.deliverAck position nowNs) = some target) : Sound target := by
  obtain ⟨ack, found, stepped⟩ := Option.bind_eq_some_iff.mp stepped
  obtain ⟨base_eq, bound, selective⟩ := sound.acks ack (List.mem_of_getElem? found)
  dsimp only at stepped
  split at stepped
  · rename_i notStale
    cases stepped
    have cumulative : ∀ n < ack.number, (state.accepted n).isSome := fun n below =>
      sound.tracks.before n (Nat.lt_of_lt_of_le below bound)
    have owned : ∀ n, (state.accepted n).isSome → (state.offered n).isSome := by
      intro n taken
      obtain ⟨payload, accepted⟩ := Option.isSome_iff_exists.mp taken
      rw [sound.owned n payload accepted]
      rfl
    obtain ⟨base, above, progress, retains⟩ :=
      sound.retains.onAck nowNs base_eq notStale cumulative selective owned
    have moved : state.txBase +
        ((state.tx.onAck ack.frame nowNs).1.oldest - state.tx.oldest).toNat = base := by
      rw [retains.oldest_eq, sound.retains.oldest_eq, toNat_serial_sub above (by omega)]
      omega
    have base_le := sound.base_le
    refine ⟨?_, sound.tracks, ?_, sound.owned, sound.frames, sound.acks, sound.counted,
      sound.inRow⟩
    · dsimp only
      rw [moved]
      exact retains
    · dsimp only
      rw [moved]
      omega
  · exact absurd stepped (by simp)

end Steps

theorem sound_of_reachable {state : Exchange} (reached : system.Reachable state) :
    Sound state := by
  apply reached.invariant
  · rintro _ ⟨cfg, rfl⟩
    exact start_sound cfg
  · intro state action target sound stepped
    cases action with
    | send number payload nowNs => exact send_sound sound stepped
    | tick nowNs rtoNs => exact tick_sound sound stepped
    | deliverFrame position => exact deliverFrame_sound sound stepped
    | drain => exact drain_sound sound stepped
    | buildAck rttSampleNs => exact buildAck_sound sound stepped
    | deliverAck position nowNs => exact deliverAck_sound sound stepped

/-- In every run, whatever is lost, duplicated or reordered: what `send` stored for a number
is still in its slot unless the receiver took that number, and the frame drained as number
`k` carries the payload sent for `k`. -/
theorem retained_until_accepted (state : Exchange) (reached : system.Reachable state) :
    (∀ n payload firstNs, state.filled n = some (payload, firstNs) →
        Retained state.tx n payload firstNs ∨ (state.accepted n).isSome) ∧
      (∀ k seq payload, state.drained[k]? = some (seq, payload) →
        seq = serial k ∧ state.offered k = some payload) ∧
      ∀ n payload, state.accepted n = some payload →
        state.offered n = some payload ∧
          (state.drained[n]? = some (serial n, payload) ∨
            ∃ i : Fin sackBits, n = state.rxNext + i ∧ bit state.rx.map i = true ∧
              state.rx.slots i = payload) := by
  have sound := sound_of_reachable reached
  refine ⟨?_, ?_, ?_⟩
  · intro n payload firstNs filled
    obtain ⟨_, ⟨_, _, retained⟩ | taken⟩ := sound.retains.stored n payload firstNs filled
    · exact .inl retained
    · exact .inr taken
  · intro k seq payload drained
    have inside := (List.getElem?_eq_some_iff.mp drained).choose
    obtain ⟨held, found, accepted⟩ := sound.inRow k inside
    rw [drained] at found
    cases found
    rw [Nat.zero_add] at accepted ⊢
    exact ⟨rfl, sound.owned k payload accepted⟩
  · intro n payload accepted
    refine ⟨sound.owned n payload accepted, ?_⟩
    by_cases delivered : n < state.rxNext
    · rw [← sound.counted] at delivered
      obtain ⟨held, found, same⟩ := sound.inRow n delivered
      rw [Nat.zero_add] at found same
      rw [accepted] at same
      cases same
      exact .inl found
    · right
      have inside : n - state.rxNext < sackBits := by
        by_contra beyond
        rw [sound.tracks.beyond n (by omega)] at accepted
        exact absurd accepted (by simp)
      have position : state.rxNext + (n - state.rxNext) = n := by omega
      have window := sound.tracks.window ⟨n - state.rxNext, inside⟩
      dsimp only at window
      rw [position, accepted] at window
      refine ⟨⟨n - state.rxNext, inside⟩, position.symm, ?_⟩
      dsimp only
      split at window
      · rename_i set
        exact ⟨set, (Option.some.inj window).symm⟩
      · exact absurd window (by simp)

/-- Frame 0 is lost, frame 1 arrives early and is acknowledged selectively. -/
def lostFirst : Option Exchange :=
  TransitionSystem.perform next (.start { window := 4 })
    [.send 0 (.single 10) 1, .send 1 (.single 11) 2, .deliverFrame 1, .buildAck 0,
      .deliverAck 0 3]

theorem lostFirst_retained_until_accepted :
    ∃ state, lostFirst = some state ∧ (state.tx.slots (state.tx.index 1)).len = 0 ∧
      (Retained state.tx 1 ⟨[11], by decide⟩ 2 ∨ (state.accepted 1).isSome) := by
  obtain ⟨state, performed⟩ := Option.isSome_iff_exists.mp (show lostFirst.isSome by decide)
  have freed : lostFirst.map (fun state => (state.tx.slots (state.tx.index 1)).len) = some 0 := by
    decide
  have stored : lostFirst.map (·.filled 1) = some (some (⟨[11], by decide⟩, 2)) := by decide
  rw [performed] at freed stored
  have reached : system.Reachable state :=
    TransitionSystem.reachable_of_perform ⟨_, rfl⟩ performed
  obtain ⟨retained, _⟩ := retained_until_accepted state reached
  exact ⟨state, performed, Option.some.inj freed, retained 1 _ _ (Option.some.inj stored)⟩

end SelectiveRepeat

end Teleop.Link
