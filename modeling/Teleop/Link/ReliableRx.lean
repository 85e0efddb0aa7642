import Teleop.Lib.TransitionSystem
import Teleop.Link.Reliable

/-!
# The receiver delivers the in-order prefix

The receiver is read through unbounded numbers: the number of the next frame and
the payload held for each number.  `accept` and `drain` keep the two readings in
step, whatever is offered and in whatever order.
-/

namespace Teleop.Link

open Teleop.Lib

namespace ReliableRx

/-- `rx` stands for a receiver that has delivered every number below `next` and holds
`held n` for number `n`. -/
structure Tracks (rx : ReliableRx) (next : Nat) (held : Nat → Option Payload) : Prop where
  next_eq : rx.next = serial next
  window : ∀ i : Fin sackBits,
    held (next + i) = if bit rx.map i then some (rx.slots i) else none
  before : ∀ n < next, (held n).isSome
  beyond : ∀ n, next + sackBits ≤ n → held n = none

theorem new_tracks : Tracks new 0 fun _ => none where
  next_eq := rfl
  window i := by simp [new]
  before n impossible := absurd impossible (Nat.not_lt_zero n)
  beyond _ _ := rfl

section Accept

variable {rx : ReliableRx} {next : Nat} {held : Nat → Option Payload}

theorem accept_outside {seq : UInt32} (outside : sackBits ≤ (seq - rx.next).toNat)
    (payload : Payload) :
    (rx.accept seq payload).1 = rx ∧ (rx.accept seq payload).2.taken = false := by
  unfold accept
  dsimp only
  split
  · exact ⟨rfl, rfl⟩
  · rw [dif_neg (Nat.not_lt.mpr outside)]
    exact ⟨rfl, rfl⟩

theorem not_behind {d : UInt32} (inside : d.toNat < sackBits) :
    ¬d.toNat > (2 ^ 32 - 1) / 2 := by
  unfold sackBits at inside
  omega

theorem accept_held {seq : UInt32} (inside : (seq - rx.next).toNat < sackBits)
    (set : bit rx.map (seq - rx.next).toNat = true) (payload : Payload) :
    (rx.accept seq payload).1 = rx ∧ (rx.accept seq payload).2.taken = false := by
  have masked := (and_mask_ne_zero_iff rx.map (d := seq - rx.next) inside).mpr set
  unfold accept
  dsimp only
  rw [if_neg (not_behind inside), dif_pos inside, if_pos masked]
  exact ⟨rfl, rfl⟩

theorem accept_fresh {seq : UInt32} (inside : (seq - rx.next).toNat < sackBits)
    (clear : bit rx.map (seq - rx.next).toNat = false) (payload : Payload) :
    (rx.accept seq payload).1 =
        { rx with
          slots := Function.update rx.slots ⟨(seq - rx.next).toNat, inside⟩ payload
          map := rx.map ||| (1 <<< (seq - rx.next)) } ∧
      (rx.accept seq payload).2.taken = true := by
  have unmasked : ¬rx.map &&& (1 <<< (seq - rx.next)) ≠ 0 := by
    rw [and_mask_ne_zero_iff rx.map (d := seq - rx.next) inside, clear]
    decide
  unfold accept
  dsimp only
  rw [if_neg (not_behind inside), dif_pos inside, if_neg unmasked]
  refine ⟨rfl, ?_⟩
  split <;> rfl

theorem Tracks.bit_eq (tracks : Tracks rx next held) (i : Fin sackBits) :
    bit rx.map i = (held (next + i)).isSome := by
  rw [tracks.window i]
  cases bit rx.map i <;> rfl

/-- Storing a payload at offset `i` of the window. -/
theorem Tracks.store (tracks : Tracks rx next held) {d : UInt32} (inside : d.toNat < sackBits)
    (payload : Payload) :
    Tracks
      { rx with
        slots := Function.update rx.slots ⟨d.toNat, inside⟩ payload
        map := rx.map ||| (1 <<< d) }
      next (Function.update held (next + d.toNat) (some payload)) where
  next_eq := tracks.next_eq
  window i := by
    dsimp only
    rw [bit_or_mask rx.map inside]
    by_cases same : d.toNat = i
    · have index : i = ⟨d.toNat, inside⟩ := Fin.ext same.symm
      simp [index]
    · have other : i ≠ ⟨d.toNat, inside⟩ := fun equal => same (congrArg Fin.val equal).symm
      rw [Function.update_of_ne other, Function.update_of_ne (by omega), tracks.window i]
      simp [same]
  before n delivered := by
    rw [Function.update_of_ne (by omega)]
    exact tracks.before n delivered
  beyond n far := by
    rw [Function.update_of_ne (by omega)]
    exact tracks.beyond n far

/-- What `accept` does with the frame of true number `n`, which may lie half a turn behind
the next number and almost a full turn ahead of it. -/
theorem Tracks.accept (tracks : Tracks rx next held) {n : Int} (payload : Payload)
    (notStale : next ≤ n + 2 ^ 31) (notAhead : n < next + 2 ^ 32) :
    (((rx.accept (UInt32.ofInt n) payload).2.taken = false ∧
        (rx.accept (UInt32.ofInt n) payload).1 = rx ∧
        ∀ m : Nat, n = m → m < next + sackBits → (held m).isSome)) ∨
      ((rx.accept (UInt32.ofInt n) payload).2.taken = true ∧
        ∃ m : Nat, n = m ∧ next ≤ m ∧ held m = none ∧
          Tracks (rx.accept (UInt32.ofInt n) payload).1 next
            (Function.update held m (some payload))) := by
  have distance : (UInt32.ofInt n - rx.next).toNat = ((n - next) % 2 ^ 32).toNat := by
    rw [tracks.next_eq, toNat_ofInt_sub_serial]
  by_cases inside : (UInt32.ofInt n - rx.next).toNat < sackBits
  · -- within the window the residue is the true offset
    have window : sackBits = 32 := rfl
    obtain ⟨m, rfl⟩ : ∃ m : Nat, n = m := Int.eq_ofNat_of_zero_le (by omega)
    have offset : m = next + (UInt32.ofInt m - rx.next).toNat := by omega
    have mark := tracks.bit_eq ⟨_, inside⟩
    dsimp only at mark
    rw [← offset] at mark
    cases present : held m with
    | some earlier =>
        obtain ⟨unchanged, refused⟩ := accept_held inside (by rw [mark, present]; rfl) payload
        refine .inl ⟨refused, unchanged, ?_⟩
        intro m' same _
        rw [← Int.ofNat.inj same, present]
        rfl
    | none =>
        obtain ⟨stored, taken⟩ := accept_fresh inside (by rw [mark, present]; rfl) payload
        refine .inr ⟨taken, m, rfl, by omega, present, ?_⟩
        rw [stored]
        have result := tracks.store inside payload
        rw [← offset] at result
        exact result
  · obtain ⟨unchanged, refused⟩ := accept_outside (Nat.le_of_not_lt inside) payload
    refine .inl ⟨refused, unchanged, ?_⟩
    intro m same near
    have window : sackBits = 32 := rfl
    apply tracks.before
    omega

end Accept

section Drain

variable {rx : ReliableRx} {next : Nat} {held : Nat → Option Payload}

theorem Tracks.shift (tracks : Tracks rx next held) (ready : bit rx.map 0 = true) :
    Tracks rx.shift (next + 1) held where
  next_eq := by
    rw [serial_add, ← tracks.next_eq]
    rfl
  window i := by
    have above : next + 1 + i = next + (i + 1) := by omega
    unfold ReliableRx.shift
    simp only [bit_shiftRight_one]
    by_cases inside : i.val + 1 < sackBits
    · rw [dif_pos inside, above]
      exact tracks.window ⟨i + 1, inside⟩
    · rw [bit_of_le rx.map (Nat.le_of_not_lt inside), above]
      apply tracks.beyond
      omega
  before n delivered := by
    rcases Nat.lt_succ_iff_lt_or_eq.mp delivered with earlier | rfl
    · exact tracks.before n earlier
    · have zero := tracks.bit_eq ⟨0, by decide⟩
      rw [← ready, zero]
      rfl
  beyond n far := tracks.beyond n (by omega)

/-- Frames delivered in a row from number `next` on. -/
def InRow (held : Nat → Option Payload) (next : Nat) (frames : List (UInt32 × Payload)) : Prop :=
  ∀ i < frames.length, ∃ payload,
    frames[i]? = some (serial (next + i), payload) ∧ held (next + i) = some payload

theorem InRow.cons {payload : Payload} {frames : List (UInt32 × Payload)}
    (first : held next = some payload) (rest : InRow held (next + 1) frames) :
    InRow held next ((serial next, payload) :: frames) := by
  intro i inside
  cases i with
  | zero => exact ⟨payload, rfl, first⟩
  | succ i =>
      obtain ⟨later, found, present⟩ := rest i (Nat.lt_of_succ_lt_succ inside)
      rw [Nat.add_right_comm] at found present
      exact ⟨later, found, present⟩

theorem InRow.append {earlier later : List (UInt32 × Payload)} (left : InRow held next earlier)
    (right : InRow held (next + earlier.length) later) : InRow held next (earlier ++ later) := by
  intro i inside
  by_cases within : i < earlier.length
  · obtain ⟨payload, found, present⟩ := left i within
    exact ⟨payload, by rw [List.getElem?_append_left within, found], present⟩
  · rw [List.length_append] at inside
    have position : next + earlier.length + (i - earlier.length) = next + i := by omega
    obtain ⟨payload, found, present⟩ := right (i - earlier.length) (by omega)
    rw [position] at found present
    exact ⟨payload, by rw [List.getElem?_append_right (by omega), found], present⟩

theorem Tracks.drainLoop (fuel : Nat) (tracks : Tracks rx next held) :
    Tracks (drainLoop fuel rx).1 (next + (drainLoop fuel rx).2.length) held ∧
      InRow held next (drainLoop fuel rx).2 := by
  induction fuel generalizing rx next with
  | zero => exact ⟨tracks, fun i impossible => absurd impossible (Nat.not_lt_zero i)⟩
  | succ fuel inductionHypothesis =>
      unfold ReliableRx.drainLoop
      by_cases ready : rx.map &&& 1 ≠ 0
      · rw [if_pos ready]
        have set := (and_one_ne_zero_iff rx.map).mp ready
        have first : held next = some (rx.slots ⟨0, by decide⟩) := by
          have zero := tracks.window ⟨0, by decide⟩
          dsimp only at zero
          rwa [if_pos set] at zero
        obtain ⟨final, rest⟩ := inductionHypothesis (tracks.shift set)
        dsimp only
        rw [tracks.next_eq]
        refine ⟨?_, rest.cons first⟩
        rw [List.length_cons, ← Nat.add_assoc, Nat.add_right_comm]
        exact final
      · rw [if_neg ready]
        exact ⟨tracks, fun i impossible => absurd impossible (Nat.not_lt_zero i)⟩

/-- The loop stops at a number that is not held, when the bits beyond its fuel are clear. -/
theorem drainLoop_stops (fuel : Nat) (rx : ReliableRx)
    (clear : ∀ i, fuel ≤ i → bit rx.map i = false) :
    bit (drainLoop fuel rx).1.map 0 = false := by
  induction fuel generalizing rx with
  | zero => exact clear 0 (Nat.le_refl 0)
  | succ fuel inductionHypothesis =>
      unfold drainLoop
      by_cases ready : rx.map &&& 1 ≠ 0
      · rw [if_pos ready]
        apply inductionHypothesis
        intro i far
        have moved : bit rx.shift.map i = bit rx.map (i + 1) := bit_shiftRight_one rx.map i
        rw [moved]
        exact clear (i + 1) (Nat.succ_le_succ far)
      · rw [if_neg ready]
        rw [and_one_ne_zero_iff, Bool.not_eq_true] at ready
        exact ready

theorem Tracks.drain (tracks : Tracks rx next held) :
    Tracks rx.drain.1 (next + rx.drain.2.length) held ∧ InRow held next rx.drain.2 ∧
      held (next + rx.drain.2.length) = none := by
  obtain ⟨final, inRow⟩ := tracks.drainLoop sackBits
  refine ⟨final, inRow, ?_⟩
  have stopped := drainLoop_stops sackBits rx fun i far => bit_of_le rx.map far
  have zero := final.bit_eq ⟨0, by decide⟩
  rw [stopped] at zero
  exact Option.isNone_iff_eq_none.mp (Option.isSome_eq_false_iff.mp zero.symm)

end Drain

end ReliableRx

/-- One call of `accept`: the true number of the frame, its payload and the answer. -/
structure Offer where
  number : Int
  payload : Payload
  answer : Accept

/-- The payload of the first offer of number `n` that was answered in order or buffered. -/
def firstTaken (offers : List Offer) (n : Nat) : Option Payload :=
  (offers.find? fun offer => decide (offer.number = (n : Int)) && offer.answer.taken).map (·.payload)

theorem firstTaken_append (offers : List Offer) (offer : Offer) (n : Nat) :
    firstTaken (offers ++ [offer]) n =
      (firstTaken offers n).or
        (if offer.number = n ∧ offer.answer.taken = true then some offer.payload else none) := by
  unfold firstTaken
  rw [List.find?_append, Option.map_or]
  congr 1
  by_cases matching : offer.number = n ∧ offer.answer.taken = true
  · simp [List.find?, matching]
  · rw [if_neg matching]
    have mismatch : (decide (offer.number = n) && offer.answer.taken) = false := by
      simpa [Bool.and_eq_false_iff, not_and_or] using matching
    simp [List.find?, mismatch]

theorem firstTaken_append_refused (offers : List Offer) (offer : Offer)
    (refused : offer.answer.taken = false) :
    firstTaken (offers ++ [offer]) = firstTaken offers := by
  funext n
  rw [firstTaken_append, if_neg (by simp [refused]), Option.or_none]

theorem firstTaken_append_taken (offers : List Offer) (offer : Offer) {m : Nat}
    (number : offer.number = m) (taken : offer.answer.taken = true)
    (free : firstTaken offers m = none) :
    firstTaken (offers ++ [offer]) =
      Function.update (firstTaken offers) m (some offer.payload) := by
  funext n
  rw [firstTaken_append]
  by_cases same : n = m
  · subst same
    rw [free, if_pos ⟨number, taken⟩, Function.update_self]
    rfl
  · rw [Function.update_of_ne same, if_neg, Option.or_none]
    rintro ⟨equal, _⟩
    exact same (Int.ofNat.inj (equal.symm.trans number))

/-- A receiver with the calls made on it: the true number it expects next, every offer with
its answer, and everything drained so far. -/
structure Reception where
  rx : ReliableRx
  trueNext : Nat
  offers : List Offer
  delivered : List (UInt32 × Payload)

namespace Reception

inductive Call where
  | accept (number : Int) (payload : Payload)
  | drain

def start : Reception := ⟨.new, 0, [], []⟩

/-- Offers are made within half a turn of the next number; their sequence number is the
residue of the true one. -/
def next (state : Reception) : Call → Option Reception
  | .accept number payload =>
      if -2 ^ 31 ≤ number - state.trueNext ∧ number - state.trueNext < 2 ^ 31 then
        let (rx, answer) := state.rx.accept (UInt32.ofInt number) payload
        some { state with rx, offers := state.offers ++ [⟨number, payload, answer⟩] }
      else none
  | .drain =>
      let (rx, frames) := state.rx.drain
      some { state with
        rx
        trueNext := state.trueNext + frames.length
        delivered := state.delivered ++ frames }

def system : TransitionSystem Reception Call := .ofNext (· = start) next

/-- The receiver holds what was first taken for each number, and has delivered it for every
number before the next one. -/
structure Faithful (state : Reception) : Prop where
  tracks : state.rx.Tracks state.trueNext (firstTaken state.offers)
  counted : state.delivered.length = state.trueNext
  inRow : ReliableRx.InRow (firstTaken state.offers) 0 state.delivered

theorem start_faithful : Faithful start where
  tracks := ReliableRx.new_tracks
  counted := rfl
  inRow _ impossible := absurd impossible (Nat.not_lt_zero _)

theorem accept_faithful {state target : Reception} {number : Int} {payload : Payload}
    (faithful : Faithful state) (stepped : next state (.accept number payload) = some target) :
    Faithful target := by
  simp only [next] at stepped
  split at stepped
  · rename_i near
    cases stepped
    rcases faithful.tracks.accept payload (n := number) (by omega) (by omega) with
      ⟨refused, unchanged, _⟩ | ⟨taken, m, same, ahead, free, stored⟩
    · have kept := firstTaken_append_refused state.offers
        ⟨number, payload, (state.rx.accept (UInt32.ofInt number) payload).2⟩ refused
      refine ⟨?_, faithful.counted, ?_⟩
      · dsimp only
        rw [kept, unchanged]
        exact faithful.tracks
      · dsimp only
        rw [kept]
        exact faithful.inRow
    · have added := firstTaken_append_taken state.offers
        ⟨number, payload, (state.rx.accept (UInt32.ofInt number) payload).2⟩
        same taken free
      refine ⟨?_, faithful.counted, ?_⟩
      · dsimp only
        rw [added]
        exact stored
      · -- the new number has not been delivered, so the delivered row is untouched
        intro i inside
        obtain ⟨earlier, found, present⟩ := faithful.inRow i inside
        refine ⟨earlier, found, ?_⟩
        have counted := faithful.counted
        dsimp only at inside ⊢
        rw [added, Function.update_of_ne (by omega)]
        exact present
  · exact absurd stepped (by simp)

theorem drain_faithful {state target : Reception} (faithful : Faithful state)
    (stepped : next state .drain = some target) :
    Faithful target ∧ firstTaken target.offers target.trueNext = none := by
  cases stepped
  obtain ⟨tracks, inRow, missing⟩ := faithful.tracks.drain
  refine ⟨⟨tracks, ?_, ?_⟩, missing⟩
  · rw [List.length_append, faithful.counted]
  · apply faithful.inRow.append
    rw [faithful.counted, Nat.zero_add]
    exact inRow

theorem faithful_of_reachable {state : Reception} (reached : system.Reachable state) :
    Faithful state := by
  apply reached.invariant
  · rintro _ rfl
    exact start_faithful
  · intro state call target faithful stepped
    cases call with
    | accept number payload => exact accept_faithful faithful stepped
    | drain => exact (drain_faithful faithful stepped).1

/-- In every run the drained frames are numbers 0, 1, 2, … with no gap or repeat, each with
the payload first taken for it; a bit of the map is set exactly when its slot holds the frame
of its number; and a further `drain` stops only at a number that was never taken. -/
theorem delivers_inOrder_prefix (state : Reception) (reached : system.Reachable state) :
    (state.delivered.length = state.trueNext ∧
        ∀ k < state.trueNext, ∃ payload,
          state.delivered[k]? = some (serial k, payload) ∧
            firstTaken state.offers k = some payload) ∧
      (∀ i : Fin sackBits,
        bit state.rx.map i = true ↔
          firstTaken state.offers (state.trueNext + i) = some (state.rx.slots i)) ∧
      ∀ target, next state .drain = some target →
        firstTaken target.offers target.trueNext = none := by
  have faithful := faithful_of_reachable reached
  refine ⟨⟨faithful.counted, ?_⟩, ?_, ?_⟩
  · intro k delivered
    rw [← faithful.counted] at delivered
    obtain ⟨payload, found, first⟩ := faithful.inRow k delivered
    rw [Nat.zero_add] at found first
    exact ⟨payload, found, first⟩
  · intro i
    rw [faithful.tracks.window i]
    cases bit state.rx.map i <;> simp
  · intro target stepped
    exact (drain_faithful faithful stepped).2

/-- Frame 1 arrives before frame 0, and again after both were drained. -/
def reordered : Option Reception :=
  TransitionSystem.perform next start
    [.accept 1 (.single 11), .accept 0 (.single 10), .drain, .accept 1 (.single 12)]

theorem reordered_delivers_inOrder_prefix :
    ∃ state, reordered = some state ∧ state.trueNext = 2 ∧
      ∃ payload, state.delivered[1]? = some (serial 1, payload) ∧
        firstTaken state.offers 1 = some payload := by
  obtain ⟨state, performed⟩ := Option.isSome_iff_exists.mp (show reordered.isSome by decide)
  have two : reordered.map (·.trueNext) = some 2 := by decide
  rw [performed] at two
  have drained : state.trueNext = 2 := Option.some.inj two
  have reached : system.Reachable state :=
    TransitionSystem.reachable_of_perform rfl performed
  obtain ⟨⟨_, delivered⟩, _⟩ := delivers_inOrder_prefix state reached
  exact ⟨state, performed, drained, delivered 1 (by omega)⟩

end Reception

end Teleop.Link
