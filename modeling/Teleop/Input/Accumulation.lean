import Teleop.Input.Evdev
import Teleop.Lib.Bytes
import Teleop.Lib.Word

/-!
# Buttons and timestamps of an evdev device

Events are decoded from fixed records and accumulated: a key sets or clears the bit of its code
modulo 32, and every event leaves its time.
-/

namespace Teleop.Input

open Teleop.Lib Teleop.Lib.FloatOps

/-- One decoded event of the kernel. -/
structure EvdevEvent where
  tvSec : Int64
  tvUsec : Int64
  kind : UInt16
  code : UInt16
  value : Int32
  deriving DecidableEq

/-- Size of one record. -/
def eventSize : Nat := 24

/-- Parses the record at an offset, if all of it is there. -/
def decodeEvent (buf : List UInt8) (off : Nat) : Option EvdevEvent :=
  if buf.length < off + eventSize then none
  else
    match decodeFields [8, 8, 2, 2, 4] (buf.drop off) with
    | [tvSec, tvUsec, kind, code, value] =>
        some {
          tvSec := (UInt64.ofNat tvSec).toInt64
          tvUsec := (UInt64.ofNat tvUsec).toInt64
          kind := .ofNat kind
          code := .ofNat code
          value := (UInt32.ofNat value).toInt32 }
    | _ => none

/-- The record of an event. -/
def eventBytes (ev : EvdevEvent) : List UInt8 :=
  encodeFields [(8, ev.tvSec.toUInt64.toNat), (8, ev.tvUsec.toUInt64.toNat), (2, ev.kind.toNat),
    (2, ev.code.toNat), (4, ev.value.toUInt32.toNat)]

/-- Every event is decoded from its record, so any sequence of events may be received. -/
theorem decodeEvent_eventBytes (ev : EvdevEvent) (before behind : List UInt8) :
    decodeEvent (before ++ (eventBytes ev ++ behind)) before.length = some ev := by
  have size : (eventBytes ev).length = eventSize := by
    rw [eventBytes, length_encodeFields]
    rfl
  have fields := decodeFields_encodeFields [(8, ev.tvSec.toUInt64.toNat),
    (8, ev.tvUsec.toUInt64.toNat), (2, ev.kind.toNat), (2, ev.code.toNat),
    (4, ev.value.toUInt32.toNat)] behind
  unfold decodeEvent
  rw [List.drop_left, if_neg (by simp [size])]
  unfold eventBytes
  simp only [List.map_cons, List.map_nil] at fields
  rw [fields]
  simp

namespace EvdevAccumulator

variable {S : Type} [FloatOps S]

omit [FloatOps S] in
/-- Applies one press or release. -/
def pushKey (acc : EvdevAccumulator S) (code : UInt16) (down : Bool) :
    EvdevAccumulator S × Bool :=
  let mask : UInt32 := 1 <<< (code % 32).toUInt32
  ({ acc with buttons := if down then acc.buttons ||| mask else acc.buttons &&& ~~~mask }, true)

/-- Applies one event; without a result when a subtraction overflows. -/
def push (acc : EvdevAccumulator S) (ev : EvdevEvent) : Option (EvdevAccumulator S × Bool) :=
  let acc := { acc with lastTime := (ev.tvSec, ev.tvUsec) }
  if ev.kind = evAbs then acc.pushAbs ev.code ev.value
  else if ev.kind = evKey then some (acc.pushKey ev.code (ev.value ≠ 0))
  else some (acc, false)

/-- Applies some events. -/
def pushAll (acc : EvdevAccumulator S) : List EvdevEvent → Option (EvdevAccumulator S)
  | [] => some acc
  | ev :: rest => do
      let (acc, _) ← acc.push ev
      acc.pushAll rest

omit [FloatOps S] in
/-- Copies the accumulated state into a report. -/
def snapshot (acc : EvdevAccumulator S) (out : ControllerReport S) : ControllerReport S :=
  { out with
    axes := acc.axes
    buttons := acc.buttons
    timestampNs := acc.lastTime.1.toUInt64 * 1000000000 + acc.lastTime.2.toUInt64 }

end EvdevAccumulator

/-- Whether the last key event of some codes was a press; up before the first one. -/
def held (codes : UInt16 → Bool) (events : List EvdevEvent) : Bool :=
  events.foldl (fun down ev =>
    if ev.kind = evKey ∧ codes ev.code then decide (ev.value ≠ 0) else down) false

/-- An event after some others decides for its own codes. -/
theorem held_concat (codes : UInt16 → Bool) (events : List EvdevEvent) (ev : EvdevEvent) :
    held codes (events ++ [ev]) =
      if ev.kind = evKey ∧ codes ev.code then decide (ev.value ≠ 0) else held codes events := by
  rw [held, List.foldl_append]
  rfl

/-- The codes whose events set or clear a bit. -/
def sharing (b : Nat) (code : UInt16) : Bool := code.toNat % 32 = b

namespace EvdevAccumulator

variable {S : Type} [FloatOps S] {acc after : EvdevAccumulator S} {ev : EvdevEvent} {moved : Bool}

theorem toNat_toUInt32_mod (code : UInt16) : (code % 32).toUInt32.toNat = code.toNat % 32 := by
  simp

/-- A sample of an axis leaves buttons and time alone. -/
theorem pushAbs_keeps {code : UInt16} {value : Int32}
    (pushed : acc.pushAbs code value = some (after, moved)) :
    after.buttons = acc.buttons ∧ after.lastTime = acc.lastTime := by
  unfold pushAbs at pushed
  split at pushed
  · cases pushed
    exact ⟨rfl, rfl⟩
  · obtain ⟨width, _, pushed⟩ := Option.bind_eq_some_iff.mp pushed
    obtain ⟨offset, _, pushed⟩ := Option.bind_eq_some_iff.mp pushed
    cases pushed
    exact ⟨rfl, rfl⟩

omit [FloatOps S] in
theorem bit_pushKey (acc : EvdevAccumulator S) (code : UInt16) (down : Bool) (b : Nat) :
    bit (acc.pushKey code down).1.buttons b =
      if sharing b code then down else bit acc.buttons b := by
  have small : (code % 32).toUInt32.toNat < 32 := by
    rw [toNat_toUInt32_mod]
    exact Nat.mod_lt _ (by decide)
  unfold pushKey sharing
  cases down with
  | false =>
      simp only [Bool.false_eq_true, if_false, bit_and_not_mask acc.buttons small,
        toNat_toUInt32_mod]
      by_cases same : code.toNat % 32 = b
      · simp [same]
      · simp [same]
  | true =>
      simp only [if_true, bit_or_mask acc.buttons small, toNat_toUInt32_mod]
      by_cases same : code.toNat % 32 = b
      · simp [same]
      · simp [same]

/-- What one event does to a bit, and the time it leaves. -/
theorem push_spec (pushed : acc.push ev = some (after, moved)) :
    (∀ b, bit after.buttons b =
      if ev.kind = evKey ∧ sharing b ev.code then decide (ev.value ≠ 0) else bit acc.buttons b) ∧
      after.lastTime = (ev.tvSec, ev.tvUsec) := by
  unfold push at pushed
  dsimp only at pushed
  split at pushed
  · rename_i axis
    have other : ev.kind ≠ evKey := by
      rw [axis]
      decide
    obtain ⟨buttons, time⟩ := pushAbs_keeps pushed
    exact ⟨fun b => by simp [other, buttons], time⟩
  · split at pushed
    · rename_i key
      have state := congrArg Prod.fst (Option.some.inj pushed)
      change _ = after at state
      rw [← state]
      refine ⟨?_, rfl⟩
      intro b
      rw [bit_pushKey]
      simp [key]
    · rename_i other
      cases pushed
      exact ⟨fun b => by simp [other], rfl⟩

theorem pushAll_append (acc : EvdevAccumulator S) (first second : List EvdevEvent) :
    acc.pushAll (first ++ second) = (acc.pushAll first).bind (·.pushAll second) := by
  induction first generalizing acc with
  | nil => rfl
  | cons ev rest inductionHypothesis =>
      rw [List.cons_append, pushAll, pushAll]
      cases acc.push ev with
      | none => rfl
      | some result => exact inductionHypothesis result.1

/-- After some events a bit is what the last key event of its codes said. -/
theorem bit_pushAll {events : List EvdevEvent} (released : acc.buttons = 0)
    (run : acc.pushAll events = some after) (b : Nat) :
    bit after.buttons b = held (sharing b) events := by
  induction events using List.reverseRecOn generalizing after with
  | nil =>
      cases run
      simp [released, held]
  | append_singleton events ev inductionHypothesis =>
      rw [pushAll_append] at run
      obtain ⟨before, earlier, run⟩ := Option.bind_eq_some_iff.mp run
      obtain ⟨⟨next, moved⟩, pushed, run⟩ := Option.bind_eq_some_iff.mp run
      cases run
      rw [(push_spec pushed).1, held_concat, inductionHypothesis earlier]

end EvdevAccumulator

/-- The time of an event in microseconds. -/
def EvdevEvent.micros (ev : EvdevEvent) : Int := ev.tvSec.toInt * 10 ^ 6 + ev.tvUsec.toInt

/-- A time as the kernel gives it: microseconds below a second, and nanoseconds that fit. -/
structure EvdevEvent.Normal (ev : EvdevEvent) : Prop where
  sec : 0 ≤ ev.tvSec.toInt
  usec : 0 ≤ ev.tvUsec.toInt
  carried : ev.tvUsec.toInt < 10 ^ 6
  fits : ev.tvSec.toInt * 10 ^ 9 + ev.tvUsec.toInt * 10 ^ 3 < 2 ^ 64

section Time

variable {S : Type} [FloatOps S] {start after : EvdevAccumulator S} {ev : EvdevEvent}

theorem toNat_toUInt64 {x : Int64} (nonneg : 0 ≤ x.toInt) :
    (x.toUInt64.toNat : Int) = x.toInt := by
  have bound := x.toUInt64.toNat_lt
  have signed : x.toInt = (x.toUInt64.toNat : Int).bmod (2 ^ 64) :=
    BitVec.toInt_eq_toNat_bmod x.toBitVec
  rw [Int.bmod_def] at signed
  omega

omit [FloatOps S] in
theorem toNat_timestamp (normal : ev.Normal) (time : after.lastTime = (ev.tvSec, ev.tvUsec))
    (out : ControllerReport S) :
    ((after.snapshot out).timestampNs.toNat : Int) =
      ev.tvSec.toInt * 10 ^ 9 + ev.tvUsec.toInt := by
  have sec := toNat_toUInt64 normal.sec
  have usec := toNat_toUInt64 normal.usec
  have carried := normal.carried
  have nonneg := normal.usec
  have fits := normal.fits
  have scale : (1000000000 : UInt64).toNat = 10 ^ 9 := rfl
  unfold EvdevAccumulator.snapshot
  simp only [time]
  rw [UInt64.toNat_add, UInt64.toNat_mul, scale]
  omega

/-- An event that is taken leaves its time. -/
theorem lastTime_pushAll {events : List EvdevEvent}
    (run : start.pushAll (events ++ [ev]) = some after) :
    after.lastTime = (ev.tvSec, ev.tvUsec) := by
  rw [EvdevAccumulator.pushAll_append] at run
  obtain ⟨before, _, run⟩ := Option.bind_eq_some_iff.mp run
  obtain ⟨⟨next, moved⟩, pushed, run⟩ := Option.bind_eq_some_iff.mp run
  cases run
  exact (EvdevAccumulator.push_spec pushed).2

/-- After any events a bit of the report is what the last key event of a code congruent to it
modulo 32 said.  For times as the kernel gives them the timestamp lies in the second of the last
event, and is no earlier than after any events that end no later. -/
theorem snapshot_spec (start : EvdevAccumulator S) (released : start.buttons = 0)
    (events : List EvdevEvent) (ev : EvdevEvent) (after : EvdevAccumulator S)
    (run : start.pushAll (events ++ [ev]) = some after) (out : ControllerReport S) :
    (∀ b, bit (after.snapshot out).buttons b = held (sharing b) (events ++ [ev])) ∧
      (ev.Normal →
        ((after.snapshot out).timestampNs.toNat : Int) / 10 ^ 9 = ev.tvSec.toInt ∧
          ∀ others other next, start.pushAll (others ++ [other]) = some next → other.Normal →
            other.micros ≤ ev.micros →
              (next.snapshot out).timestampNs ≤ (after.snapshot out).timestampNs) := by
  refine ⟨fun b => EvdevAccumulator.bit_pushAll released run b, ?_⟩
  intro normal
  have stamp := toNat_timestamp normal (lastTime_pushAll run) out
  have nonneg := normal.usec
  have carried := normal.carried
  refine ⟨by omega, ?_⟩
  intro others other next run' normal' earlier
  have stamp' := toNat_timestamp normal' (lastTime_pushAll run') out
  have nonneg' := normal'.usec
  have carried' := normal'.carried
  unfold EvdevEvent.micros at earlier
  rw [UInt64.le_iff_toNat_le]
  omega

end Time

section Sharing

/-- A press and a release of a key. -/
def keyEvent (tvSec tvUsec : Int64) (code : UInt16) (value : Int32) : EvdevEvent :=
  { tvSec, tvUsec, kind := evKey, code, value }

/-- A press of a button of a gamepad, and the release of one of a mouse. -/
def crossedKeys : List EvdevEvent := [keyEvent 5 1 304 1, keyEvent 5 2 272 0]

def crossedAfter : EvdevAccumulator ℚ :=
  { (EvdevAccumulator.default : EvdevAccumulator ℚ) with lastTime := (5, 2) }

theorem pushAll_crossedKeys :
    (EvdevAccumulator.default : EvdevAccumulator ℚ).pushAll crossedKeys = some crossedAfter := rfl

theorem snapshot_spec_crossedKeys :
    (∀ b, bit (crossedAfter.snapshot .default).buttons b = held (sharing b) crossedKeys) ∧
      ((keyEvent 5 2 272 0).Normal →
        ((crossedAfter.snapshot .default).timestampNs.toNat : Int) / 10 ^ 9 = (5 : Int64).toInt ∧
          ∀ others other next,
            (EvdevAccumulator.default : EvdevAccumulator ℚ).pushAll (others ++ [other]) =
                some next → other.Normal → other.micros ≤ (keyEvent 5 2 272 0).micros →
              (next.snapshot .default).timestampNs ≤
                (crossedAfter.snapshot .default).timestampNs) :=
  snapshot_spec .default rfl [keyEvent 5 1 304 1] (keyEvent 5 2 272 0) crossedAfter
    pushAll_crossedKeys .default

/-- The report as it was asked for: every key for itself, and the time in nanoseconds. -/
structure Faithful (events : List EvdevEvent) (report : ControllerReport ℚ) : Prop where
  buttons : ∀ code : UInt16, bit report.buttons (code.toNat % 32) = held (· = code) events
  timestamp : ∀ ev ∈ events.getLast?, 0 ≤ ev.tvSec.toInt → 0 ≤ ev.tvUsec.toInt →
    ev.tvSec.toInt * 10 ^ 9 + ev.tvUsec.toInt * 10 ^ 3 < 2 ^ 64 →
      (report.timestampNs.toNat : Int) = ev.tvSec.toInt * 10 ^ 9 + ev.tvUsec.toInt * 10 ^ 3

/-- The button of the gamepad is still held down. -/
theorem not_snapshot_faithful :
    ¬∀ events after, (EvdevAccumulator.default : EvdevAccumulator ℚ).pushAll events = some after →
      Faithful events (after.snapshot .default) := by
  intro faithful
  have gamepad := (faithful crossedKeys crossedAfter pushAll_crossedKeys).buttons 304
  exact absurd gamepad (by decide)

end Sharing

end Teleop.Input
