import Teleop.Lib.Word
import Teleop.Link.Backpressure

/-!
# The congestion estimate and the suggested bitrate

The network thread reports queue depth and blocked sends; they fold into one of four levels,
and the level into a share of the capacity.  The capacity may be set again at any time, also
below the credit that is held.  Of every call it is told exactly when its arithmetic fits.
-/

namespace Teleop.Link

open Teleop.Lib

/-- Discrete congestion levels. -/
inductive Congestion where
  | normal
  | elevated
  | high
  | critical
  deriving DecidableEq, Repr

/-- Fraction of the capacity suggested at a level, in basis points. -/
def Congestion.bitrateFractionBp : Congestion → UInt64
  | .normal => 10000
  | .elevated => 7000
  | .high => 4500
  | .critical => 2500

/-- The token bucket together with what the network thread reports. -/
structure Signal extends Backpressure where
  queueDepth : UInt64
  peakQueueDepth : UInt64
  blockedSends : UInt64
  /-- Blocked sends in the current window of about 100 ms. -/
  blockedWindow : UInt64
  windowStartNs : UInt64
  deriving DecidableEq, Repr

namespace Signal

def new (capacityBps : UInt64) : Signal where
  toBackpressure := .new capacityBps
  queueDepth := 0
  peakQueueDepth := 0
  blockedSends := 0
  blockedWindow := 0
  windowStartNs := 0

def setCapacityBps (signal : Signal) (bps : UInt64) : Signal :=
  { signal with capacityBps := max bps 1 }

def setQueueDepth (signal : Signal) (depth : UInt64) : Signal :=
  { signal with
    queueDepth := depth
    peakQueueDepth := max signal.peakQueueDepth depth }

/-- A send was blocked.  The counters are atomics, which wrap. -/
def noteSendBlocked (signal : Signal) (nowNs : UInt64) : Signal :=
  let start := signal.windowStartNs
  let fresh := start = 0 ∨ 100000000 < saturatingSub nowNs start
  { signal with
    blockedWindow := if fresh then 1 else signal.blockedWindow + 1
    windowStartNs := if fresh then max nowNs 1 else start
    blockedSends := signal.blockedSends + 1 }

/-- Folds queue depth and recent blocked sends into a level. -/
def congestion (signal : Signal) : Congestion :=
  let blocked := min signal.blockedWindow 64
  let score := saturatingAdd (saturatingMul signal.queueDepth 2) blocked
  if score = 0 then .normal
  else if score ≤ 7 then .elevated
  else if score ≤ 39 then .high
  else .critical

/-- Bitrate the encoder should target right now. -/
def suggestedBitrateBps (signal : Signal) : Option UInt64 := do
  let share ← checkedMul signal.capacityBps signal.congestion.bitrateFractionBp
  return share / 10000

inductive Call where
  | setCapacityBps (bps : UInt64)
  | setQueueDepth (depth : UInt64)
  | noteSendBlocked (nowNs : UInt64)
  | refill (nowNs : UInt64)
  | admitBytes (bytes nowNs : UInt64)
  | suggestedBitrateBps
  deriving DecidableEq, Repr

/-- One call; without a result when some arithmetic overflows. -/
def next (signal : Signal) : Call → Option Signal
  | .setCapacityBps bps => some (signal.setCapacityBps bps)
  | .setQueueDepth depth => some (signal.setQueueDepth depth)
  | .noteSendBlocked nowNs => some (signal.noteSendBlocked nowNs)
  | .refill nowNs => do
      let bp ← signal.refill nowNs
      return { signal with toBackpressure := bp }
  | .admitBytes bytes nowNs => do
      let (bp, _) ← signal.admitBytes bytes nowNs
      return { signal with toBackpressure := bp }
  | .suggestedBitrateBps => do
      let _ ← signal.suggestedBitrateBps
      return signal

/-- All sequences of calls on a signal created with one capacity. -/
def system (capacityBps : UInt64) : TransitionSystem Signal Call :=
  .ofNext (· = new capacityBps) next

end Signal

namespace Backpressure

variable {bp : Backpressure}

/-- The tokens that the time up to `nowNs` is worth. -/
def gained (bp : Backpressure) (nowNs : UInt64) : Nat :=
  wholeBytes bp.capacityBps.toNat (nowNs.toNat - bp.lastRefillNs.toNat) * 65536

/-- A refill that credits something needs a capacity whose second fits in the fixed point, and
room above the tokens for what it adds before it cuts to the rim. -/
def RefillFits (bp : Backpressure) (nowNs : UInt64) : Prop :=
  bp.gained nowNs = 0 ∨
    (bp.capacityBps.toNat < 2 ^ 51 ∧ bp.tokens.toNat + bp.gained nowNs < 2 ^ 64)

theorem gained_of_le {nowNs : UInt64} (le : nowNs.toNat ≤ bp.lastRefillNs.toNat) :
    bp.gained nowNs = 0 := by
  simp [gained, wholeBytes, Nat.sub_eq_zero_of_le le]

/-- Crediting overflows in the product or in the sum. -/
theorem credit_eq_none {gained : UInt64} (positive : 0 < gained.toNat)
    (beyond : ¬(bp.capacityBps.toNat < 2 ^ 51 ∧ bp.tokens.toNat + gained.toNat < 2 ^ 64)) :
    bp.credit gained = none := by
  have scale : tokenScale.toNat = 65536 := rfl
  have eighth : (bp.capacityBps / 8).toNat = bp.capacityBps.toNat / 8 := UInt64.toNat_div ..
  have some : (0 : UInt64) < gained := by simpa [UInt64.lt_iff_toNat_lt] using positive
  unfold credit
  rw [if_pos some]
  cases product : checkedMul (bp.capacityBps / 8) tokenScale with
  | none => rfl
  | some burstCap =>
      have narrow := (checkedMul_eq_some_iff.mp product).1
      rw [eighth, scale] at narrow
      cases sum : checkedAdd bp.tokens gained with
      | none => rfl
      | some total =>
          have room := (checkedAdd_eq_some_iff.mp sum).1
          exact absurd ⟨by omega, room⟩ beyond

/-- A refill that fits changes the time and the tokens only, and leaves no more tokens than
there were or than the bucket holds. -/
theorem refill_of_fits {nowNs : UInt64} (fits : bp.RefillFits nowNs) :
    ∃ lastRefillNs tokens, bp.refill nowNs = some { bp with lastRefillNs, tokens } ∧
      tokens.toNat ≤ max bp.tokens.toNat (bucket bp.capacityBps) := by
  by_cases late : nowNs.toNat ≤ bp.lastRefillNs.toNat
  · exact ⟨_, _, refill_of_le (UInt64.le_iff_toNat_le.mpr late), Nat.le_max_left _ _⟩
  · have later := Nat.lt_of_not_le late
    obtain ⟨elapsed, _⟩ :=
      checkedSub_of_le (a := nowNs) (b := bp.lastRefillNs) (Nat.le_of_lt later)
    have worth := bp.toNat_gained (Nat.le_of_lt later)
    unfold refill
    rw [if_neg (by rw [UInt64.le_iff_toNat_le]; exact late), elapsed, Option.bind_eq_bind,
      Option.bind_some]
    by_cases nothing : bp.gained nowNs = 0
    · refine ⟨nowNs, bp.tokens, ?_, Nat.le_max_left _ _⟩
      exact credit_of_eq_zero (worth.trans nothing)
    · obtain ⟨narrow, room⟩ := fits.resolve_left nothing
      rw [gained, ← worth] at nothing room
      obtain ⟨tokens, credited, value⟩ :=
        @credit_of_fits { bp with lastRefillNs := nowNs } _ (Nat.pos_of_ne_zero nothing)
          narrow room
      refine ⟨nowNs, tokens, credited, ?_⟩
      rw [value]
      exact Nat.le_trans (Nat.min_le_right _ _) (Nat.le_max_right _ _)

theorem refill_eq_none {nowNs : UInt64} (beyond : ¬bp.RefillFits nowNs) :
    bp.refill nowNs = none := by
  unfold RefillFits at beyond
  rw [not_or] at beyond
  obtain ⟨something, overflows⟩ := beyond
  have later : bp.lastRefillNs.toNat < nowNs.toNat :=
    Nat.lt_of_not_le fun late => something (gained_of_le late)
  obtain ⟨elapsed, _⟩ :=
    checkedSub_of_le (a := nowNs) (b := bp.lastRefillNs) (Nat.le_of_lt later)
  have worth := bp.toNat_gained (Nat.le_of_lt later)
  unfold refill
  rw [if_neg (by rw [UInt64.le_iff_toNat_le]; omega), elapsed, Option.bind_eq_bind,
    Option.bind_some]
  rw [gained, ← worth] at something overflows
  exact @credit_eq_none { bp with lastRefillNs := nowNs } _ (Nat.pos_of_ne_zero something)
    overflows

/-- Once the refill fits, there is an answer. -/
theorem admitBytes_eq_some_iff (bytes : UInt64) {nowNs : UInt64} :
    (∃ result, bp.admitBytes bytes nowNs = some result) ↔ bp.RefillFits nowNs := by
  unfold admitBytes
  generalize saturatingMul bytes tokenScale = want
  constructor
  · rintro ⟨result, admitted⟩
    by_contra beyond
    rw [refill_eq_none beyond] at admitted
    cases admitted
  · intro fits
    obtain ⟨lastRefillNs, tokens, refilled, _⟩ := refill_of_fits fits
    rw [refilled, Option.bind_eq_bind, Option.bind_some]
    rcases spend_cases { bp with lastRefillNs, tokens } want with ⟨_, _, spent, _⟩ | ⟨_, spent⟩
    · exact ⟨_, spent⟩
    · exact ⟨_, spent⟩

end Backpressure

namespace Signal

/-- What a call needs so that none of its arithmetic overflows. -/
def Fits (signal : Signal) : Call → Prop
  | .refill nowNs | .admitBytes _ nowNs => signal.RefillFits nowNs
  | .suggestedBitrateBps =>
      signal.capacityBps.toNat * signal.congestion.bitrateFractionBp.toNat < 2 ^ 64
  | _ => True

/-- The capacity a call sets, if it sets one, is among those allowed. -/
def Call.Within (allowed : UInt64 → Prop) : Call → Prop
  | .setCapacityBps bps => allowed bps
  | _ => True

/-- The greatest capacity of which ten thousand basis points can be taken. -/
def greatestCapacity : Nat := 1844674407370955

variable {signal target : Signal}

/-- A level never asks for more than the whole capacity. -/
theorem bitrateFractionBp_le (level : Congestion) : level.bitrateFractionBp.toNat ≤ 10000 := by
  cases level <;> decide

theorem suggestedBitrateBps_eq_some_iff {rate : UInt64} :
    signal.suggestedBitrateBps = some rate ↔
      signal.Fits .suggestedBitrateBps ∧
        rate = signal.capacityBps * signal.congestion.bitrateFractionBp / 10000 := by
  unfold suggestedBitrateBps
  simp only [Option.bind_eq_bind, Option.bind_eq_some_iff, checkedMul_eq_some_iff]
  constructor
  · rintro ⟨share, ⟨fits, rfl⟩, rate⟩
    exact ⟨fits, (Option.some.inj rate).symm⟩
  · rintro ⟨fits, rfl⟩
    exact ⟨_, ⟨fits, rfl⟩, rfl⟩

theorem suggestedBitrateBps_le {rate : UInt64} (suggested : signal.suggestedBitrateBps = some rate) :
    rate ≤ signal.capacityBps := by
  obtain ⟨fits, rfl⟩ := suggestedBitrateBps_eq_some_iff.mp suggested
  have whole := bitrateFractionBp_le signal.congestion
  obtain ⟨_, product⟩ := checkedMul_of_lt fits
  have divided : (signal.capacityBps * signal.congestion.bitrateFractionBp / 10000).toNat =
      signal.capacityBps.toNat * signal.congestion.bitrateFractionBp.toNat / 10000 := by
    rw [UInt64.toNat_div, product]
    rfl
  rw [UInt64.le_iff_toNat_le, divided]
  apply Nat.div_le_of_le_mul
  rw [Nat.mul_comm 10000]
  exact Nat.mul_le_mul_left _ whole

theorem fits_refill (nowNs : UInt64) :
    signal.Fits (.refill nowNs) ↔ signal.RefillFits nowNs := Iff.rfl

theorem fits_admitBytes (bytes nowNs : UInt64) :
    signal.Fits (.admitBytes bytes nowNs) ↔ signal.RefillFits nowNs := Iff.rfl

/-- A call has a result exactly when its arithmetic fits. -/
theorem next_eq_some_iff (signal : Signal) (call : Call) :
    (∃ target, signal.next call = some target) ↔ signal.Fits call := by
  cases call with
  | setCapacityBps bps => exact ⟨fun _ => trivial, fun _ => ⟨_, rfl⟩⟩
  | setQueueDepth depth => exact ⟨fun _ => trivial, fun _ => ⟨_, rfl⟩⟩
  | noteSendBlocked nowNs => exact ⟨fun _ => trivial, fun _ => ⟨_, rfl⟩⟩
  | refill nowNs =>
      by_cases fits : signal.RefillFits nowNs
      · obtain ⟨_, _, refilled, _⟩ := Backpressure.refill_of_fits fits
        simp [next, fits_refill, fits, refilled]
      · simp [next, fits_refill, fits, Backpressure.refill_eq_none fits]
  | admitBytes bytes nowNs =>
      rw [fits_admitBytes, ← Backpressure.admitBytes_eq_some_iff bytes]
      constructor
      · rintro ⟨target, stepped⟩
        obtain ⟨result, admitted, _⟩ := Option.bind_eq_some_iff.mp stepped
        exact ⟨result, admitted⟩
      · rintro ⟨⟨bp, fresh⟩, admitted⟩
        exact ⟨{ signal with toBackpressure := bp }, by simp only [next, admitted]; rfl⟩
  | suggestedBitrateBps =>
      constructor
      · rintro ⟨target, stepped⟩
        obtain ⟨rate, suggested, _⟩ := Option.bind_eq_some_iff.mp stepped
        exact (suggestedBitrateBps_eq_some_iff.mp suggested).1
      · intro fits
        have suggested := suggestedBitrateBps_eq_some_iff.mpr ⟨fits, rfl⟩
        exact ⟨signal, by simp [next, suggested]⟩

/-- A capacity of which every share can be taken, and no more tokens than any such capacity
has room for. -/
structure Modest (signal : Signal) : Prop where
  capacity : signal.capacityBps.toNat ≤ greatestCapacity
  tokens : signal.tokens.toNat ≤ greatestCapacity / 8 * 65536

theorem Modest.bucket_le (modest : signal.Modest) :
    Backpressure.bucket signal.capacityBps ≤ greatestCapacity / 8 * 65536 := by
  have capacity := modest.capacity
  unfold Backpressure.bucket
  simp only [greatestCapacity] at capacity ⊢
  omega

theorem Modest.fits (modest : signal.Modest) (call : Call) : signal.Fits call := by
  have capacity := modest.capacity
  have tokens := modest.tokens
  simp only [greatestCapacity] at capacity tokens
  have refillFits (nowNs : UInt64) : signal.RefillFits nowNs := by
    have few := Backpressure.wholeBytes_le_two_pow signal.capacityBps.toNat
      (nowNs.toNat - signal.lastRefillNs.toNat)
    refine .inr ⟨by omega, ?_⟩
    unfold Backpressure.gained
    omega
  cases call with
  | refill nowNs => exact refillFits nowNs
  | admitBytes bytes nowNs => exact refillFits nowNs
  | suggestedBitrateBps =>
      have whole := bitrateFractionBp_le signal.congestion
      exact Nat.lt_of_le_of_lt (Nat.mul_le_mul capacity whole) (by decide)
  | _ => trivial

theorem new_modest {capacityBps : UInt64} (small : capacityBps.toNat ≤ greatestCapacity) :
    (new capacityBps).Modest := by
  refine ⟨?_, Nat.zero_le _⟩
  change (max capacityBps 1).toNat ≤ greatestCapacity
  rw [UInt64.toNat_max]
  exact Nat.max_le.mpr ⟨small, by decide⟩

/-- A refill keeps the credit within what modest capacities have room for. -/
theorem Modest.refill (modest : signal.Modest) {nowNs : UInt64} {bp : Backpressure}
    (refilled : signal.toBackpressure.refill nowNs = some bp) :
    Modest { signal with toBackpressure := bp } := by
  have fits : signal.RefillFits nowNs := modest.fits (.refill nowNs)
  obtain ⟨lastRefillNs, tokens, value, le⟩ := Backpressure.refill_of_fits fits
  rw [value] at refilled
  obtain rfl := Option.some.inj refilled
  exact ⟨modest.capacity, Nat.le_trans le (Nat.max_le.mpr ⟨modest.tokens, modest.bucket_le⟩)⟩

/-- Spending leaves no more tokens than there were. -/
theorem Modest.spend (modest : signal.Modest) {want : UInt64} {bp : Backpressure}
    {granted : Bool} (spent : signal.toBackpressure.spend want = some (bp, granted)) :
    Modest { signal with toBackpressure := bp } := by
  rcases signal.toBackpressure.spend_cases want with ⟨_, rest, value, left⟩ | ⟨_, value⟩
  · rw [value] at spent
    obtain ⟨rfl, -⟩ := Prod.mk.inj (Option.some.inj spent)
    refine ⟨modest.capacity, ?_⟩
    have tokens := modest.tokens
    simp only
    omega
  · rw [value] at spent
    obtain ⟨rfl, -⟩ := Prod.mk.inj (Option.some.inj spent)
    exact ⟨modest.capacity, modest.tokens⟩

theorem Modest.next {allowed : UInt64 → Prop}
    (small : ∀ capacityBps, allowed capacityBps → capacityBps.toNat ≤ greatestCapacity)
    (modest : signal.Modest) {call : Call} (within : call.Within allowed)
    (stepped : signal.next call = some target) : target.Modest := by
  cases call with
  | setCapacityBps bps =>
      obtain rfl := Option.some.inj stepped
      exact ⟨(new_modest (small bps within)).capacity, modest.tokens⟩
  | setQueueDepth depth =>
      obtain rfl := Option.some.inj stepped
      exact ⟨modest.capacity, modest.tokens⟩
  | noteSendBlocked nowNs =>
      obtain rfl := Option.some.inj stepped
      exact ⟨modest.capacity, modest.tokens⟩
  | refill nowNs =>
      obtain ⟨bp, refilled, stepped⟩ := Option.bind_eq_some_iff.mp stepped
      obtain rfl := Option.some.inj stepped
      exact modest.refill refilled
  | admitBytes bytes nowNs =>
      obtain ⟨⟨bp, granted⟩, admitted, stepped⟩ := Option.bind_eq_some_iff.mp stepped
      obtain rfl := Option.some.inj stepped
      obtain ⟨refilled, credited, spent⟩ := Option.bind_eq_some_iff.mp admitted
      exact (modest.refill credited).spend spent
  | suggestedBitrateBps =>
      obtain ⟨_, _, stepped⟩ := Option.bind_eq_some_iff.mp stepped
      obtain rfl := Option.some.inj stepped
      exact modest

/-- A call that sets no other capacity than those allowed. -/
abbrev runsWithin (allowed : UInt64 → Prop) (capacityBps : UInt64) :
    TransitionSystem Signal Call :=
  (system capacityBps).restrict fun _ call => call.Within allowed

theorem modest_of_reachable {allowed : UInt64 → Prop}
    (small : ∀ capacityBps, allowed capacityBps → capacityBps.toNat ≤ greatestCapacity)
    {capacityBps : UInt64} (given : allowed capacityBps)
    (reached : (runsWithin allowed capacityBps).Reachable signal) : signal.Modest := by
  apply reached.invariant (P := Modest)
  · intro signal start
    obtain rfl := start
    exact new_modest (small capacityBps given)
  · intro signal call target modest step
    exact modest.next small step.1 step.2

/-- With whatever set of capacities the signal is used, no call of any run overflows exactly when
ten thousand times each of them fits in 64 bits.  Beyond it a call goes through exactly when it
fits, and what is suggested never exceeds the capacity. -/
theorem overflowFree_iff (allowed : UInt64 → Prop) :
    ((∀ capacityBps, allowed capacityBps →
        ∀ signal, (runsWithin allowed capacityBps).Reachable signal →
          ∀ call : Call, call.Within allowed → ∃ target, signal.next call = some target) ↔
      ∀ capacityBps, allowed capacityBps → capacityBps.toNat ≤ greatestCapacity) ∧
    (∀ capacityBps signal, (system capacityBps).Reachable signal →
      (∀ call, (∃ target, signal.next call = some target) ↔ signal.Fits call) ∧
        ∀ rate, signal.suggestedBitrateBps = some rate → rate ≤ signal.capacityBps) := by
  refine ⟨⟨?_, ?_⟩, ?_⟩
  · intro overflowFree capacityBps given
    have start : (runsWithin allowed capacityBps).Reachable (new capacityBps) := .of_initial rfl
    have answered := overflowFree capacityBps given _ start .suggestedBitrateBps trivial
    have fits := (next_eq_some_iff _ _).mp answered
    -- nothing queued, nothing blocked: the whole capacity is suggested
    have calm : (new capacityBps).congestion = .normal := rfl
    have product : (new capacityBps).capacityBps.toNat *
        Congestion.normal.bitrateFractionBp.toNat < 2 ^ 64 := calm ▸ fits
    have tenThousand : Congestion.normal.bitrateFractionBp.toNat = 10000 := by decide
    have most : capacityBps.toNat ≤ (new capacityBps).capacityBps.toNat := by
      unfold new Backpressure.new
      rw [UInt64.toNat_max]
      exact Nat.le_max_left _ _
    rw [tenThousand] at product
    unfold greatestCapacity
    omega
  · intro small capacityBps given signal reached call _
    exact (next_eq_some_iff _ _).mpr ((modest_of_reachable small given reached).fits call)
  · intro capacityBps signal _
    exact ⟨next_eq_some_iff signal, fun _ => suggestedBitrateBps_le⟩

/-- From 2^51 on the bucket no longer fits in the tokens, and already from a ten-thousandth of
the range on the share of the capacity does not fit. -/
theorem not_overflowFree :
    ¬∀ capacityBps signal, (system capacityBps).Reachable signal →
      ∀ call, ∃ target, signal.next call = some target := by
  intro overflowFree
  have start (capacityBps : UInt64) : (system capacityBps).Reachable (new capacityBps) :=
    .of_initial rfl
  have overflows : (new 2251799813685248).next (.refill 1) = none ∧
      (new 1844674407370956).next .suggestedBitrateBps = none := by decide +kernel
  obtain ⟨target, stepped⟩ := overflowFree _ _ (start 2251799813685248) (.refill 1)
  rw [overflows.1] at stepped
  cases stepped

end Signal

end Teleop.Link
