import Mathlib.Tactic.Ring
import Teleop.Lib.Checked
import Teleop.Lib.TransitionSystem

/-!
# The admission bucket of the backpressure signal

A token bucket in fixed point: credit accrues with the time since the last
refill, up to one second of link capacity, and admission spends it.  Arithmetic
that the code leaves to trap on overflow is checked here, so a call that would
overflow has no result.
-/

namespace Teleop.Link

open Teleop.Lib

/-- Fixed-point scale of the tokens, `1 << 16` to a byte. -/
def tokenScale : UInt64 := 65536

/-- What the token bucket reads and writes of the signal. -/
structure Backpressure where
  capacityBps : UInt64
  tokens : UInt64
  lastRefillNs : UInt64
  droppedFrames : UInt64
  deriving DecidableEq, Repr

namespace Backpressure

/-- The signal of an uplink of about `capacityBps`, at least one bit per second. -/
def new (capacityBps : UInt64) : Backpressure where
  capacityBps := max capacityBps 1
  tokens := 0
  lastRefillNs := 0
  droppedFrames := 0

/-- `fetch_add` on the counter of drops, which wraps. -/
def noteDrop (bp : Backpressure) : Backpressure :=
  { bp with droppedFrames := bp.droppedFrames + 1 }

/-- Credit `gained` tokens, up to one second of capacity. -/
def credit (bp : Backpressure) (gained : UInt64) : Option Backpressure :=
  if 0 < gained then do
    let burstCap ← checkedMul (bp.capacityBps / 8) tokenScale
    let sum ← checkedAdd bp.tokens gained
    return { bp with tokens := min sum (max burstCap tokenScale) }
  else return bp

/-- Credits the bucket for the time since the last refill. -/
def refill (bp : Backpressure) (nowNs : UInt64) : Option Backpressure :=
  if nowNs ≤ bp.lastRefillNs then return bp
  else do
    let elapsed ← checkedSub nowNs bp.lastRefillNs
    let gained :=
      saturatingMul (saturatingMul bp.capacityBps elapsed / 8000000000) tokenScale
    { bp with lastRefillNs := nowNs }.credit gained

/-- Spend `want` tokens if they are there, else count a drop. -/
def spend (bp : Backpressure) (want : UInt64) : Option (Backpressure × Bool) :=
  if bp.tokens ≥ want then do
    let rest ← checkedSub bp.tokens want
    return ({ bp with tokens := rest }, true)
  else return (bp.noteDrop, false)

/-- Attempts to spend `bytes` of credit at `nowNs`. -/
def admitBytes (bp : Backpressure) (bytes nowNs : UInt64) : Option (Backpressure × Bool) := do
  let refilled ← bp.refill nowNs
  refilled.spend (saturatingMul bytes tokenScale)

/-- The most tokens the bucket holds: one second of capacity, and at least one byte. -/
def bucket (capacityBps : UInt64) : Nat := max (capacityBps.toNat / 8) 1 * 65536

/-- The whole bytes credited for `elapsed` nanoseconds.  The product saturates. -/
def wholeBytes (capacityBps elapsed : Nat) : Nat :=
  min (capacityBps * elapsed) (2 ^ 64 - 1) / 8000000000

/-- Whole bytes never credit more than the capacity allows for. -/
theorem wholeBytes_le (capacityBps elapsed : Nat) :
    wholeBytes capacityBps elapsed * 8000000000 ≤ capacityBps * elapsed :=
  Nat.le_trans (Nat.div_mul_le_self _ _) (Nat.min_le_left _ _)

/-- At most 2^64 bit-nanoseconds make at most 2^32 bytes. -/
theorem wholeBytes_le_two_pow (capacityBps elapsed : Nat) :
    wholeBytes capacityBps elapsed ≤ 2 ^ 32 := by
  unfold wholeBytes
  omega

/-- A bucket of a capacity for which its arithmetic fits, filled no higher than its rim. -/
structure Bounded (bp : Backpressure) : Prop where
  small : bp.capacityBps.toNat ≤ 2 ^ 50
  filled : bp.tokens.toNat ≤ bucket bp.capacityBps

variable {bp : Backpressure}

theorem bucket_le {capacityBps : UInt64} (small : capacityBps.toNat ≤ 2 ^ 50) :
    bucket capacityBps ≤ 2 ^ 63 := by
  unfold bucket
  omega

/-- Crediting something fills the bucket to its rim at most. -/
theorem credit_of_fits {gained : UInt64} (positive : 0 < gained.toNat)
    (narrow : bp.capacityBps.toNat < 2 ^ 51)
    (room : bp.tokens.toNat + gained.toNat < 2 ^ 64) :
    ∃ tokens, bp.credit gained = some { bp with tokens } ∧
      tokens.toNat = min (bp.tokens.toNat + gained.toNat) (bucket bp.capacityBps) := by
  have scale : tokenScale.toNat = 65536 := rfl
  have eighth : (bp.capacityBps / 8).toNat = bp.capacityBps.toNat / 8 := UInt64.toNat_div ..
  obtain ⟨cap, capValue⟩ := checkedMul_of_lt (a := bp.capacityBps / 8) (b := tokenScale)
    (by rw [eighth, scale]; omega)
  obtain ⟨sum, sumValue⟩ := checkedAdd_of_lt room
  have some : (0 : UInt64) < gained := by simpa [UInt64.lt_iff_toNat_lt] using positive
  unfold credit
  rw [if_pos some, cap, sum]
  simp only [Option.bind_eq_bind, Option.bind_some]
  refine ⟨_, rfl, ?_⟩
  rw [UInt64.toNat_min, UInt64.toNat_max, capValue, sumValue, eighth, scale, bucket,
    ← Nat.mul_max_mul_right, Nat.one_mul]

theorem credit_of_eq_zero {gained : UInt64} (zero : gained.toNat = 0) :
    bp.credit gained = some bp := by
  unfold credit
  rw [if_neg (by rw [UInt64.lt_iff_toNat_lt, zero]; exact Nat.lt_irrefl 0)]
  rfl

/-- Crediting a bucket for which the arithmetic fits does not overflow. -/
theorem credit_of_bounded (bounded : bp.Bounded) {gained : UInt64}
    (modest : gained.toNat ≤ 2 ^ 62) :
    ∃ tokens, bp.credit gained = some { bp with tokens } ∧
      tokens.toNat = min (bp.tokens.toNat + gained.toNat) (bucket bp.capacityBps) := by
  have small := bounded.small
  have filled := bounded.filled
  have rim := bucket_le small
  by_cases positive : 0 < gained.toNat
  · exact credit_of_fits positive (by omega) (by omega)
  · refine ⟨bp.tokens, credit_of_eq_zero (by omega), ?_⟩
    omega

theorem refill_of_le {nowNs : UInt64} (le : nowNs ≤ bp.lastRefillNs) :
    bp.refill nowNs = some bp := if_pos le

/-- What a refill is to credit are the whole bytes of the time between. -/
theorem toNat_gained (bp : Backpressure) {nowNs : UInt64}
    (later : bp.lastRefillNs.toNat ≤ nowNs.toNat) :
    (saturatingMul (saturatingMul bp.capacityBps (nowNs - bp.lastRefillNs) / 8000000000)
      tokenScale).toNat =
      wholeBytes bp.capacityBps.toNat (nowNs.toNat - bp.lastRefillNs.toNat) * 65536 := by
  obtain ⟨_, elapsed⟩ := checkedSub_of_le (a := nowNs) (b := bp.lastRefillNs) later
  have bytes : (saturatingMul bp.capacityBps (nowNs - bp.lastRefillNs) / 8000000000).toNat =
      wholeBytes bp.capacityBps.toNat (nowNs.toNat - bp.lastRefillNs.toNat) := by
    rw [UInt64.toNat_div, toNat_saturatingMul, elapsed]
    rfl
  have few := wholeBytes_le_two_pow bp.capacityBps.toNat (nowNs.toNat - bp.lastRefillNs.toNat)
  have scale : tokenScale.toNat = 65536 := rfl
  rw [toNat_saturatingMul, bytes, scale]
  omega

/-- A later refill credits the whole bytes of the time between. -/
theorem refill_of_lt (bounded : bp.Bounded) {nowNs : UInt64}
    (later : bp.lastRefillNs.toNat < nowNs.toNat) :
    ∃ tokens, bp.refill nowNs = some { bp with lastRefillNs := nowNs, tokens } ∧
      tokens.toNat =
        min (bp.tokens.toNat +
            wholeBytes bp.capacityBps.toNat (nowNs.toNat - bp.lastRefillNs.toNat) * 65536)
          (bucket bp.capacityBps) := by
  obtain ⟨elapsed, _⟩ :=
    checkedSub_of_le (a := nowNs) (b := bp.lastRefillNs) (Nat.le_of_lt later)
  have few := wholeBytes_le_two_pow bp.capacityBps.toNat (nowNs.toNat - bp.lastRefillNs.toNat)
  have gained := bp.toNat_gained (Nat.le_of_lt later)
  have moved : Bounded { bp with lastRefillNs := nowNs } := ⟨bounded.small, bounded.filled⟩
  obtain ⟨tokens, credited, value⟩ := credit_of_bounded moved (by rw [gained]; omega)
  refine ⟨tokens, ?_, ?_⟩
  · unfold refill
    rw [if_neg (by rw [UInt64.le_iff_toNat_le]; omega), elapsed, Option.bind_eq_bind,
      Option.bind_some]
    exact credited
  · rw [value, gained]

/-- What a refill leaves: nothing but the time and the tokens change, and the tokens grow by
whole bytes up to the rim. -/
theorem refill_cases (bounded : bp.Bounded) (nowNs : UInt64) :
    (nowNs.toNat ≤ bp.lastRefillNs.toNat ∧ bp.refill nowNs = some bp) ∨
      (bp.lastRefillNs.toNat < nowNs.toNat ∧
        ∃ tokens, bp.refill nowNs = some { bp with lastRefillNs := nowNs, tokens } ∧
          tokens.toNat =
            min (bp.tokens.toNat +
                wholeBytes bp.capacityBps.toNat (nowNs.toNat - bp.lastRefillNs.toNat) * 65536)
              (bucket bp.capacityBps)) := by
  by_cases le : nowNs.toNat ≤ bp.lastRefillNs.toNat
  · exact .inl ⟨le, refill_of_le (UInt64.le_iff_toNat_le.mpr le)⟩
  · exact .inr ⟨Nat.lt_of_not_le le, refill_of_lt bounded (Nat.lt_of_not_le le)⟩

/-- Spending takes the tokens or counts a drop, and nothing underflows. -/
theorem spend_cases (bp : Backpressure) (want : UInt64) :
    (want.toNat ≤ bp.tokens.toNat ∧
      ∃ rest, bp.spend want = some ({ bp with tokens := rest }, true) ∧
        rest.toNat = bp.tokens.toNat - want.toNat) ∨
      (bp.tokens.toNat < want.toNat ∧ bp.spend want = some (bp.noteDrop, false)) := by
  unfold spend
  split
  · rename_i enough
    have le : want.toNat ≤ bp.tokens.toNat := UInt64.le_iff_toNat_le.mp enough
    obtain ⟨difference, value⟩ := checkedSub_of_le le
    exact .inl ⟨le, _, by rw [difference]; rfl, value⟩
  · rename_i short
    exact .inr ⟨UInt64.lt_iff_toNat_lt.mp (UInt64.not_le.mp short), rfl⟩

end Backpressure

/-- A bucket in use: the bytes it has admitted so far and the largest time it was called at. -/
structure Usage where
  bp : Backpressure
  admitted : Nat
  latest : Nat
  deriving DecidableEq, Repr

namespace Usage

inductive Call where
  | refill (nowNs : UInt64)
  | admitBytes (bytes nowNs : UInt64)
  deriving DecidableEq, Repr

def Call.nowNs : Call → UInt64
  | .refill nowNs | .admitBytes _ nowNs => nowNs

def start (capacityBps : UInt64) : Usage := ⟨.new capacityBps, 0, 0⟩

/-- One call; without a result when some arithmetic overflows. -/
def next (usage : Usage) : Call → Option Usage
  | .refill nowNs => do
      let bp ← usage.bp.refill nowNs
      return { usage with bp, latest := max usage.latest nowNs.toNat }
  | .admitBytes bytes nowNs => do
      let (bp, granted) ← usage.bp.admitBytes bytes nowNs
      return {
        bp
        admitted := if granted then usage.admitted + bytes.toNat else usage.admitted
        latest := max usage.latest nowNs.toNat }

/-- All sequences of calls on a bucket of one capacity. -/
def system (capacityBps : UInt64) : TransitionSystem Usage Call :=
  .ofNext (· = start capacityBps) next

/-- Tokens and admitted bytes together were paid for by the time that passed. -/
structure Paid (capacityBps : UInt64) (usage : Usage) : Prop where
  capacity : usage.bp.capacityBps = capacityBps
  bounded : usage.bp.Bounded
  latest : usage.latest = usage.bp.lastRefillNs.toNat
  paid : (usage.bp.tokens.toNat + 65536 * usage.admitted) * 8000000000 ≤
    65536 * (capacityBps.toNat * usage.latest)

/-- Whole bytes that were earned keep the account balanced, however many overflow the rim. -/
theorem balance_of_earned {scale unit tokens bytes rim admitted due earned : Nat}
    (balance : (tokens + scale * admitted) * unit ≤ scale * due)
    (affordable : bytes * unit ≤ earned) :
    (min (tokens + bytes * scale) rim + scale * admitted) * unit ≤ scale * (due + earned) :=
  calc (min (tokens + bytes * scale) rim + scale * admitted) * unit
      ≤ (tokens + bytes * scale + scale * admitted) * unit :=
        Nat.mul_le_mul_right _ (Nat.add_le_add_right (Nat.min_le_left _ _) _)
    _ = (tokens + scale * admitted) * unit + scale * (bytes * unit) := by ring
    _ ≤ scale * due + scale * earned :=
        Nat.add_le_add balance (Nat.mul_le_mul_left _ affordable)
    _ = scale * (due + earned) := (Nat.mul_add _ _ _).symm

/-- Admitting moves bytes from the tokens to the admitted ones. -/
theorem balance_of_spent {scale unit tokens want bytes admitted due : Nat}
    (enough : want ≤ tokens) (covers : bytes * scale ≤ want)
    (balance : (tokens + scale * admitted) * unit ≤ scale * due) :
    (tokens - want + scale * (admitted + bytes)) * unit ≤ scale * due := by
  have moved : tokens - want + scale * (admitted + bytes) ≤ tokens + scale * admitted := by
    rw [Nat.mul_add, Nat.mul_comm scale bytes]
    omega
  exact Nat.le_trans (Nat.mul_le_mul_right _ moved) balance

variable {capacityBps : UInt64} {usage : Usage}

theorem start_paid (positive : 1 ≤ capacityBps.toNat) (small : capacityBps.toNat ≤ 2 ^ 50) :
    Paid capacityBps (start capacityBps) := by
  have capacity : max capacityBps 1 = capacityBps := by
    apply UInt64.toNat.inj
    rw [UInt64.toNat_max, UInt64.toNat_one]
    exact Nat.max_eq_left positive
  refine ⟨capacity, ⟨?_, Nat.zero_le _⟩, rfl, by simp [start, Backpressure.new]⟩
  change (max capacityBps 1).toNat ≤ 2 ^ 50
  rw [capacity]
  exact small

/-- A refill is paid for by the time since the last one. -/
theorem Paid.refill (paid : Paid capacityBps usage) (nowNs : UInt64) :
    ∃ bp, usage.bp.refill nowNs = some bp ∧
      Paid capacityBps { usage with bp, latest := max usage.latest nowNs.toNat } ∧
      (nowNs.toNat ≤ usage.bp.lastRefillNs.toNat → bp = usage.bp) := by
  have current := paid.latest
  rcases Backpressure.refill_cases paid.bounded nowNs with
    ⟨le, unchanged⟩ | ⟨later, tokens, refilled, value⟩
  · refine ⟨_, unchanged, ?_, fun _ => rfl⟩
    have latest : max usage.latest nowNs.toNat = usage.latest := by omega
    exact ⟨paid.capacity, paid.bounded, by rw [latest, current], by rw [latest]; exact paid.paid⟩
  · refine ⟨_, refilled, ?_, fun le => absurd later (Nat.not_lt.mpr le)⟩
    have latest : max usage.latest nowNs.toNat = nowNs.toNat := by omega
    refine ⟨paid.capacity, ⟨paid.bounded.small, ?_⟩, latest, ?_⟩
    · rw [value]
      exact Nat.min_le_right _ _
    · have earned := Backpressure.wholeBytes_le capacityBps.toNat
        (nowNs.toNat - usage.bp.lastRefillNs.toNat)
      have elapsed : capacityBps.toNat * nowNs.toNat =
          capacityBps.toNat * usage.latest +
            capacityBps.toNat * (nowNs.toNat - usage.bp.lastRefillNs.toNat) := by
        rw [← Nat.mul_add]
        congr 1
        omega
      simp only [latest, elapsed, value, paid.capacity]
      exact balance_of_earned paid.paid earned

/-- What spending adds to the admitted bytes it takes from the tokens. -/
theorem Paid.spend (paid : Paid capacityBps usage) (bytes : UInt64) :
    ∃ bp granted, usage.bp.spend (saturatingMul bytes tokenScale) = some (bp, granted) ∧
      Paid capacityBps { usage with
        bp, admitted := if granted then usage.admitted + bytes.toNat else usage.admitted } ∧
      bp.tokens.toNat ≤ usage.bp.tokens.toNat ∧
      (granted = false → bp.tokens = usage.bp.tokens) := by
  have scale : tokenScale.toNat = 65536 := rfl
  rcases usage.bp.spend_cases (saturatingMul bytes tokenScale) with
    ⟨enough, rest, granted, value⟩ | ⟨_, refused⟩
  · -- a product that saturated asks for more than any bucket holds
    have filled := paid.bounded.filled
    have rim := Backpressure.bucket_le paid.bounded.small
    rw [toNat_saturatingMul, scale] at enough value
    refine ⟨_, true, granted, ⟨paid.capacity, ⟨paid.bounded.small, ?_⟩, paid.latest, ?_⟩, ?_, ?_⟩
    · dsimp only
      omega
    · simp only [if_true, value]
      exact balance_of_spent enough (by omega) paid.paid
    · dsimp only
      omega
    · exact fun impossible => absurd impossible (by decide)
  · have bounded : usage.bp.noteDrop.Bounded := ⟨paid.bounded.small, paid.bounded.filled⟩
    exact ⟨_, false, refused, ⟨paid.capacity, bounded, paid.latest, paid.paid⟩,
      Nat.le_refl _, fun _ => rfl⟩

/-- An admission is a refill and then a spending. -/
theorem Paid.admitBytes (paid : Paid capacityBps usage) (bytes nowNs : UInt64) :
    ∃ refilled bp granted, usage.bp.refill nowNs = some refilled ∧
      usage.bp.admitBytes bytes nowNs = some (bp, granted) ∧
      Paid capacityBps {
        bp
        admitted := if granted then usage.admitted + bytes.toNat else usage.admitted
        latest := max usage.latest nowNs.toNat } ∧
      bp.tokens.toNat ≤ refilled.tokens.toNat ∧
      (granted = false → bp.tokens = refilled.tokens) ∧
      (nowNs.toNat ≤ usage.bp.lastRefillNs.toNat → refilled = usage.bp) := by
  obtain ⟨refilled, credited, refilledPaid, late⟩ := paid.refill nowNs
  obtain ⟨bp, granted, spent, spentPaid, fewer, kept⟩ := refilledPaid.spend bytes
  refine ⟨refilled, bp, granted, credited, ?_, spentPaid, fewer, kept, late⟩
  rw [Backpressure.admitBytes, credited, Option.bind_eq_bind, Option.bind_some]
  exact spent

/-- Every call has a result, keeps the account paid, and adds nothing when it comes at a time
no later than the last refill. -/
theorem Paid.next (paid : Paid capacityBps usage) (call : Call) :
    ∃ target, next usage call = some target ∧ Paid capacityBps target ∧
      (call.nowNs.toNat ≤ usage.bp.lastRefillNs.toNat →
        target.bp.tokens.toNat ≤ usage.bp.tokens.toNat) := by
  cases call with
  | refill nowNs =>
      obtain ⟨bp, refilled, refilledPaid, late⟩ := paid.refill nowNs
      refine ⟨_, ?_, refilledPaid, ?_⟩
      · simp only [Usage.next, refilled]
        rfl
      · intro early
        rw [late early]
  | admitBytes bytes nowNs =>
      obtain ⟨refilled, bp, granted, _, admitted, admittedPaid, fewer, _, late⟩ :=
        paid.admitBytes bytes nowNs
      refine ⟨_, ?_, admittedPaid, ?_⟩
      · simp only [Usage.next, admitted]
        rfl
      · intro early
        rw [← late early]
        exact fewer

theorem paid_of_reachable (positive : 1 ≤ capacityBps.toNat)
    (small : capacityBps.toNat ≤ 2 ^ 50) (reached : (system capacityBps).Reachable usage) :
    Paid capacityBps usage := by
  apply reached.invariant
  · rintro _ rfl
    exact start_paid positive small
  · intro usage call target paid stepped
    obtain ⟨result, produced, resultPaid, _⟩ := paid.next call
    cases produced.symm.trans stepped
    exact resultPaid

/-- In every run the bytes admitted so far are paid for by the largest time seen, the tokens
stay within the bucket, a call no later than the last refill adds no tokens, no call overflows,
and a refused admission leaves exactly the tokens that a refill at its time leaves. -/
theorem admission_conforms (capacityBps : UInt64) (positive : 1 ≤ capacityBps.toNat)
    (small : capacityBps.toNat ≤ 2 ^ 50) (usage : Usage)
    (reached : (system capacityBps).Reachable usage) :
    usage.admitted * 8000000000 ≤ capacityBps.toNat * usage.latest ∧
      usage.bp.tokens.toNat ≤ max (capacityBps.toNat / 8) 1 * 65536 ∧
      (∀ call, ∃ target, next usage call = some target ∧
        (call.nowNs ≤ usage.bp.lastRefillNs → target.bp.tokens ≤ usage.bp.tokens)) ∧
      ∀ bytes nowNs refused, usage.bp.admitBytes bytes nowNs = some (refused, false) →
        ∃ refilled, usage.bp.refill nowNs = some refilled ∧
          refused.tokens = refilled.tokens := by
  have paid := paid_of_reachable positive small reached
  refine ⟨?_, ?_, ?_, ?_⟩
  · have covered : 65536 * (usage.admitted * 8000000000) ≤
        65536 * (capacityBps.toNat * usage.latest) := by
      rw [← Nat.mul_assoc]
      exact Nat.le_trans (Nat.mul_le_mul_right _ (Nat.le_add_left _ _)) paid.paid
    exact Nat.le_of_mul_le_mul_left covered (by decide)
  · have filled := paid.bounded.filled
    rw [paid.capacity] at filled
    exact filled
  · intro call
    obtain ⟨target, stepped, _, late⟩ := paid.next call
    refine ⟨target, stepped, ?_⟩
    intro early
    exact UInt64.le_iff_toNat_le.mpr (late (UInt64.le_iff_toNat_le.mp early))
  · intro bytes nowNs refused answered
    obtain ⟨refilled, bp, granted, credited, admitted, _, _, kept, _⟩ := paid.admitBytes bytes nowNs
    cases admitted.symm.trans answered
    exact ⟨refilled, credited, kept rfl⟩

/-- A bucket of one byte per nanosecond after a second of use. -/
def busySecond : List Call :=
  [.refill 500, .admitBytes 300 600, .admitBytes 400 550, .refill 1000000000, .admitBytes 900 900]

theorem busySecond_conforms :
    ∃ usage, TransitionSystem.perform next (start 8000000000) busySecond = some usage ∧
      usage.admitted = 1200 ∧
      usage.admitted * 8000000000 ≤ (8000000000 : UInt64).toNat * usage.latest := by
  obtain ⟨usage, performed⟩ := Option.isSome_iff_exists.mp
    (show (TransitionSystem.perform next (start 8000000000) busySecond).isSome by decide)
  have admitted : (TransitionSystem.perform next (start 8000000000) busySecond).map
      (·.admitted) = some 1200 := by decide
  rw [performed] at admitted
  have reached : (system 8000000000).Reachable usage :=
    TransitionSystem.reachable_of_perform rfl performed
  have conforms := admission_conforms 8000000000 (by decide) (by decide) usage reached
  exact ⟨usage, performed, Option.some.inj admitted, conforms.1⟩

/-- An admission that is refused after a second has credited the byte of that second. -/
theorem refused_credits :
    (system 8).Reachable (start 8) ∧
      ∃ refused, (start 8).bp.admitBytes 100 1000000000 = some (refused, false) ∧
        refused.tokens ≠ (start 8).bp.tokens :=
  ⟨.of_initial rfl, _, rfl, by decide⟩

end Usage

end Teleop.Link
