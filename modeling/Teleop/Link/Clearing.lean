import Teleop.Link.Congestion

/-!
# When congestion clears

Blocked sends are counted in windows of about 100 ms, and the count is started again by the
next blocked send only.  Without one it stays what it was, however long ago that window ended.
-/

namespace Teleop.Link

open Teleop.Lib

namespace Signal

/-- Blocked sends within the current window. -/
def blockedRecently (signal : Signal) : UInt64 := signal.blockedWindow

/-- The time of a call that reports a blocked send. -/
def Call.blockedNs : Call → Option UInt64
  | .noteSendBlocked nowNs => some nowNs
  | _ => none

/-- The times of the blocked sends among some calls. -/
def blockedTimes (calls : List Call) : List UInt64 := calls.filterMap Call.blockedNs

/-- A window of blocked sends, without a bound on their number. -/
structure Window where
  startNs : UInt64
  count : Nat

/-- A send blocked more than 100 ms after the start of a window starts another one. -/
def Window.next (window : Option Window) (nowNs : UInt64) : Window :=
  match window with
  | none => ⟨max nowNs 1, 1⟩
  | some ⟨startNs, count⟩ =>
      if 100000000 < nowNs.toNat - startNs.toNat then ⟨max nowNs 1, 1⟩ else ⟨startNs, count + 1⟩

/-- The last window after some more blocked sends. -/
def lastWindow (window : Option Window) (times : List UInt64) : Option Window :=
  times.foldl (fun window nowNs => some (Window.next window nowNs)) window

/-- How many sends were blocked since the last window started. -/
def blockedInWindow (times : List UInt64) : Nat := ((lastWindow none times).map Window.count).getD 0

theorem Window.count_next (window : Option Window) (nowNs : UInt64) :
    0 < (Window.next window nowNs).count := by
  unfold Window.next
  split
  · exact Nat.one_pos
  · split
    · exact Nat.one_pos
    · exact Nat.succ_pos _

/-- The window is empty only if no send was ever blocked. -/
theorem blockedInWindow_eq_zero_iff (times : List UInt64) :
    blockedInWindow times = 0 ↔ times = [] := by
  constructor
  · intro zero
    induction times using List.reverseRecOn with
    | nil => rfl
    | append_singleton times nowNs _ =>
        have positive := Window.count_next (lastWindow none times) nowNs
        unfold blockedInWindow lastWindow at zero
        rw [List.foldl_append] at zero
        exact absurd zero positive.ne'
  · rintro rfl
    rfl

/-- The signal counts the sends of the last window, modulo 2^64. -/
structure Counts (signal : Signal) (window : Option Window) : Prop where
  count : signal.blockedWindow = .ofNat ((window.map Window.count).getD 0)
  start : signal.windowStartNs = (window.map Window.startNs).getD 0
  started : ∀ open_ ∈ window, open_.startNs ≠ 0

variable {signal target : Signal} {window : Option Window}

theorem max_one_ne_zero (nowNs : UInt64) : max nowNs 1 ≠ 0 := by
  intro zero
  have values := congrArg UInt64.toNat zero
  rw [UInt64.toNat_max, UInt64.toNat_one, UInt64.toNat_zero] at values
  omega

theorem Counts.noteSendBlocked (counts : signal.Counts window) (nowNs : UInt64) :
    (signal.noteSendBlocked nowNs).Counts (some (Window.next window nowNs)) := by
  cases window with
  | none =>
      have start : signal.windowStartNs = 0 := counts.start
      refine ⟨?_, ?_, ?_⟩
      · simp [Signal.noteSendBlocked, start, Window.next]
      · simp [Signal.noteSendBlocked, start, Window.next]
      · simpa [Window.next] using max_one_ne_zero nowNs
  | some open_ =>
      obtain ⟨startNs, count⟩ := open_
      have start : signal.windowStartNs = startNs := counts.start
      have count : signal.blockedWindow = .ofNat count := counts.count
      have started : startNs ≠ 0 := counts.started ⟨startNs, _⟩ rfl
      have late : 100000000 < saturatingSub nowNs startNs ↔
          100000000 < nowNs.toNat - startNs.toNat := by
        rw [UInt64.lt_iff_toNat_lt, toNat_saturatingSub]
        rfl
      by_cases elapsed : 100000000 < nowNs.toNat - startNs.toNat
      · refine ⟨?_, ?_, ?_⟩
        · simp [Signal.noteSendBlocked, start, late, elapsed, Window.next]
        · simp [Signal.noteSendBlocked, start, late, elapsed, Window.next]
        · simpa [Window.next, elapsed] using max_one_ne_zero nowNs
      · refine ⟨?_, ?_, ?_⟩
        · simp [Signal.noteSendBlocked, start, late, elapsed, started, Window.next, count]
        · simp [Signal.noteSendBlocked, start, late, elapsed, started, Window.next]
        · simpa [Window.next, elapsed] using started

/-- No other call touches the window. -/
theorem Counts.other (counts : signal.Counts window) {call : Call} (other : call.blockedNs = none)
    (stepped : signal.next call = some target) : target.Counts window := by
  have same : target.blockedWindow = signal.blockedWindow ∧
      target.windowStartNs = signal.windowStartNs := by
    cases call with
    | noteSendBlocked nowNs => cases other
    | setCapacityBps | setQueueDepth =>
        obtain rfl := Option.some.inj stepped
        exact ⟨rfl, rfl⟩
    | refill | admitBytes | suggestedBitrateBps =>
        obtain ⟨_, _, stepped⟩ := Option.bind_eq_some_iff.mp stepped
        obtain rfl := Option.some.inj stepped
        exact ⟨rfl, rfl⟩
  exact ⟨same.1.trans counts.count, same.2.trans counts.start, counts.started⟩

/-- A run counts the blocked sends it contains. -/
theorem Counts.run {capacityBps : UInt64} {calls : List Call} (counts : signal.Counts window)
    (execution : (system capacityBps).Execution signal calls target) :
    target.Counts (lastWindow window (blockedTimes calls)) := by
  induction execution generalizing window with
  | nil => exact counts
  | @cons source middle target call calls step _ inductionHypothesis =>
      cases reported : call.blockedNs with
      | none =>
          have later := inductionHypothesis (counts.other reported step)
          rwa [blockedTimes, List.filterMap_cons_none reported]
      | some nowNs =>
          have noted : source.noteSendBlocked nowNs = middle := by
            cases call with
            | noteSendBlocked =>
                cases reported
                exact Option.some.inj step
            | _ => cases reported
          have later := inductionHypothesis (noted ▸ counts.noteSendBlocked nowNs)
          rwa [blockedTimes, List.filterMap_cons_some reported]

/-- Nothing is left of a congestion. -/
structure Cleared (signal : Signal) : Prop where
  blocked : signal.blockedRecently = 0
  level : signal.congestion = .normal
  rate : signal.suggestedBitrateBps = some signal.capacityBps

theorem congestion_eq_normal_iff (idle : signal.queueDepth = 0) :
    signal.congestion = .normal ↔ signal.blockedWindow = 0 := by
  have alone : saturatingAdd (saturatingMul 0 2) (min signal.blockedWindow 64) =
      min signal.blockedWindow 64 := by
    apply UInt64.toNat.inj
    have bound := (min signal.blockedWindow 64).toNat_lt
    rw [toNat_saturatingAdd, toNat_saturatingMul]
    simp only [UInt64.toNat_zero, Nat.zero_mul, Nat.zero_min, Nat.zero_add]
    omega
  have zero : min signal.blockedWindow 64 = 0 ↔ signal.blockedWindow = 0 := by
    rw [← UInt64.toNat_inj, ← UInt64.toNat_inj, UInt64.toNat_min]
    have cap : (64 : UInt64).toNat = 64 := rfl
    rw [cap, UInt64.toNat_zero]
    omega
  unfold congestion
  rw [idle]
  dsimp only
  rw [alone, ← zero]
  by_cases none : min signal.blockedWindow 64 = 0
  · simp [none]
  · simp only [none, if_false, iff_false]
    split
    · exact Congestion.noConfusion
    · split <;> exact Congestion.noConfusion

/-- The whole capacity is suggested if it fits ten thousand times. -/
theorem suggestedBitrateBps_of_normal (level : signal.congestion = .normal) :
    signal.suggestedBitrateBps = some signal.capacityBps ↔
      signal.capacityBps.toNat ≤ greatestCapacity := by
  have tenThousand : Congestion.normal.bitrateFractionBp.toNat = 10000 := rfl
  have whole : signal.Fits .suggestedBitrateBps ↔
      signal.capacityBps.toNat ≤ greatestCapacity := by
    unfold Fits
    rw [level, tenThousand, greatestCapacity]
    omega
  rw [suggestedBitrateBps_eq_some_iff, whole]
  constructor
  · exact And.left
  · intro small
    refine ⟨small, ?_⟩
    rw [← whole] at small
    obtain ⟨_, product⟩ := checkedMul_of_lt small
    apply UInt64.toNat.inj
    rw [UInt64.toNat_div, product, level, tenThousand]
    exact (Nat.mul_div_cancel _ (by decide)).symm

theorem cleared_iff_of_counts (counts : signal.Counts window) (idle : signal.queueDepth = 0) :
    signal.Cleared ↔
      ((window.map Window.count).getD 0) % 2 ^ 64 = 0 ∧
        signal.capacityBps.toNat ≤ greatestCapacity := by
  have none : signal.blockedWindow = 0 ↔ ((window.map Window.count).getD 0) % 2 ^ 64 = 0 := by
    rw [counts.count, ← UInt64.toNat_inj, UInt64.toNat_ofNat']
    rfl
  constructor
  · intro cleared
    exact ⟨none.mp cleared.blocked, (suggestedBitrateBps_of_normal cleared.level).mp cleared.rate⟩
  · rintro ⟨unblocked, small⟩
    have level := (congestion_eq_normal_iff idle).mpr (none.mpr unblocked)
    exact ⟨none.mpr unblocked, level, (suggestedBitrateBps_of_normal level).mpr small⟩

/-- After any history, when nothing is queued, and however long the last blocked send is ago: the
congestion has cleared exactly if no send is counted in the last window, so if none was ever
blocked or the count has wrapped, and the capacity is one of which every share fits. -/
theorem cleared_iff (capacityBps : UInt64) (calls : List Call) (signal : Signal)
    (execution : (system capacityBps).Execution (new capacityBps) calls signal)
    (idle : signal.queueDepth = 0) :
    signal.Cleared ↔
      blockedInWindow (blockedTimes calls) % 2 ^ 64 = 0 ∧
        signal.capacityBps.toNat ≤ greatestCapacity := by
  have fresh : (new capacityBps).Counts none := ⟨rfl, rfl, by simp⟩
  exact cleared_iff_of_counts (fresh.run execution) idle

/-- A blocked send, a second of silence in which the bucket is refilled and used. -/
def lullCalls : List Call :=
  [.setQueueDepth 3, .noteSendBlocked 5, .setQueueDepth 0, .refill 1000000000,
    .admitBytes 1200 1000000000]

def lull : Signal :=
  { new 10000000 with
    tokens := 81841356800
    lastRefillNs := 1000000000
    peakQueueDepth := 3
    blockedSends := 1
    blockedWindow := 1
    windowStartNs := 5 }

theorem execution_lull : (system 10000000).Execution (new 10000000) lullCalls lull :=
  TransitionSystem.execution_of_perform (by decide +kernel)

theorem late_lull : ∀ blockedNs ∈ (blockedTimes lullCalls).getLast?,
    blockedNs.toNat + 100000000 < (1000000000 : UInt64).toNat := by
  have last : (blockedTimes lullCalls).getLast? = some 5 := rfl
  rw [last]
  rintro _ ⟨⟩
  decide

theorem cleared_iff_lull :
    lull.Cleared ↔
      blockedInWindow (blockedTimes lullCalls) % 2 ^ 64 = 0 ∧
        lull.capacityBps.toNat ≤ greatestCapacity :=
  cleared_iff 10000000 lullCalls lull execution_lull rfl

/-- A second after a single blocked send the level is still elevated. -/
theorem not_cleared :
    ¬∀ capacityBps calls signal,
      (system capacityBps).Execution (new capacityBps) calls signal → signal.queueDepth = 0 →
        ∀ nowNs : UInt64, (∀ blockedNs ∈ (blockedTimes calls).getLast?,
          blockedNs.toNat + 100000000 < nowNs.toNat) → signal.Cleared := by
  intro clears
  have cleared := clears 10000000 lullCalls lull execution_lull rfl 1000000000 late_lull
  exact absurd cleared.blocked (by decide)

end Signal

end Teleop.Link
