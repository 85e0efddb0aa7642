import Mathlib.Algebra.Order.Archimedean.Basic
import Mathlib.Data.Rat.Floor
import Teleop.Safety.Authority

/-!
# The timing of a handover

In exact arithmetic.  A tick that finds a command moves the blend on twice, so the handover
keeps the pace of the clock only while no tick is busy.
-/

namespace Teleop.Safety

open Teleop.Core Teleop.Core.ControlCommand Teleop.Ring Teleop.Lib
open Teleop.Lib.FloatOps hiding min max abs

/-- The authority that a handover reaches when `elapsed` of its duration has passed. -/
def paced (start target duration elapsed : ℚ) : ℚ :=
  start + (target - start) * quintic (min elapsed duration / duration)

section Pace

variable {start target duration : ℚ}

theorem authority_underway (positive : 0 < duration) {elapsed : ℚ} (nonneg : 0 ≤ elapsed) :
    (Course.underway start target duration (min elapsed duration)).authority =
      paced start target duration elapsed :=
  AuthorityBlend.weight_eq positive (le_min nonneg positive.le) (min_le_right _ _)

theorem paced_zero (positive : 0 < duration) : paced start target duration 0 = start := by
  simp [paced, min_eq_left positive.le]

theorem paced_of_le (positive : 0 < duration) {elapsed : ℚ} (full : duration ≤ elapsed) :
    paced start target duration elapsed = target := by
  simp [paced, min_eq_right full, div_self positive.ne']

theorem paced_self (elapsed : ℚ) : paced target target duration elapsed = target := by
  simp [paced]

/-- A handover does not arrive before its time. -/
theorem paced_ne (positive : 0 < duration) (apart : start ≠ target) {elapsed : ℚ}
    (running : elapsed < duration) : paced start target duration elapsed ≠ target := by
  intro arrived
  have below : quintic (min elapsed duration / duration) < 1 := by
    apply quintic_lt_one
    rw [min_eq_left running.le]
    exact (div_lt_one positive).mpr running
  have rest : (target - start) * (1 - quintic (min elapsed duration / duration)) = 0 := by
    unfold paced at arrived
    linarith
  rcases mul_eq_zero.mp rest with same | full
  · exact apart (sub_eq_zero.mp same).symm
  · linarith

/-- At two times the authority is the same only if both are the same or past the end. -/
theorem paced_inj (positive : 0 < duration) (apart : start ≠ target) {first second : ℚ} :
    paced start target duration first = paced start target duration second ↔
      min first duration = min second duration := by
  constructor
  · intro same
    have products : (target - start) * quintic (min first duration / duration) =
        (target - start) * quintic (min second duration / duration) := by
      unfold paced at same
      linarith
    have steps := mul_left_cancel₀ (sub_ne_zero.mpr apart.symm) products
    exact (div_left_inj' positive.ne').mp (quintic_strictMono.injective steps)
  · intro same
    simp only [paced, same]

/-- Extra steps do not show exactly when there are none, they take no time, or the duration
is over. -/
theorem min_steps_eq {period : ℚ} (nonneg : 0 ≤ period) (ticks extra : Nat) :
    min ((ticks + extra : Nat) * period) duration = min (ticks * period) duration ↔
      extra = 0 ∨ period = 0 ∨ duration ≤ ticks * period := by
  constructor
  · intro same
    by_contra showing
    push Not at showing
    obtain ⟨some, moving, running⟩ := showing
    have positive : 0 < period := lt_of_le_of_ne nonneg moving.symm
    have one : (1 : ℚ) ≤ extra := by exact_mod_cast Nat.one_le_iff_ne_zero.mpr some
    have later : ticks * period < (ticks + extra : Nat) * period := by
      push_cast
      nlinarith
    rw [min_eq_left running.le] at same
    rcases min_eq_iff.mp same with ⟨early, -⟩ | ⟨late, -⟩
    · exact later.ne' early
    · exact running.ne' late
  · rintro (rfl | rfl | full)
    · rfl
    · simp
    · have fuller : duration ≤ (ticks + extra : Nat) * period := by
        push_cast
        nlinarith [mul_nonneg (Nat.cast_nonneg (α := ℚ) extra) nonneg]
      rw [min_eq_right full, min_eq_right fuller]

end Pace

namespace SafetyLoop

section Handovers

variable {loop : SafetyLoop ℚ ℚ} {mode : Mode}

theorem planned_of_reachable (reached : (system ℚ ℚ).Reachable loop) :
    Course.Planned loop.duration loop.period loop.course := by
  apply reached.invariant
    (P := fun loop => Course.Planned loop.duration loop.period loop.course)
  · rintro loop ⟨input, output, machine, cfg, rfl⟩
    exact planned_new input output machine cfg
  · intro loop action target planned stepped
    cases stepped
    exact planned_perform planned action

/-- The authority that the handover to `mode` should have after so many ticks: on the clock,
whatever the traffic. -/
def onTime (loop : SafetyLoop ℚ ℚ) (mode : Mode) (ticks : Nat) : ℚ :=
  paced loop.authority (authorityTarget mode) loop.duration (ticks * loop.period)

/-- The loop after the request for `mode`. -/
def requested (loop : SafetyLoop ℚ ℚ) (mode : Mode) (atUnixNs : UInt64) : SafetyLoop ℚ ℚ :=
  (loop.requestMode mode atUnixNs).1

theorem requested_frame (loop : SafetyLoop ℚ ℚ) (mode : Mode) (atUnixNs : UInt64) :
    (loop.requested mode atUnixNs).period = loop.period :=
  period_perform loop (.requestMode mode atUnixNs)

/-- After a granted request the blend has run for the ticks and, once more each, the busy
ones. -/
theorem course_requested (granted : loop.grants mode = true) (atUnixNs : UInt64)
    {actions : List (Action ℚ ℚ)} (quiet : Quiet actions) :
    ((loop.requested mode atUnixNs).run actions).course =
      (Course.advance loop.period)^[ticks actions +
        (loop.requested mode atUnixNs).busyTicks actions]
          (loop.course.request loop.cfg.transitionS (authorityTarget mode)) := by
  have moved := course_run (loop.requested mode atUnixNs) quiet
  have first : (loop.requested mode atUnixNs).course =
      loop.course.request loop.cfg.transitionS (authorityTarget mode) := by
    have := course_requestMode loop mode atUnixNs
    rwa [if_pos granted] at this
  rwa [requested_frame, first] at moved

/-- A request that starts a blend. -/
theorem authority_of_started (granted : loop.grants mode = true) (atUnixNs : UInt64)
    (apart : 1e-6 < |authorityTarget mode - loop.authority|) {actions : List (Action ℚ ℚ)}
    (quiet : Quiet actions) : ((loop.requested mode atUnixNs).run actions).authority =
      loop.onTime mode (ticks actions + (loop.requested mode atUnixNs).busyTicks actions) := by
  have moved := course_requested granted atUnixNs quiet
  have fresh : loop.course.request loop.cfg.transitionS (authorityTarget mode) =
      Course.underway loop.authority (authorityTarget mode) loop.duration
        (min ((0 : Nat) * loop.period) loop.duration) := by
    rw [Nat.cast_zero, zero_mul, min_eq_left loop.duration_pos.le]
    exact (Course.request_eq _ _ _).trans (if_pos apart)
  rw [fresh, Course.iterate_advance_underway loop.period_nonneg, Nat.zero_add] at moved
  have authority := congrArg Course.authority moved
  rw [authority_underway loop.duration_pos
    (mul_nonneg (Nat.cast_nonneg _) loop.period_nonneg)] at authority
  exact authority

/-- A request that finds the authority at its target. -/
theorem course_of_kept (granted : loop.grants mode = true) (atUnixNs : UInt64)
    (near : |authorityTarget mode - loop.authority| ≤ (1e-6 : ℚ)) {actions : List (Action ℚ ℚ)}
    (quiet : Quiet actions) : ((loop.requested mode atUnixNs).run actions).course =
      (Course.advance loop.period)^[ticks actions +
        (loop.requested mode atUnixNs).busyTicks actions] loop.course := by
  have kept : loop.course.request loop.cfg.transitionS (authorityTarget mode) = loop.course :=
    (Course.request_eq _ _ _).trans (if_neg (not_lt.mpr near))
  have moved := course_requested granted atUnixNs quiet
  rwa [kept] at moved

theorem onTime_iff_of_started (granted : loop.grants mode = true) (atUnixNs : UInt64)
    (apart : 1e-6 < |authorityTarget mode - loop.authority|) {actions : List (Action ℚ ℚ)}
    (quiet : Quiet actions) :
    ((loop.requested mode atUnixNs).run actions).authority = loop.onTime mode (ticks actions) ↔
      (loop.requested mode atUnixNs).busyTicks actions = 0 ∨ loop.period = 0 ∨
        loop.duration ≤ ticks actions * loop.period := by
  have different : loop.authority ≠ authorityTarget mode := by
    intro same
    rw [same, sub_self, abs_zero] at apart
    norm_num at apart
  rw [authority_of_started granted atUnixNs apart quiet]
  unfold onTime
  rw [paced_inj loop.duration_pos different]
  exact min_steps_eq loop.period_nonneg _ _

/-- Idle or busy, that many ticks and nothing else. -/
def onlyTicks (n : Nat) : List (Action ℚ ℚ) := List.replicate n (.processOne 0 0)

theorem quiet_onlyTicks (n : Nat) : Quiet (onlyTicks n) := by
  intro action member mode atUnixNs
  rw [List.eq_of_mem_replicate member]
  simp

@[simp] theorem ticks_onlyTicks (n : Nat) : ticks (onlyTicks n) = n := by
  refine (List.countP_eq_length.mpr ?_).trans List.length_replicate
  intro action member
  rw [List.eq_of_mem_replicate member]
  rfl

/-- Some number of ticks is the last before the duration is over. -/
theorem exists_last_tick (loop : SafetyLoop ℚ ℚ) (moving : 0 < loop.period) :
    ∃ n : Nat, n * loop.period < loop.duration ∧ loop.duration ≤ (n + 1 : Nat) * loop.period := by
  obtain ⟨enough, full⟩ := exists_nat_ge (loop.duration / loop.period)
  rw [div_le_iff₀ moving] at full
  induction enough with
  | zero =>
      have positive := loop.duration_pos
      simp only [Nat.cast_zero, zero_mul] at full
      linarith
  | succ n inductionHypothesis =>
      rcases lt_or_ge (n * loop.period) loop.duration with running | earlier
      · exact ⟨n, running, full⟩
      · exact inductionHypothesis earlier

/-- A reachable loop rests at the target of a mode for good, or is still on the way. -/
inductive Stands (loop : SafetyLoop ℚ ℚ) : Prop
  | resting (other : Mode) : loop.authority = authorityTarget other →
      (∀ n, ((Course.advance loop.period)^[n] loop.course).authority = authorityTarget other) →
      (∀ blend, loop.blend = some blend → blend.done = true) → Stands loop
  | running (start : ℚ) (other : Mode) (steps : Nat) (blend : AuthorityBlend ℚ) :
      1e-6 < |authorityTarget other - start| → steps * loop.period < loop.duration →
      loop.authority = paced start (authorityTarget other) loop.duration (steps * loop.period) →
      (∀ n, ((Course.advance loop.period)^[n] loop.course).authority =
        paced start (authorityTarget other) loop.duration ((steps + n : Nat) * loop.period)) →
      loop.blend = some blend → blend.done = false → Stands loop

theorem stands_of_reachable (reached : (system ℚ ℚ).Reachable loop) : Stands loop := by
  have planned := planned_of_reachable reached
  generalize isCourse : loop.course = course at planned
  have authority : loop.authority = course.authority := congrArg Course.authority isCourse
  have blend : loop.blend = course.blend := congrArg Course.blend isCourse
  have positive := loop.duration_pos
  cases planned with
  | rest other =>
      refine .resting other authority ?_ ?_
      · intro n
        rw [isCourse]
        exact congrArg Course.authority (Function.iterate_fixed rfl n)
      · intro held present
        rw [blend] at present
        cases present
  | moving start other steps apart =>
      have later : ∀ n, ((Course.advance loop.period)^[n] loop.course).authority =
          paced start (authorityTarget other) loop.duration
            ((steps + n : Nat) * loop.period) := by
        intro n
        rw [isCourse, Course.iterate_advance_underway loop.period_nonneg]
        exact authority_underway positive (mul_nonneg (Nat.cast_nonneg _) loop.period_nonneg)
      have now : loop.authority =
          paced start (authorityTarget other) loop.duration (steps * loop.period) := later 0
      rcases lt_or_ge (steps * loop.period) loop.duration with running | complete
      · refine .running start other steps _ apart running now later blend ?_
        apply AuthorityBlend.done_eq_false.mpr
        exact min_lt_of_left_lt running
      · refine .resting other (now.trans (paced_of_le positive complete)) ?_ ?_
        · intro n
          rw [later]
          apply paced_of_le positive
          push_cast
          nlinarith [mul_nonneg (Nat.cast_nonneg (α := ℚ) n) loop.period_nonneg]
        · intro held present
          rw [blend] at present
          cases present
          simp [AuthorityBlend.done, complete]

/-- A kept blend that is still running makes some handover miss its time. -/
theorem late_of_running (granted : loop.grants mode = true) (atUnixNs : UInt64)
    (near : |authorityTarget mode - loop.authority| ≤ (1e-6 : ℚ)) (moving : 0 < loop.period)
    {start : ℚ} {other : Mode} {steps : Nat}
    (apart : 1e-6 < |authorityTarget other - start|)
    (running : steps * loop.period < loop.duration)
    (now : loop.authority =
      paced start (authorityTarget other) loop.duration (steps * loop.period))
    (later : ∀ n, ((Course.advance loop.period)^[n] loop.course).authority =
      paced start (authorityTarget other) loop.duration ((steps + n : Nat) * loop.period)) :
    ∃ n, ((loop.requested mode atUnixNs).run (onlyTicks n)).authority ≠ loop.onTime mode n := by
  have positive := loop.duration_pos
  have ran : ∀ n, ∃ extra, ((loop.requested mode atUnixNs).run (onlyTicks n)).authority =
      paced start (authorityTarget other) loop.duration
        ((steps + (n + extra) : Nat) * loop.period) := by
    intro n
    refine ⟨(loop.requested mode atUnixNs).busyTicks (onlyTicks n), ?_⟩
    have moved := congrArg Course.authority
      (course_of_kept granted atUnixNs near (quiet_onlyTicks n))
    rw [ticks_onlyTicks, later] at moved
    exact moved
  have different : start ≠ authorityTarget other := by
    intro same
    rw [same, sub_self, abs_zero] at apart
    norm_num at apart
  obtain ⟨last, before, after⟩ := loop.exists_last_tick moving
  by_cases same : (authorityTarget other : ℚ) = authorityTarget mode
  · -- The kept blend has a head start, so it arrives before the clock of the new request.
    have started : steps ≠ 0 := by
      rintro rfl
      rw [Nat.cast_zero, zero_mul, paced_zero positive] at now
      rw [now, ← same] at near
      exact absurd near (not_le.mpr apart)
    refine ⟨last, ?_⟩
    obtain ⟨extra, authority⟩ := ran last
    have full : loop.duration ≤ (steps + (last + extra) : Nat) * loop.period := by
      refine after.trans (mul_le_mul_of_nonneg_right ?_ loop.period_nonneg)
      exact_mod_cast (by omega : last + 1 ≤ steps + (last + extra))
    rw [authority, paced_of_le positive full, same]
    apply Ne.symm
    apply paced_ne positive _ before
    rw [now, ← same]
    exact paced_ne positive different running
  · -- The kept blend ends at the target of another mode.
    refine ⟨last + 1, ?_⟩
    obtain ⟨extra, authority⟩ := ran (last + 1)
    have full : loop.duration ≤ (steps + (last + 1 + extra) : Nat) * loop.period := by
      refine after.trans (mul_le_mul_of_nonneg_right ?_ loop.period_nonneg)
      exact_mod_cast (by omega : last + 1 ≤ steps + (last + 1 + extra))
    rw [authority, paced_of_le positive full]
    unfold onTime
    rw [paced_of_le positive after]
    exact same

/-- A request that keeps the blend is on time exactly if no blend is running or no tick takes
time. -/
theorem onTime_iff_of_kept (reached : (system ℚ ℚ).Reachable loop)
    (granted : loop.grants mode = true) (atUnixNs : UInt64)
    (near : |authorityTarget mode - loop.authority| ≤ (1e-6 : ℚ)) :
    (∀ actions, Quiet actions → ((loop.requested mode atUnixNs).run actions).authority =
      loop.onTime mode (ticks actions)) ↔
      loop.period = 0 ∨ ∀ blend, loop.blend = some blend → blend.done = true := by
  have moved : ∀ {actions}, Quiet actions →
      ((loop.requested mode atUnixNs).run actions).authority =
        ((Course.advance loop.period)^[ticks actions +
          (loop.requested mode atUnixNs).busyTicks actions] loop.course).authority :=
    fun quiet => congrArg Course.authority (course_of_kept granted atUnixNs near quiet)
  cases stands_of_reachable reached with
  | resting other now later rests =>
      refine ⟨fun _ => .inr rests, ?_⟩
      intro _ actions quiet
      rw [now] at near
      rw [moved quiet, later, onTime, now, Course.authorityTarget_close near, paced_self]
  | running start other steps blend apart running now later present unfinished =>
      constructor
      · intro onTime
        by_contra neither
        push Not at neither
        have moving := lt_of_le_of_ne loop.period_nonneg neither.1.symm
        obtain ⟨n, late⟩ := late_of_running granted atUnixNs near moving apart running now later
        have arrived := onTime (onlyTicks n) (quiet_onlyTicks n)
        rw [ticks_onlyTicks] at arrived
        exact late arrived
      · rintro (still | rests)
        · intro actions quiet
          rw [moved quiet, later, onTime, now, still]
          simp only [mul_zero, paced_zero loop.duration_pos]
        · rw [rests blend present] at unfinished
          cases unfinished

/-- When a handover keeps the pace of the clock, whatever the traffic.  A request that starts
a blend is on time after a run of ticks exactly if none of them was busy, a tick takes no
time, or the handover is over by the clock.  A request that finds the authority at its target
is on time in all runs exactly if no blend is running or a tick takes no time. -/
theorem onTime_iff (reached : (system ℚ ℚ).Reachable loop) (granted : loop.grants mode = true)
    (atUnixNs : UInt64) :
    (1e-6 < |authorityTarget mode - loop.authority| → ∀ actions, Quiet actions →
      (((loop.requested mode atUnixNs).run actions).authority =
          loop.onTime mode (ticks actions) ↔
        (loop.requested mode atUnixNs).busyTicks actions = 0 ∨ loop.period = 0 ∨
          loop.duration ≤ ticks actions * loop.period)) ∧
    (|authorityTarget mode - loop.authority| ≤ (1e-6 : ℚ) →
      ((∀ actions, Quiet actions → ((loop.requested mode atUnixNs).run actions).authority =
          loop.onTime mode (ticks actions)) ↔
        loop.period = 0 ∨ ∀ blend, loop.blend = some blend → blend.done = true)) :=
  ⟨fun apart _ quiet => onTime_iff_of_started granted atUnixNs apart quiet,
    onTime_iff_of_kept reached granted atUnixNs⟩

end Handovers

/-- The handover to the assist mode after one tick: on time when the tick is idle, ahead of
time when it finds a command. -/
theorem busy_tick_not_onTime :
    (system ℚ ℚ).Reachable fresh ∧ fresh.grants .assist = true ∧
      ((fresh.requested .assist 1).run [.processOne 1 1]).authority = fresh.onTime .assist 1 ∧
      ((fresh.requested .assist 1).run
        [.pushInput (.zeroed .fullTeleop), .processOne 1 1]).authority ≠
          fresh.onTime .assist 1 := by
  refine ⟨.of_initial ⟨_, _, _, _, rfl⟩, by decide, ?_, ?_⟩
  · decide +kernel
  · decide +kernel

theorem idle_ticks_onTime :
    ((fresh.requested .assist 1).run (onlyTicks 2)).authority = fresh.onTime .assist 2 := by
  have reached : (system ℚ ℚ).Reachable fresh := .of_initial ⟨_, _, _, _, rfl⟩
  have idle : (fresh.requested .assist 1).busyTicks (onlyTicks 2) = 0 := by decide +kernel
  have granted : fresh.grants .assist = true := by decide
  exact ((onTime_iff reached granted 1).1 (by decide +kernel) (onlyTicks 2)
    (quiet_onlyTicks 2)).mpr (.inl idle)

end SafetyLoop

end Teleop.Safety
