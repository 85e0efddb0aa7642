import Teleop.Lib.ExactArithmetic
import Teleop.Lib.Quintic
import Teleop.Safety.Envelope

/-!
# Where the authority is heading

In exact arithmetic.  A tick moves the blend of a loop on, a granted request may replace it,
and no other call touches it; so the authority is followed apart from the rest of the loop.
-/

namespace Teleop.Safety

open Teleop.Core Teleop.Core.ControlCommand Teleop.Ring Teleop.Lib
open Teleop.Lib.FloatOps hiding min max abs

theorem smootherstep_rat {x : ℚ} (low : 0 ≤ x) (high : x ≤ 1) : smootherstep x = quintic x := by
  unfold smootherstep
  dsimp only [ofRat_rat]
  rw [clamp_of_mem low high]
  unfold quintic
  ring

namespace AuthorityBlend

/-- True when the blend reached its target. -/
def done (blend : AuthorityBlend ℚ) : Bool := le blend.durationS blend.elapsedS

theorem done_eq_false {blend : AuthorityBlend ℚ} :
    blend.done = false ↔ blend.elapsedS < blend.durationS := by
  simp [done]

/-- The weight of a blend that runs from 0 to its duration. -/
theorem weight_eq {blend : AuthorityBlend ℚ} (positive : 0 < blend.durationS)
    (started : 0 ≤ blend.elapsedS) (within : blend.elapsedS ≤ blend.durationS) :
    blend.weight ℚ = blend.fromWeight + (blend.toWeight - blend.fromWeight) *
      quintic (blend.elapsedS / blend.durationS) := by
  have step := smootherstep_rat (div_nonneg started positive.le)
    ((div_le_one positive).mpr within)
  have narrowed : (FloatPair.narrow (smootherstep (FloatPair.widen blend.elapsedS /
      FloatPair.widen blend.durationS : ℚ)) : ℚ) =
        quintic (blend.elapsedS / blend.durationS) := step
  unfold weight
  dsimp only
  rw [narrowed]

theorem weight_of_done {blend : AuthorityBlend ℚ} (positive : 0 < blend.durationS)
    (complete : blend.elapsedS = blend.durationS) : blend.weight ℚ = blend.toWeight := by
  rw [weight_eq positive (complete ▸ positive.le) complete.le, complete, div_self positive.ne',
    quintic_one]
  ring

end AuthorityBlend

/-- The authority of a loop and its blend. -/
structure Course where
  authority : ℚ
  blend : Option (AuthorityBlend ℚ)

namespace Course

/-- One step of the blend. -/
def advance (period : ℚ) (course : Course) : Course :=
  match course.blend with
  | none => course
  | some blend =>
      let (blend, authority) := blend.advance ℚ period
      ⟨authority, some blend⟩

/-- What a granted request does. -/
def request (transitionS target : ℚ) (course : Course) : Course :=
  { course with
    blend :=
      if 1e-6 < |target - course.authority| then some (.new course.authority target transitionS)
      else course.blend }

/-- A blend from `start` to `target` that has run for `elapsed` of its duration. -/
def underway (start target duration elapsed : ℚ) : Course :=
  let blend : AuthorityBlend ℚ := ⟨start, target, duration, elapsed⟩
  ⟨blend.weight ℚ, some blend⟩

/-- The authority heads for `target`, or rests there. -/
def Heads (course : Course) (target : ℚ) : Prop :=
  (∃ blend, course.blend = some blend ∧ blend.done = false ∧ blend.toWeight = target) ∨
    ((∀ blend, course.blend = some blend → blend.done = true) ∧ course.authority = target)

/-- The courses of reachable loops: at rest at the target of a mode, or some steps into a
blend towards one. -/
inductive Planned (duration period : ℚ) : Course → Prop
  | rest (mode : Mode) : Planned duration period ⟨authorityTarget mode, none⟩
  | moving (start : ℚ) (mode : Mode) (steps : Nat) :
      1e-6 < |authorityTarget mode - start| →
      Planned duration period
        (underway start (authorityTarget mode) duration (min (steps * period) duration))

theorem advance_underway (period start target duration elapsed : ℚ) :
    (underway start target duration elapsed).advance period =
      underway start target duration (min (elapsed + period) duration) := by
  simp only [underway, advance, AuthorityBlend.advance, min_rat]

/-- Steps add up until the duration is reached. -/
theorem iterate_advance_underway {period : ℚ} (nonneg : 0 ≤ period)
    (duration start target : ℚ) (steps n : Nat) :
    (advance period)^[n] (underway start target duration (min (steps * period) duration)) =
      underway start target duration (min ((steps + n : Nat) * period) duration) := by
  induction n with
  | zero => rfl
  | succ n inductionHypothesis =>
      rw [Function.iterate_succ_apply', inductionHypothesis, advance_underway]
      congr 1
      have more : ((steps + (n + 1) : Nat) : ℚ) * period =
          (steps + n : Nat) * period + period := by
        push_cast
        ring
      rw [more]
      rcases le_total ((steps + n : Nat) * period) duration with within | beyond
      · rw [min_eq_left within]
      · rw [min_eq_right beyond, min_eq_right (by linarith), min_eq_right (by linarith)]

theorem authority_underway_zero {duration : ℚ} (positive : 0 < duration) (start target : ℚ) :
    (underway start target duration 0).authority = start := by
  unfold underway
  dsimp only
  rw [AuthorityBlend.weight_eq positive le_rfl positive.le, zero_div, quintic_zero]
  ring

theorem authority_underway_full {duration : ℚ} (positive : 0 < duration) (start target : ℚ) :
    (underway start target duration duration).authority = target :=
  AuthorityBlend.weight_of_done positive rfl

/-- A request replaces the blend unless the authority is already at the target. -/
theorem request_eq (course : Course) (transitionS target : ℚ) :
    course.request transitionS target =
      if 1e-6 < |target - course.authority| then
        underway course.authority target (max transitionS 1e-3) 0
      else course := by
  have positive : (0 : ℚ) < max transitionS 1e-3 := lt_max_of_lt_right (by norm_num)
  by_cases apart : 1e-6 < |target - course.authority|
  · have kept := authority_underway_zero positive course.authority target
    simp only [request, if_pos apart]
    unfold underway at kept ⊢
    dsimp only at kept ⊢
    rw [kept]
    simp only [AuthorityBlend.new, max_rat, ofRat_rat]
  · simp only [request, if_neg apart]

theorem heads_rest {authority target : ℚ} :
    Heads ⟨authority, none⟩ target ↔ authority = target := by
  simp [Heads]

theorem heads_underway {start target duration elapsed other : ℚ} (positive : 0 < duration)
    (within : elapsed ≤ duration) :
    Heads (underway start target duration elapsed) other ↔ target = other := by
  rcases within.lt_or_eq with running | rfl
  · simp [Heads, underway, AuthorityBlend.done, running]
  · have full := authority_underway_full positive start target
    unfold Heads
    rw [full]
    simp [underway, AuthorityBlend.done]

/-- The targets of two modes are the same or far apart. -/
theorem authorityTarget_close {mode other : Mode}
    (close : |authorityTarget mode - authorityTarget other| ≤ (1e-6 : ℚ)) :
    (authorityTarget mode : ℚ) = authorityTarget other := by
  cases mode <;> cases other <;> simp only [authorityTarget, ofRat_rat] at close ⊢ <;>
    norm_num [abs_le] at close

section Plans

variable {duration period : ℚ} {course : Course}

theorem Planned.advance (nonneg : 0 ≤ period) (planned : Planned duration period course) :
    Planned duration period (course.advance period) := by
  cases planned with
  | rest mode => exact .rest mode
  | moving start mode steps apart =>
      have step := iterate_advance_underway nonneg duration start
        (authorityTarget mode) steps 1
      rw [Function.iterate_one] at step
      rw [step]
      exact .moving start mode (steps + 1) apart

theorem Planned.iterate_advance (nonneg : 0 ≤ period) (planned : Planned duration period course)
    (n : Nat) : Planned duration period ((Course.advance period)^[n] course) := by
  induction n with
  | zero => exact planned
  | succ n inductionHypothesis =>
      rw [Function.iterate_succ_apply']
      exact inductionHypothesis.advance nonneg

theorem Planned.request (positive : 0 < duration) {transitionS : ℚ}
    (lasts : max transitionS 1e-3 = duration) (planned : Planned duration period course)
    (mode : Mode) : Planned duration period (course.request transitionS (authorityTarget mode)) := by
  rw [request_eq, lasts]
  split
  · rename_i apart
    have fresh := @Planned.moving duration period course.authority mode 0 apart
    rwa [Nat.cast_zero, zero_mul, min_eq_left positive.le] at fresh
  · exact planned

/-- What a step does to the heading: nothing. -/
theorem Planned.heads_advance (positive : 0 < duration)
    (planned : Planned duration period course) {target : ℚ} (heads : course.Heads target) :
    (course.advance period).Heads target := by
  cases planned with
  | rest mode => exact heads
  | moving start mode steps apart =>
      rw [advance_underway]
      exact (heads_underway positive (min_le_right _ _)).mpr
        ((heads_underway positive (min_le_right _ _)).mp heads)

theorem Planned.heads_iterate (positive : 0 < duration) (nonneg : 0 ≤ period)
    (planned : Planned duration period course) {target : ℚ} (heads : course.Heads target)
    (n : Nat) : ((Course.advance period)^[n] course).Heads target := by
  induction n with
  | zero => exact heads
  | succ n inductionHypothesis =>
      rw [Function.iterate_succ_apply']
      exact (planned.iterate_advance nonneg n).heads_advance positive inductionHypothesis

/-- After a request the authority heads for its target, if no unfinished blend that heads
elsewhere is kept. -/
theorem Planned.heads_request (positive : 0 < duration) {transitionS : ℚ}
    (lasts : max transitionS 1e-3 = duration) (planned : Planned duration period course)
    {mode : Mode}
    (straight : |authorityTarget mode - course.authority| ≤ (1e-6 : ℚ) →
      ∀ blend, course.blend = some blend → blend.done = false →
        blend.toWeight = authorityTarget mode) :
    (course.request transitionS (authorityTarget mode)).Heads (authorityTarget mode) := by
  rw [request_eq, lasts]
  split
  · exact (heads_underway positive positive.le).mpr rfl
  · rename_i near
    have close := not_lt.mp near
    cases planned with
    | rest other => exact heads_rest.mpr (authorityTarget_close close).symm
    | moving start other steps apart =>
        apply (heads_underway positive (min_le_right _ _)).mpr
        rcases (min_le_right (steps * period) duration).lt_or_eq with running | complete
        · exact straight close _ rfl (AuthorityBlend.done_eq_false.mpr running)
        · rw [complete, authority_underway_full positive] at close
          exact (authorityTarget_close close).symm

/-- Once the steps make up the duration, the authority is where it was heading. -/
theorem Planned.authority_iterate (positive : 0 < duration) (nonneg : 0 ≤ period)
    (planned : Planned duration period course) {target : ℚ} (heads : course.Heads target) {n : Nat}
    (enough : duration ≤ n * period) :
    ((Course.advance period)^[n] course).authority = target := by
  cases planned with
  | rest mode =>
      have still : (Course.advance period)^[n] ⟨authorityTarget mode, none⟩ =
          ⟨authorityTarget mode, none⟩ := Function.iterate_fixed rfl n
      rw [still]
      exact heads_rest.mp heads
  | moving start mode steps apart =>
      have full : duration ≤ (steps + n : Nat) * period := by
        push_cast
        nlinarith [mul_nonneg (Nat.cast_nonneg (α := ℚ) steps) nonneg]
      rw [iterate_advance_underway nonneg, min_eq_right full, authority_underway_full positive]
      exact (heads_underway positive (min_le_right _ _)).mp heads

end Plans

end Course

namespace SafetyLoop

/-- The tick period in seconds. -/
def period (loop : SafetyLoop ℚ ℚ) : ℚ := loop.cfg.tickPeriodUs.toNat / 1e6

def course (loop : SafetyLoop ℚ ℚ) : Course := ⟨loop.authority, loop.blend⟩

/-- How often a tick moves the blend on: once more when there is a command to process. -/
def advances (loop : SafetyLoop ℚ ℚ) : Nat := if loop.input.items = [] then 1 else 2

theorem course_advanceBlend (loop : SafetyLoop ℚ ℚ) :
    loop.advanceBlend.course = loop.course.advance loop.period := by
  cases moving : loop.blend with
  | none => simp only [advanceBlend, course, Course.advance, moving]
  | some blend =>
      simp only [advanceBlend, course, Course.advance, moving]
      rfl

theorem course_projectFence (loop : SafetyLoop ℚ ℚ) (cmd : ControlCommand ℚ)
    (atUnixNs : UInt64) : (loop.projectFence cmd atUnixNs).1.course = loop.course := by
  rcases loop.projectFence_cases cmd atUnixNs with ⟨same, -⟩ | ⟨stopped, -⟩
  · rw [same]
  · rw [stopped]
    rfl

/-- Processing a command moves the blend on. -/
theorem course_intercept (loop : SafetyLoop ℚ ℚ) (cmd : ControlCommand ℚ)
    (nowNs atUnixNs : UInt64) :
    (loop.intercept cmd nowNs atUnixNs).1.course = loop.course.advance loop.period :=
  calc (loop.intercept cmd nowNs atUnixNs).1.course
    _ = ((loop.prepare cmd nowNs).1.projectFence (loop.prepare cmd nowNs).2 atUnixNs).1.course :=
        rfl
    _ = (loop.prepare cmd nowNs).1.course := course_projectFence _ _ _
    _ = loop.course.advance loop.period := course_advanceBlend _

theorem period_advanceBlend (loop : SafetyLoop ℚ ℚ) : loop.advanceBlend.period = loop.period := by
  simp only [period, loop.advanceBlend_frame.2.2.1]

theorem items_of_handle_none {loop : SafetyLoop ℚ ℚ} {nowNs atUnixNs : UInt64}
    (handled : loop.handle nowNs atUnixNs = none) : loop.input.items = [] := by
  unfold handle at handled
  dsimp only at handled
  split at handled
  · rename_i idle
    rw [loop.advanceBlend_frame.2.2.2.2] at idle
    exact List.getLast?_eq_none_iff.mp idle
  · cases handled

theorem course_handle {loop after : SafetyLoop ℚ ℚ} {nowNs atUnixNs : UInt64}
    {cmd : ControlCommand ℚ} {drained : Nat}
    (handled : loop.handle nowNs atUnixNs = some (after, cmd, drained)) :
    loop.input.items ≠ [] ∧
      after.course = (loop.course.advance loop.period).advance loop.period := by
  obtain ⟨newest, found, result⟩ := handle_eq_some handled
  constructor
  · rw [loop.advanceBlend_frame.2.2.2.2] at found
    intro empty
    simp [SpscRing.drain, empty] at found
  · calc after.course
      _ = ({ loop.advanceBlend with input := loop.advanceBlend.input.drain.2 }.intercept
            newest nowNs atUnixNs).1.course := by rw [result]
      _ = loop.advanceBlend.course.advance loop.advanceBlend.period := course_intercept _ _ _ _
      _ = (loop.course.advance loop.period).advance loop.period := by
          rw [course_advanceBlend, period_advanceBlend]

/-- A tick moves the blend on once, and once more when it processes a command. -/
theorem course_processOne (loop : SafetyLoop ℚ ℚ) (nowNs atUnixNs : UInt64) :
    (loop.processOne nowNs atUnixNs).1.course =
      (Course.advance loop.period)^[loop.advances] loop.course := by
  cases handled : loop.handle nowNs atUnixNs with
  | none =>
      simp only [processOne, handled, advances, if_pos (items_of_handle_none handled),
        Function.iterate_one]
      exact course_advanceBlend loop
  | some result =>
      obtain ⟨after, cmd, drained⟩ := result
      obtain ⟨busy, moved⟩ := course_handle handled
      simp only [processOne, handled, advances, if_neg busy]
      cases after.output.push cmd <;> exact moved

/-- A granted request. -/
def grants (loop : SafetyLoop ℚ ℚ) (mode : Mode) : Bool :=
  loop.machine.rules.allows loop.machine.current mode

theorem course_requestMode (loop : SafetyLoop ℚ ℚ) (mode : Mode) (atUnixNs : UInt64) :
    (loop.requestMode mode atUnixNs).1.course =
      if loop.grants mode then loop.course.request loop.cfg.transitionS (authorityTarget mode)
      else loop.course := by
  rcases loop.machine.tryTransition_cases mode atUnixNs with ⟨refused, ran⟩ | ⟨granted, ran⟩
  · simp [requestMode, ran, grants, refused, course]
  · simp [requestMode, ran, grants, granted, course, Course.request]
    rfl

/-- No other call touches the blend, and none touches the configuration. -/
theorem course_perform (loop : SafetyLoop ℚ ℚ) (action : Action ℚ ℚ) :
    (loop.perform action).course =
      match action with
      | .requestMode mode _ =>
          if loop.grants mode then
            loop.course.request loop.cfg.transitionS (authorityTarget mode)
          else loop.course
      | .processOne _ _ => (Course.advance loop.period)^[loop.advances] loop.course
      | _ => loop.course := by
  cases action with
  | requestMode mode atUnixNs => exact course_requestMode loop mode atUnixNs
  | processOne nowNs atUnixNs => exact course_processOne loop nowNs atUnixNs
  | popOutput =>
      simp only [perform]
      split <;> rfl
  | emergencyStop | setPose | setAutonomyBaseline | engageAiVeto | disengageAiVeto
  | machineForceEmergencyStop | machineTryTransition | pushInput => rfl

section Requests

/-- The length of every blend of a loop, in seconds. -/
def duration (loop : SafetyLoop ℚ ℚ) : ℚ := max loop.cfg.transitionS 1e-3

theorem duration_pos (loop : SafetyLoop ℚ ℚ) : 0 < loop.duration :=
  lt_max_of_lt_right (by norm_num)

theorem period_nonneg (loop : SafetyLoop ℚ ℚ) : 0 ≤ loop.period :=
  div_nonneg (Nat.cast_nonneg _) (by norm_num)

/-- The calls one after the other. -/
def run (loop : SafetyLoop ℚ ℚ) (actions : List (Action ℚ ℚ)) : SafetyLoop ℚ ℚ :=
  actions.foldl perform loop

def isTick : Action ℚ ℚ → Bool
  | .processOne _ _ => true
  | _ => false

/-- The ticks among the calls. -/
def ticks (actions : List (Action ℚ ℚ)) : Nat := actions.countP isTick

/-- The ticks that find a command in the input ring. -/
def busyTicks (loop : SafetyLoop ℚ ℚ) : List (Action ℚ ℚ) → Nat
  | [] => 0
  | action :: rest =>
      (if isTick action ∧ loop.input.items ≠ [] then 1 else 0) +
        busyTicks (loop.perform action) rest

/-- No mode is requested. -/
def Quiet (actions : List (Action ℚ ℚ)) : Prop :=
  ∀ action ∈ actions, ∀ mode atUnixNs, action ≠ .requestMode mode atUnixNs

theorem period_perform (loop : SafetyLoop ℚ ℚ) (action : Action ℚ ℚ) :
    (loop.perform action).period = loop.period := by
  simp only [period, cfg_perform]

theorem duration_perform (loop : SafetyLoop ℚ ℚ) (action : Action ℚ ℚ) :
    (loop.perform action).duration = loop.duration := by
  simp only [duration, cfg_perform]

/-- Without requests the blend moves on once for each tick and once more for each busy one. -/
theorem course_run (loop : SafetyLoop ℚ ℚ) {actions : List (Action ℚ ℚ)}
    (quiet : Quiet actions) : (loop.run actions).course =
      (Course.advance loop.period)^[ticks actions + loop.busyTicks actions] loop.course := by
  induction actions generalizing loop with
  | nil => rfl
  | cons action rest inductionHypothesis =>
      have later := inductionHypothesis (loop.perform action)
        (fun other member => quiet other (List.mem_cons_of_mem _ member))
      have first := course_perform loop action
      rw [period_perform] at later
      have whole : loop.run (action :: rest) = (loop.perform action).run rest := rfl
      rw [whole, later]
      cases action with
      | processOne nowNs atUnixNs =>
          rw [first, ← Function.iterate_add_apply]
          congr 1
          by_cases idle : loop.input.items = []
          · simp [ticks, busyTicks, isTick, advances, List.countP_cons, idle]
            omega
          · simp [ticks, busyTicks, isTick, advances, List.countP_cons, idle]
            omega
      | requestMode mode atUnixNs => exact absurd rfl (quiet _ List.mem_cons_self mode atUnixNs)
      | emergencyStop | setPose | setAutonomyBaseline | engageAiVeto | disengageAiVeto
      | machineForceEmergencyStop | machineTryTransition | pushInput | popOutput =>
          rw [first]
          simp [ticks, busyTicks, isTick]

/-- A loop with the mode that was granted last through a request. -/
structure Directed where
  loop : SafetyLoop ℚ ℚ
  granted : Mode

def Directed.perform (directed : Directed) (action : Action ℚ ℚ) : Directed where
  loop := directed.loop.perform action
  granted :=
    match action with
    | .requestMode mode _ => if directed.loop.grants mode then mode else directed.granted
    | _ => directed.granted

/-- All runs, from any mode. -/
def directedSystem : TransitionSystem Directed (Action ℚ ℚ) :=
  .ofNext (fun directed => ∃ input output machine cfg,
      directed = ⟨new input output machine cfg, machine.current⟩)
    fun directed action => some (directed.perform action)

/-- A granted request that finds the authority at its target finds no unfinished blend that
heads elsewhere. -/
def Straight (directed : Directed) : Action ℚ ℚ → Prop
  | .requestMode mode _ => directed.loop.grants mode = true →
      |authorityTarget mode - directed.loop.authority| ≤ (1e-6 : ℚ) →
      ∀ blend, directed.loop.blend = some blend → blend.done = false →
        blend.toWeight = authorityTarget mode
  | _ => True

theorem planned_perform {loop : SafetyLoop ℚ ℚ}
    (planned : Course.Planned loop.duration loop.period loop.course) (action : Action ℚ ℚ) :
    Course.Planned (loop.perform action).duration (loop.perform action).period
      (loop.perform action).course := by
  rw [duration_perform, period_perform, course_perform]
  cases action with
  | requestMode mode atUnixNs =>
      dsimp only
      split
      · exact planned.request loop.duration_pos rfl mode
      · exact planned
  | processOne nowNs atUnixNs => exact planned.iterate_advance loop.period_nonneg _
  | emergencyStop | setPose | setAutonomyBaseline | engageAiVeto | disengageAiVeto
  | machineForceEmergencyStop | machineTryTransition | pushInput | popOutput => exact planned

theorem planned_new (input output : SpscRing (ControlCommand ℚ)) (machine : StateMachine)
    (cfg : SafetyConfig ℚ ℚ) : Course.Planned (new input output machine cfg).duration
      (new input output machine cfg).period (new input output machine cfg).course :=
  .rest machine.current

theorem heads_perform {directed : Directed}
    (planned : Course.Planned directed.loop.duration directed.loop.period directed.loop.course)
    (heads : directed.loop.course.Heads (authorityTarget directed.granted))
    {action : Action ℚ ℚ} (straight : Straight directed action) :
    (directed.perform action).loop.course.Heads
      (authorityTarget (directed.perform action).granted) := by
  have moved : (directed.perform action).loop.course = _ := course_perform directed.loop action
  rw [moved]
  cases action with
  | requestMode mode atUnixNs =>
      cases granted : directed.loop.grants mode with
      | true =>
          simp only [Directed.perform, granted, if_true]
          exact planned.heads_request directed.loop.duration_pos rfl (straight granted)
      | false =>
          simp only [Directed.perform, granted]
          exact heads
  | processOne nowNs atUnixNs =>
      exact planned.heads_iterate directed.loop.duration_pos directed.loop.period_nonneg heads _
  | emergencyStop | setPose | setAutonomyBaseline | engageAiVeto | disengageAiVeto
  | machineForceEmergencyStop | machineTryTransition | pushInput | popOutput => exact heads

theorem planned_and_heads_of_reachable {directed : Directed}
    (reached : (directedSystem.restrict Straight).Reachable directed) :
    Course.Planned directed.loop.duration directed.loop.period directed.loop.course ∧
      directed.loop.course.Heads (authorityTarget directed.granted) := by
  apply reached.invariant (P := fun directed =>
    Course.Planned directed.loop.duration directed.loop.period directed.loop.course ∧
      directed.loop.course.Heads (authorityTarget directed.granted))
  · rintro directed ⟨input, output, machine, cfg, rfl⟩
    exact ⟨planned_new input output machine cfg, Course.heads_rest.mpr rfl⟩
  · rintro directed action target ⟨planned, heads⟩ ⟨straight, stepped⟩
    cases stepped
    exact ⟨planned_perform planned action, heads_perform planned heads straight⟩

/-- In every run in which no granted request leaves a blend going elsewhere, the authority
heads for the mode granted last, and is there once the transition time has passed. -/
theorem heads_of_reachable {directed : Directed}
    (reached : (directedSystem.restrict Straight).Reachable directed) :
    directed.loop.course.Heads (authorityTarget directed.granted) ∧
      ∀ actions, Quiet actions →
        max directed.loop.cfg.transitionS 1e-3 ≤ ticks actions * directed.loop.period →
        (directed.loop.run actions).authority = authorityTarget directed.granted := by
  obtain ⟨planned, heads⟩ := planned_and_heads_of_reachable reached
  refine ⟨heads, ?_⟩
  intro actions quiet enough
  have moved := congrArg Course.authority (course_run directed.loop quiet)
  refine moved.trans (planned.authority_iterate directed.loop.duration_pos
    directed.loop.period_nonneg heads (enough.trans ?_))
  apply mul_le_mul_of_nonneg_right _ directed.loop.period_nonneg
  exact_mod_cast Nat.le_add_right _ _

end Requests

/-- A fresh loop in exact arithmetic, still in the autonomous mode. -/
def directedFresh : Directed := ⟨fresh, .auto⟩

theorem reachable_directedFresh : directedSystem.Reachable directedFresh :=
  .of_initial ⟨_, _, _, _, rfl⟩

/-- The assist mode is requested and taken back before the next tick. -/
def takenBack : Directed :=
  (directedFresh.perform (.requestMode .assist 1)).perform (.requestMode .auto 2)

/-- The blend to the assist mode survives the request for the autonomous mode. -/
theorem takenBack_not_heads : directedSystem.Reachable takenBack ∧ takenBack.granted = .auto ∧
    ¬ takenBack.loop.course.Heads (authorityTarget takenBack.granted) := by
  refine ⟨(reachable_directedFresh.step rfl).step rfl, by decide, ?_⟩
  have toWeight : takenBack.loop.blend.map AuthorityBlend.toWeight = some (1 / 2) := by
    decide +kernel
  have running : takenBack.loop.blend.map AuthorityBlend.done = some false := by
    decide +kernel
  have target : (authorityTarget takenBack.granted : ℚ) = 0 := by decide +kernel
  obtain ⟨blend, held, half⟩ := Option.map_eq_some_iff.mp toWeight
  rw [held] at running
  rintro (⟨other, same, -, toward⟩ | ⟨complete, -⟩)
  · cases held.symm.trans same
    rw [half, target] at toward
    norm_num at toward
  · have finished := complete blend held
    simp [finished] at running

/-- The assist mode is requested and 200 ticks of 5 ms pass. -/
theorem authority_after_assist :
    ((directedFresh.perform (.requestMode .assist 1)).loop.run
      (List.replicate 200 (.processOne 1 1))).authority = 1 / 2 := by
  have start : (directedSystem.restrict Straight).Reachable directedFresh :=
    .of_initial ⟨_, _, _, _, rfl⟩
  have straight : Straight directedFresh (.requestMode .assist 1) := by
    intro granted close blend held
    cases held
  have requested : (directedSystem.restrict Straight).Reachable
      (directedFresh.perform (.requestMode .assist 1)) := start.step ⟨straight, rfl⟩
  have target : (authorityTarget (directedFresh.perform (.requestMode .assist 1)).granted : ℚ) =
      1 / 2 := by decide +kernel
  refine ((heads_of_reachable requested).2 (List.replicate 200 (.processOne 1 1)) ?_ ?_).trans
    target
  · intro action member mode atUnixNs
    rw [List.eq_of_mem_replicate member]
    simp
  · have count : ticks (List.replicate 200 (.processOne 1 1)) = 200 := by decide +kernel
    rw [count]
    decide +kernel

end SafetyLoop

end Teleop.Safety
