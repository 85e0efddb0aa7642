import Teleop.Lib.NotANumber
import Teleop.Safety.Envelope

/-!
# Samples that are no numbers

Every stage hands an axis that is no number on as it is, and none but the limiter mixes in
what an earlier tick left.  So a bad sample stays in the last accepted command, and in
every output after it, until the stop is latched.
-/

namespace Teleop.Safety

open Teleop.Core Teleop.Core.ControlCommand Teleop.Ring Teleop.Lib Teleop.Lib.FloatOps

variable {F G : Type} [FloatOps F] [FloatOps G] [FloatPair F G]

/-- Every axis is a number. -/
def Clean (cmd : ControlCommand (OrNaN F)) : Prop := ∀ axis, cmd.axes axis ≠ .nan

/-- The same axes are numbers. -/
def SameNumbers (cmd other : ControlCommand (OrNaN F)) : Prop :=
  ∀ axis, other.axes axis = .nan ↔ cmd.axes axis = .nan

namespace SameNumbers

variable {cmd other third : ControlCommand (OrNaN F)}

omit [FloatOps F] in
theorem refl (cmd : ControlCommand (OrNaN F)) : SameNumbers cmd cmd := fun _ => .rfl

omit [FloatOps F] in
theorem trans (left : SameNumbers cmd other) (right : SameNumbers other third) :
    SameNumbers cmd third := fun axis => (right axis).trans (left axis)

omit [FloatOps F] in
theorem setAxis {axis : Fin 6} {value : OrNaN F}
    (kept : value = .nan ↔ cmd.axes axis = .nan) : SameNumbers cmd (cmd.setAxis axis value) := by
  intro other
  by_cases same : other = axis
  · subst same
    simpa [ControlCommand.setAxis] using kept
  · simp [ControlCommand.setAxis, same]

omit [FloatOps F] in
theorem foldl {State Item : Type} {f : State → ControlCommand (OrNaN F)}
    {pass : State → Item → State} {items : List Item}
    (each : ∀ item ∈ items, ∀ state, SameNumbers (f state) (f (pass state item)))
    (state : State) : SameNumbers (f state) (f (items.foldl pass state)) := by
  induction items generalizing state with
  | nil => exact refl _
  | cons item rest inductionHypothesis =>
      have first := each item List.mem_cons_self state
      have others := inductionHypothesis fun later listed =>
        each later (List.mem_cons_of_mem item listed)
      exact first.trans (others (pass state item))

omit [FloatOps F] in
/-- A number in the place of a number. -/
theorem replace {when : Bool} {axis : Fin 6} {value : OrNaN F}
    (was : when = true → cmd.axes axis ≠ .nan) (number : value ≠ .nan) :
    SameNumbers cmd (if when then cmd.setAxis axis value else cmd) := by
  cases when with
  | false => exact refl cmd
  | true => exact setAxis (iff_of_false number (was rfl))

end SameNumbers

section Stages

variable (cmd : ControlCommand (OrNaN F))

theorem sameNumbers_compensate (latency : LatencyCompensator (OrNaN G)) :
    SameNumbers cmd (latency.compensate cmd) := by
  unfold LatencyCompensator.compensate
  dsimp only
  split
  case isTrue attenuated =>
      have factor := (OrNaN.numbers_of_lt attenuated).1
      apply SameNumbers.foldl (f := id)
      intro axis _ cmd
      exact .setAxis (by simp [factor])
  case isFalse => exact .refl cmd

theorem sameNumbers_veto (gate : VetoGate (OrNaN F)) : SameNumbers cmd (gate.apply cmd).1 := by
  unfold VetoGate.apply
  dsimp only
  split
  · exact .refl cmd
  · apply SameNumbers.foldl (f := Prod.fst)
    rintro axis _ ⟨cmd, touched⟩
    dsimp only
    split
    · exact .setAxis OrNaN.clamp_eq_nan
    · exact .refl cmd

theorem sameNumbers_suppress {severity : OrNaN G} (number : severity ≠ .nan) (axis : Fin 6)
    (u : OrNaN G) : SameNumbers cmd (GeoFence.suppress severity cmd axis u) := by
  unfold GeoFence.suppress
  dsimp only
  split
  case isTrue outward =>
      have both := (OrNaN.numbers_of_lt outward).2
      simp only [ne_eq, OrNaN.mul_eq_nan, OrNaN.widen_eq_nan, not_or] at both
      exact .setAxis (by simp [both, number])
  case isFalse => exact .refl cmd

theorem sameNumbers_clampCommand (fence : GeoFence (OrNaN G)) (pose : Pose6D (OrNaN F) (OrNaN G))
    (verdict : FenceVerdict) : SameNumbers cmd (fence.clampCommand pose verdict cmd) := by
  have horizontal : SameNumbers cmd (fence.clampHorizontal pose verdict cmd) := by
    unfold GeoFence.clampHorizontal
    dsimp only
    split
    case isTrue severe =>
        have number := (OrNaN.numbers_of_lt ((Bool.and_eq_true _ _).mp severe).2).2
        apply SameNumbers.foldl (f := id)
        rintro ⟨axis, u⟩ _ cmd
        exact sameNumbers_suppress cmd number axis u
    case isFalse => exact .refl cmd
  have neutral : (throttleNeutral : OrNaN F) ≠ .nan := OrNaN.ofRat_ne_nan _
  refine horizontal.trans (.trans (.replace ?_ neutral) (.replace ?_ neutral))
  · intro pinned
    exact (OrNaN.numbers_of_lt ((Bool.and_eq_true _ _).mp pinned).2).2
  · intro pinned
    exact (OrNaN.numbers_of_lt ((Bool.and_eq_true _ _).mp pinned).2).1

omit [FloatPair F G] in
theorem sameNumbers_brake (loop : SafetyLoop (OrNaN F) (OrNaN G)) :
    SameNumbers cmd (loop.brake cmd).2 := by
  have pin : (ofRat 0.3 : OrNaN F) ≠ .nan := OrNaN.ofRat_ne_nan _
  refine .trans (.replace ?_ pin) (.replace ?_ pin)
  · intro braking
    exact (OrNaN.numbers_of_lt ((Bool.and_eq_true _ _).mp braking).2).2
  · intro overshooting
    exact (OrNaN.numbers_of_lt ((Bool.and_eq_true _ _).mp overshooting).2).2

/-- The limiter adds what it is given to the last accepted command. -/
theorem apply_eq_nan (limits : KinematicLimits (OrNaN F)) (last : ControlCommand (OrNaN F))
    (axis : Fin 6) : (limits.apply last cmd).1.axes axis = .nan ↔
      cmd.axes axis = .nan ∨ last.axes axis = .nan := by
  rw [KinematicLimits.axes_apply]
  simp only [OrNaN.add_eq_nan, OrNaN.clamp_eq_nan, OrNaN.sub_eq_nan]
  tauto

omit [FloatOps G] [FloatPair F G] in
theorem mixAuthority_eq_nan (loop : SafetyLoop (OrNaN F) (OrNaN G)) (axis : Fin 6) :
    (loop.mixAuthority cmd).axes axis = .nan ↔ cmd.axes axis = .nan ∨
      (lt loop.authority (ofRat 0.9999) = true ∧ loop.baseline.axes axis = .nan) := by
  unfold SafetyLoop.mixAuthority
  split
  case isTrue mixed => simp [OrNaN.numbers_of_lt mixed, mixed, or_comm]
  case isFalse pure => simp [pure]

end Stages

namespace SafetyLoop

variable (loop : SafetyLoop (OrNaN F) (OrNaN G)) (cmd : ControlCommand (OrNaN F))
  (nowNs atUnixNs : UInt64)

/-- The authority is low enough for the baseline to be mixed into a command. -/
def mixes : Bool := lt loop.advanceBlend.authority (ofRat 0.9999)

theorem advanceBlend_latency (latency : LatencyCompensator (OrNaN G)) :
    { loop with latency }.advanceBlend = { loop.advanceBlend with latency } := by
  rcases loop with ⟨_, _, _, _, _, _ | _⟩ <;> rfl

theorem mixes_input (input : SpscRing (ControlCommand (OrNaN F))) :
    { loop with input }.mixes = loop.mixes := by
  rcases loop with ⟨_, _, _, _, _, _ | _⟩ <;> rfl

theorem baseline_advanceBlend : loop.advanceBlend.baseline = loop.baseline := by
  unfold advanceBlend
  split <;> rfl

theorem prepare_eq_nan (axis : Fin 6) : (loop.prepare cmd nowNs).2.axes axis = .nan ↔
    cmd.axes axis = .nan ∨ (loop.mixes = true ∧ loop.baseline.axes axis = .nan) := by
  unfold prepare
  dsimp only
  rw [sameNumbers_veto, mixAuthority_eq_nan, sameNumbers_compensate, advanceBlend_latency]
  dsimp only
  rw [baseline_advanceBlend, mixes]

theorem projectFence_eq_nan (axis : Fin 6) :
    (loop.projectFence cmd atUnixNs).2.axes axis = .nan ↔ cmd.axes axis = .nan := by
  unfold projectFence
  dsimp only
  split
  · exact sameNumbers_clampCommand cmd _ _ _ axis
  · rfl

omit [FloatPair F G] in
theorem limit_eq_nan (axis : Fin 6) : (loop.limit cmd).2.axes axis = .nan ↔
    cmd.axes axis = .nan ∨ loop.lastOut.axes axis = .nan := by
  rw [limit, sameNumbers_brake, apply_eq_nan]

/-- An axis is no number in the output of a tick that does not stop, when it was none in the
command, in a baseline that was mixed in, or in the output before. -/
theorem intercept_eq_nan (axis : Fin 6) :
    (loop.intercept cmd nowNs atUnixNs).2.axes axis = .nan ↔
      (loop.intercept cmd nowNs atUnixNs).1.estopLatched = false ∧
        (cmd.axes axis = .nan ∨ (loop.mixes = true ∧ loop.baseline.axes axis = .nan) ∨
          loop.lastOut.axes axis = .nan) := by
  obtain ⟨-, sameOut, -⟩ := prepare_keeps loop cmd nowNs
  obtain ⟨-, sameOut', -⟩ := projectFence_keeps (loop.prepare cmd nowNs).1
    (loop.prepare cmd nowNs).2 atUnixNs
  unfold intercept
  dsimp only
  rw [(limit_frame ..).2.1]
  cases stopped : ((loop.prepare cmd nowNs).1.projectFence (loop.prepare cmd nowNs).2
      atUnixNs).1.estopLatched with
  | true => simp [writeEmergencyStop, zeroed]
  | false =>
      rw [if_neg Bool.false_ne_true, limit_eq_nan, projectFence_eq_nan, prepare_eq_nan, sameOut',
        sameOut]
      simp [or_assoc]

/-- What a tick takes up: the newest command, and the baseline if it is mixed in. -/
structure Tick (F : Type) where
  newest : ControlCommand (OrNaN F)
  baseline : ControlCommand (OrNaN F)
  mixed : Bool

/-- An axis on which the tick takes up what is no number. -/
def Tick.Bad (tick : Tick F) (axis : Fin 6) : Prop :=
  tick.newest.axes axis = .nan ∨ (tick.mixed = true ∧ tick.baseline.axes axis = .nan)

def Tick.Clean (tick : Tick F) : Prop := ∀ axis, ¬ tick.Bad axis

/-- What the next tick takes up of the newest command. -/
def tickOf (newest : ControlCommand (OrNaN F)) : Tick F :=
  ⟨newest, loop.baseline, loop.advanceBlend.mixes⟩

variable {loop cmd nowNs atUnixNs}

/-- A tick that processes a command, axis by axis. -/
theorem handle_eq_nan {after : SafetyLoop (OrNaN F) (OrNaN G)} {drained : Nat}
    (handled : loop.handle nowNs atUnixNs = some (after, cmd, drained)) :
    ∃ newest, loop.input.items.getLast? = some newest ∧ after.lastOut = cmd ∧
      (after.estopLatched = true ↔
        loop.estopLatched = true ∨ loop.cfg.fence.evaluate loop.pose = .hardBreach) ∧
      ∀ axis, cmd.axes axis = .nan ↔ after.estopLatched = false ∧
        ((loop.tickOf newest).Bad axis ∨ loop.lastOut.axes axis = .nan) := by
  obtain ⟨-, latch, cfg, pose, input⟩ := loop.advanceBlend_frame
  have lastOut : loop.advanceBlend.lastOut = loop.lastOut := by
    unfold advanceBlend
    split <;> rfl
  unfold handle at handled
  dsimp only at handled
  split at handled
  · cases handled
  · rename_i newest found
    let taken : SafetyLoop (OrNaN F) (OrNaN G) :=
      { loop.advanceBlend with input := loop.advanceBlend.input.drain.2 }
    have mixes : taken.mixes = loop.advanceBlend.mixes := mixes_input loop.advanceBlend _
    have baseline : taken.baseline = loop.baseline := baseline_advanceBlend loop
    have sameOut : taken.lastOut = loop.lastOut := lastOut
    cases handled
    refine ⟨newest, ?_, rfl, ?_, ?_⟩
    · rw [← input]
      exact found
    · rw [← latch, ← cfg, ← pose]
      exact (intercept_latch taken newest nowNs atUnixNs).1
    · intro axis
      have bad := intercept_eq_nan taken newest nowNs atUnixNs axis
      rwa [mixes, baseline, sameOut, ← or_assoc] at bad

/-- A tick without a command leaves the last accepted command and the latch. -/
theorem processOne_idle (handled : loop.handle nowNs atUnixNs = none) :
    loop.input.items.getLast? = none ∧
      (loop.processOne nowNs atUnixNs).1.lastOut = loop.lastOut ∧
      (loop.processOne nowNs atUnixNs).1.estopLatched = loop.estopLatched := by
  obtain ⟨-, latch, -, -, input⟩ := loop.advanceBlend_frame
  have lastOut : loop.advanceBlend.lastOut = loop.lastOut := by
    unfold advanceBlend
    split <;> rfl
  refine ⟨?_, by simp only [processOne, handled, lastOut], by simp only [processOne, handled, latch]⟩
  unfold handle at handled
  dsimp only at handled
  split at handled
  · rename_i idle
    rw [← input]
    exact idle
  · cases handled

theorem processOne_handled {after : SafetyLoop (OrNaN F) (OrNaN G)} {drained : Nat}
    (handled : loop.handle nowNs atUnixNs = some (after, cmd, drained)) :
    (loop.processOne nowNs atUnixNs).1.lastOut = after.lastOut ∧
      (loop.processOne nowNs atUnixNs).1.estopLatched = after.estopLatched := by
  simp only [processOne, handled]
  split <;> exact ⟨rfl, rfl⟩

/-- A loop with what its ticks took up, the newest first. -/
structure Sampled (F G : Type) where
  loop : SafetyLoop (OrNaN F) (OrNaN G)
  ticks : List (Tick F)

/-- Performs one call and records what a tick takes up. -/
def Sampled.perform (sampled : Sampled F G) (action : Action (OrNaN F) (OrNaN G)) :
    Sampled F G where
  loop := sampled.loop.perform action
  ticks :=
    match action with
    | .processOne _ _ =>
        match sampled.loop.input.items.getLast? with
        | none => sampled.ticks
        | some newest => sampled.loop.tickOf newest :: sampled.ticks
    | _ => sampled.ticks

variable (F G) in
def sampledSystem : TransitionSystem (Sampled F G) (Action (OrNaN F) (OrNaN G)) :=
  .ofNext (fun sampled => ∃ input output machine cfg,
      sampled = ⟨new input output machine cfg, []⟩)
    fun sampled action => some (sampled.perform action)

/-- While the loop is not latched, the last accepted command has every bad axis of the run. -/
def Remembers (sampled : Sampled F G) : Prop :=
  sampled.loop.estopLatched = false → ∀ axis,
    sampled.loop.lastOut.axes axis = .nan ↔ ∃ tick ∈ sampled.ticks, tick.Bad axis

theorem remembers_perform {sampled : Sampled F G} (remembers : Remembers sampled)
    (action : Action (OrNaN F) (OrNaN G)) : Remembers (sampled.perform action) := by
  by_cases tick : ∃ nowNs atUnixNs, action = .processOne nowNs atUnixNs
  · obtain ⟨nowNs, atUnixNs, rfl⟩ := tick
    intro running axis
    cases handled : sampled.loop.handle nowNs atUnixNs with
    | none =>
        obtain ⟨idle, lastOut, latch⟩ := processOne_idle handled
        simp only [Sampled.perform, perform, idle, lastOut, latch] at running ⊢
        exact remembers running axis
    | some result =>
        obtain ⟨after, cmd, drained⟩ := result
        obtain ⟨newest, taken, isOut, latched, bad⟩ := handle_eq_nan handled
        obtain ⟨lastOut, latch⟩ := processOne_handled handled
        simp only [Sampled.perform, perform, taken, lastOut, latch, isOut] at running ⊢
        have was : sampled.loop.estopLatched = false := Bool.eq_false_iff.mpr fun before =>
          Bool.eq_false_iff.mp running (latched.mpr (.inl before))
        rw [bad axis, remembers was axis]
        simp [running]
  · have noTick : ∀ nowNs atUnixNs, action ≠ .processOne nowNs atUnixNs := by
      intro nowNs atUnixNs same
      exact tick ⟨nowNs, atUnixNs, same⟩
    obtain ⟨-, lastOut, latch⟩ := sampled.loop.perform_keeps action noTick
    have ticks : (sampled.perform action).ticks = sampled.ticks := by
      unfold Sampled.perform
      dsimp only
      split
      · exact absurd rfl (noTick _ _)
      · rfl
    intro running axis
    have was : sampled.loop.estopLatched = false := Bool.eq_false_iff.mpr fun before =>
      Bool.eq_false_iff.mp running (latch before)
    rw [ticks]
    exact lastOut ▸ remembers was axis

theorem remembers_of_reachable {sampled : Sampled F G}
    (reached : (sampledSystem F G).Reachable sampled) : Remembers sampled := by
  apply reached.invariant
  · rintro sampled ⟨input, output, machine, cfg, rfl⟩ - axis
    simp [new, zeroed]
  · intro sampled action after remembers performed
    exact Option.some.inj performed ▸ remembers_perform remembers action

/-- In every run, a tick on a clean command and a clean baseline has a clean output exactly when
the stop is latched or the pose breaches the fence, or no earlier tick has taken up an axis
that is no number. -/
theorem clean_output_iff {sampled : Sampled F G} {newest : ControlCommand (OrNaN F)}
    {after : SafetyLoop (OrNaN F) (OrNaN G)} {drained : Nat}
    (reached : (sampledSystem F G).Reachable sampled)
    (taken : sampled.loop.input.items.getLast? = some newest) (operator : Clean newest)
    (autonomy : Clean sampled.loop.baseline)
    (handled : sampled.loop.handle nowNs atUnixNs = some (after, cmd, drained)) :
    Clean cmd ↔ sampled.loop.estopLatched = true ∨
      sampled.loop.cfg.fence.evaluate sampled.loop.pose = .hardBreach ∨
      ∀ tick ∈ sampled.ticks, tick.Clean := by
  obtain ⟨_, found, -, latched, bad⟩ := handle_eq_nan handled
  obtain rfl := Option.some.inj (taken.symm.trans found)
  have fresh : ∀ axis, ¬ (sampled.loop.tickOf newest).Bad axis := by
    rintro axis (isNaN | ⟨-, isNaN⟩)
    · exact operator axis isNaN
    · exact autonomy axis isNaN
  rw [← or_assoc, ← latched]
  cases stopped : after.estopLatched with
  | true => simp [Clean, bad, stopped]
  | false =>
      have was : sampled.loop.estopLatched = false := Bool.eq_false_iff.mpr fun before =>
        Bool.eq_false_iff.mp stopped (latched.mpr (.inl before))
      have remains : ∀ axis, cmd.axes axis = .nan ↔ ∃ tick ∈ sampled.ticks, tick.Bad axis := by
        intro axis
        rw [bad, ← remembers_of_reachable reached was axis]
        simp [stopped, fresh axis]
      constructor
      · intro clean
        exact .inr fun tick among axis isBad => clean axis ((remains axis).mpr ⟨tick, among, isBad⟩)
      · rintro (impossible | clean) axis isNaN
        · cases impossible
        · obtain ⟨tick, among, isBad⟩ := (remains axis).mp isNaN
          exact clean tick among axis isBad

/-- A loop with the rationals and one more value on its axes. -/
def sampledFresh : Sampled ℚ ℚ := ⟨new (.withCapacity 4) (.withCapacity 4) .new .default, []⟩

theorem reachable_sampledFresh : (sampledSystem ℚ ℚ).Reachable sampledFresh :=
  .of_initial ⟨_, _, _, _, rfl⟩

/-- A command of numbers, a tick on it, and another such command. -/
def sampledOnce : Sampled ℚ ℚ := sampledFresh.perform (.pushInput (.zeroed .fullTeleop))

def sampledTwice : Sampled ℚ ℚ :=
  (sampledOnce.perform (.processOne 1 1)).perform (.pushInput (.zeroed .fullTeleop))

theorem clean_sampledTwice : ∃ after cmd drained,
    sampledTwice.loop.handle 2 2 = some (after, cmd, drained) ∧ Clean cmd := by
  obtain ⟨⟨after, cmd, drained⟩, handled⟩ :=
    Option.isSome_iff_exists.mp (show (sampledTwice.loop.handle 2 2).isSome by decide +kernel)
  have newest : sampledTwice.loop.input.items.getLast? = some (.zeroed .fullTeleop) := by
    decide +kernel
  have operator : Clean (.zeroed .fullTeleop : ControlCommand (OrNaN ℚ)) := fun _ => nofun
  have autonomy : Clean sampledOnce.loop.baseline ∧ Clean sampledTwice.loop.baseline := by
    constructor <;> unfold Clean <;> decide +kernel
  have ticks : sampledTwice.ticks = [sampledOnce.loop.tickOf (.zeroed .fullTeleop)] := rfl
  have reached : (sampledSystem ℚ ℚ).Reachable sampledTwice :=
    ((reachable_sampledFresh.step rfl).step rfl).step rfl
  refine ⟨after, cmd, drained, handled, ?_⟩
  apply (clean_output_iff reached newest operator autonomy.2 handled).mpr
  refine .inr (.inr fun tick among axis => ?_)
  rw [ticks] at among
  obtain rfl := List.mem_singleton.mp among
  exact not_or.mpr ⟨operator axis, fun mixed => autonomy.1 axis mixed.2⟩

/-- One tick on a command whose roll is no number, and then a command of numbers. -/
def sampledPoisoned : Sampled ℚ ℚ :=
  ((sampledFresh.perform (.pushInput ((.zeroed .fullTeleop : ControlCommand (OrNaN ℚ)).setAxis
    roll .nan))).perform (.processOne 1 1)).perform (.pushInput (.zeroed .fullTeleop))

theorem sampledPoisoned_not_clean : (sampledSystem ℚ ℚ).Reachable sampledPoisoned ∧
    sampledPoisoned.loop.input.items.getLast? = some (.zeroed .fullTeleop) ∧
    Clean (.zeroed .fullTeleop : ControlCommand (OrNaN ℚ)) ∧
    Clean sampledPoisoned.loop.baseline ∧
    (sampledPoisoned.loop.handle 2 2).map (·.2.1.axes roll) = some .nan := by
  refine ⟨((reachable_sampledFresh.step rfl).step rfl).step rfl, ?_, ?_, ?_, ?_⟩
  · decide +kernel
  · exact fun _ => nofun
  · show ∀ axis, _
    decide +kernel
  · decide +kernel

end SafetyLoop

end Teleop.Safety
