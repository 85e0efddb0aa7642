import Mathlib.Tactic.FinCases
import Mathlib.Tactic.Linarith
import Mathlib.Tactic.NormNum
import Teleop.Lib.RealArithmetic
import Teleop.Safety.Stages

/-!
# What the fence leaves of an outward motion

Over the reals.  A motion is outward along the direction from the centre of the fence to the
vehicle, but the fence treats each axis by itself: it takes from an axis that points outward
the square of its own component, also where the other axis of the pair points inward.
-/

namespace Teleop.Safety

open Teleop.Core Teleop.Core.ControlCommand Teleop.Lib Teleop.Lib.FloatOps Teleop.Lib.FloatPair

theorem setAxis_self {S : Type} (cmd : ControlCommand S) (axis : Fin 6) :
    cmd.setAxis axis (cmd.axes axis) = cmd := by
  have same : (fun k => if k = axis then cmd.axes axis else cmd.axes k) = cmd.axes := by
    funext k
    split
    · rename_i here
      rw [here]
    · rfl
  simp only [setAxis, same]

/-- The axes that move the vehicle sideways. -/
def translational : List (Fin 6) := [roll, pitch, latX, latY]

theorem ne_throttle_of_mem {axis : Fin 6} (sideways : axis ∈ translational) : axis ≠ throttle := by
  rintro rfl
  exact absurd sideways (by decide)

namespace GeoFence

variable (fence : GeoFence ℝ) (pose : Pose6D ℝ ℝ) (verdict : FenceVerdict)
  (cmd : ControlCommand ℝ)

/-- Where the vehicle is, seen from the centre, along the direction of an axis. -/
noncomputable def direction (axis : Fin 6) : ℝ :=
  (if axis = latX ∨ axis = roll then pose.x - fence.centerEastM
    else pose.y - fence.centerNorthM) / fence.horizontalDist pose

/-- What is left of an axis with the component `u` of the direction. -/
noncomputable def reduced (severity u value : ℝ) : ℝ :=
  if 0 < value * u then value - value * u * severity * u else value

theorem suppress_eq (severity : ℝ) (cmd : ControlCommand ℝ) (axis : Fin 6) (u : ℝ) :
    suppress severity cmd axis u = cmd.setAxis axis (reduced severity u (cmd.axes axis)) := by
  by_cases outward : 0 < cmd.axes axis * u
  · simp [suppress, reduced, outward]
  · simp [suppress, reduced, outward, setAxis_self]

theorem axes_neutralThrottle {axis : Fin 6} (other : axis ≠ throttle) (when : Bool) :
    (neutralThrottle when cmd).axes axis = cmd.axes axis := by
  cases when with
  | false => rfl
  | true => exact if_neg other

/-- The vehicle is outside by enough to be turned around. -/
def Turns : Prop :=
  1e-9 < fence.horizontalDist pose ∧ 0 < fence.severity verdict (fence.horizontalDist pose)

theorem clampHorizontal_eq (turns : fence.Turns pose verdict) :
    fence.clampHorizontal pose verdict cmd =
      [latX, latY, roll, pitch].foldl (fun cmd axis =>
        suppress (fence.severity verdict (fence.horizontalDist pose)) cmd axis
          (fence.direction pose axis)) cmd := by
  have far : (lt (ofRat 1e-9) (fence.horizontalDist pose) &&
      lt 0 (fence.severity verdict (fence.horizontalDist pose))) = true := by
    obtain ⟨apart, severe⟩ := turns
    norm_num at apart ⊢
    exact ⟨apart, severe⟩
  exact if_pos far

theorem clampHorizontal_of_not_turns (stays : ¬ fence.Turns pose verdict) :
    fence.clampHorizontal pose verdict cmd = cmd := by
  have near : ¬ (lt (ofRat 1e-9) (fence.horizontalDist pose) &&
      lt 0 (fence.severity verdict (fence.horizontalDist pose))) = true := by
    intro far
    apply stays
    unfold Turns
    norm_num at far ⊢
    exact far
  exact if_neg near

/-- Each sideways axis is reduced by itself. -/
theorem axes_clampHorizontal (turns : fence.Turns pose verdict) {axis : Fin 6}
    (sideways : axis ∈ translational) :
    (fence.clampHorizontal pose verdict cmd).axes axis =
      reduced (fence.severity verdict (fence.horizontalDist pose)) (fence.direction pose axis)
        (cmd.axes axis) := by
  rw [clampHorizontal_eq fence pose verdict cmd turns]
  simp only [List.foldl_cons, List.foldl_nil, suppress_eq, setAxis]
  simp only [translational, List.mem_cons, List.not_mem_nil, or_false] at sideways
  rcases sideways with rfl | rfl | rfl | rfl <;> rfl

theorem axes_clampCommand {axis : Fin 6} (sideways : axis ∈ translational) :
    (fence.clampCommand pose verdict cmd).axes axis =
      (fence.clampHorizontal pose verdict cmd).axes axis := by
  have other := ne_throttle_of_mem sideways
  unfold clampCommand
  dsimp only
  rw [axes_neutralThrottle _ other, axes_neutralThrottle _ other]

/-- How far the two axes of a pair move the vehicle away from the centre. -/
noncomputable def outward (first second : Fin 6) : ℝ :=
  fence.direction pose first * cmd.axes first + fence.direction pose second * cmd.axes second

end GeoFence

section Pair

variable {u v a b : ℝ}

/-- What is left of an outward axis is its part across the direction. -/
theorem mul_reduced (unit : u * u + v * v = 1) (outward : 0 < u * a) :
    u * GeoFence.reduced 1 u a = u * a * (v * v) := by
  have across : v * v = 1 - u * u := by linarith
  rw [GeoFence.reduced, if_pos (by linarith), across]
  ring

theorem reduced_ne (outward : 0 < u * a) : GeoFence.reduced 1 u a ≠ a := by
  have component : u ≠ 0 := left_ne_zero_of_mul outward.ne'
  have taken : a * u * 1 * u ≠ 0 := by
    simp [component, right_ne_zero_of_mul outward.ne']
  rw [GeoFence.reduced, if_pos (by linarith)]
  intro same
  exact taken (by linarith)

theorem reduced_of_inward (inward : u * a ≤ 0) : GeoFence.reduced 1 u a = a :=
  if_neg (by linarith)

/-- A pair of axes has no outward part after the reduction, and is left alone if it had none,
when no axis points outward or when exactly one does and outweighs the other axis before but not
after the reduction. -/
theorem reduced_pair_iff (unit : u * u + v * v = 1) :
    (u * GeoFence.reduced 1 u a + v * GeoFence.reduced 1 v b ≤ 0 ∧
        (u * a + v * b ≤ 0 → GeoFence.reduced 1 u a = a ∧ GeoFence.reduced 1 v b = b)) ↔
      (u * a ≤ 0 ∧ v * b ≤ 0) ∨
        (0 < u * a ∧ u * a * (v * v) + v * b ≤ 0 ∧ 0 < u * a + v * b) ∨
        (0 < v * b ∧ u * a + v * b * (u * u) ≤ 0 ∧ 0 < u * a + v * b) := by
  have unit' : v * v + u * u = 1 := by linarith
  have square : 0 ≤ u * u := mul_self_nonneg u
  have square' : 0 ≤ v * v := mul_self_nonneg v
  by_cases first : 0 < u * a
  · have moved := reduced_ne first
    rw [mul_reduced unit first]
    by_cases second : 0 < v * b
    · -- both axes keep an outward part
      have left : 0 ≤ u * a * (v * v) := mul_nonneg first.le square'
      have right : 0 < v * b * (u * u) :=
        mul_pos second (square.lt_of_ne' (by simp [left_ne_zero_of_mul first.ne']))
      rw [mul_reduced unit' second]
      constructor
      · rintro ⟨inward, _⟩
        linarith
      · rintro (⟨inward, _⟩ | ⟨_, inward, _⟩ | ⟨_, inward, _⟩) <;> linarith
    · rw [reduced_of_inward (not_lt.mp second)]
      constructor
      · rintro ⟨inward, kept⟩
        refine .inr (.inl ⟨first, inward, ?_⟩)
        by_contra whole
        exact moved (kept (not_lt.mp whole)).1
      · rintro (⟨inward, _⟩ | ⟨_, inward, whole⟩ | ⟨against, _⟩)
        · exact absurd first (not_lt.mpr inward)
        · exact ⟨inward, fun within => absurd whole (not_lt.mpr within)⟩
        · exact absurd against second
  · rw [reduced_of_inward (not_lt.mp first)]
    by_cases second : 0 < v * b
    · have moved := reduced_ne second
      rw [mul_reduced unit' second]
      constructor
      · rintro ⟨inward, kept⟩
        refine .inr (.inr ⟨second, inward, ?_⟩)
        by_contra whole
        exact moved (kept (not_lt.mp whole)).2
      · rintro (⟨_, inward⟩ | ⟨against, _⟩ | ⟨_, inward, whole⟩)
        · exact absurd second (not_lt.mpr inward)
        · exact absurd against first
        · exact ⟨inward, fun within => absurd whole (not_lt.mpr within)⟩
    · rw [reduced_of_inward (not_lt.mp second)]
      constructor
      · intro _
        exact .inl ⟨not_lt.mp first, not_lt.mp second⟩
      · intro _
        exact ⟨by linarith, fun _ => ⟨rfl, rfl⟩⟩

end Pair

namespace GeoFence

/-- The fence leaves a pair of axes without an outward part, and alone if it had none. -/
def LosesOutward (fence : GeoFence ℝ) (pose : Pose6D ℝ ℝ) (cmd : ControlCommand ℝ)
    (first second : Fin 6) : Prop :=
  let clamped := fence.clampCommand pose (fence.evaluate pose) cmd
  fence.outward pose clamped first second ≤ 0 ∧
    (fence.outward pose cmd first second ≤ 0 →
      clamped.axes first = cmd.axes first ∧ clamped.axes second = cmd.axes second)

/-- No axis of the pair points outward, or exactly one does and what is left of it across the
direction is outweighed by the other one, while all of it was not.  At the centre nothing is
reduced, so the pair must not point outward. -/
def Clears (fence : GeoFence ℝ) (pose : Pose6D ℝ ℝ) (cmd : ControlCommand ℝ)
    (first second : Fin 6) : Prop :=
  let u := fence.direction pose first
  let v := fence.direction pose second
  let a := cmd.axes first
  let b := cmd.axes second
  if 1e-9 < fence.horizontalDist pose then
    (u * a ≤ 0 ∧ v * b ≤ 0) ∨
      (0 < u * a ∧ u * a * (v * v) + v * b ≤ 0 ∧ 0 < u * a + v * b) ∨
      (0 < v * b ∧ u * a + v * b * (u * u) ≤ 0 ∧ 0 < u * a + v * b)
  else u * a + v * b ≤ 0

section HardBreach

variable {fence : GeoFence ℝ} {pose : Pose6D ℝ ℝ}

theorem unit_direction (away : 0 < fence.horizontalDist pose) :
    fence.direction pose latX * fence.direction pose latX +
      fence.direction pose latY * fence.direction pose latY = 1 :=
  unit_of_hypot_pos away

theorem losesOutward_iff_clears (breach : fence.evaluate pose = .hardBreach)
    (cmd : ControlCommand ℝ) {first second : Fin 6} (sideways : first ∈ translational)
    (sideways' : second ∈ translational)
    (unit : fence.direction pose first * fence.direction pose first +
      fence.direction pose second * fence.direction pose second = 1) :
    fence.LosesOutward pose cmd first second ↔ fence.Clears pose cmd first second := by
  have full : fence.severity .hardBreach (fence.horizontalDist pose) = 1 := by
    simp [severity]
  unfold LosesOutward Clears outward
  dsimp only
  rw [breach, axes_clampCommand _ _ _ _ sideways, axes_clampCommand _ _ _ _ sideways']
  by_cases far : 1e-9 < fence.horizontalDist pose
  · have turns : fence.Turns pose .hardBreach := ⟨far, by rw [full]; exact one_pos⟩
    rw [if_pos far, axes_clampHorizontal _ _ _ _ turns sideways,
      axes_clampHorizontal _ _ _ _ turns sideways', full]
    exact reduced_pair_iff unit
  · have stays : ¬ fence.Turns pose .hardBreach := fun turns => far turns.1
    rw [if_neg far, clampHorizontal_of_not_turns _ _ _ _ stays]
    exact and_iff_left fun _ => ⟨rfl, rfl⟩

/-- After a hard breach the fence removes the outward motion of both pairs of axes, and nothing
else, exactly when it may be removed from each axis by itself. -/
theorem hardBreach_losesOutward_iff (breach : fence.evaluate pose = .hardBreach)
    (away : 0 < fence.horizontalDist pose) (cmd : ControlCommand ℝ) :
    (fence.LosesOutward pose cmd latX latY ∧ fence.LosesOutward pose cmd roll pitch) ↔
      fence.Clears pose cmd latX latY ∧ fence.Clears pose cmd roll pitch := by
  have unit := unit_direction away
  have lateral : fence.LosesOutward pose cmd latX latY ↔ fence.Clears pose cmd latX latY :=
    losesOutward_iff_clears breach cmd (by decide) (by decide) unit
  have attitude : fence.LosesOutward pose cmd roll pitch ↔ fence.Clears pose cmd roll pitch :=
    losesOutward_iff_clears breach cmd (by decide) (by decide) unit
  rw [lateral, attitude]

end HardBreach

/-- A vehicle a kilometre away from the centre, to the north-east. -/
noncomputable def northEast : Pose6D ℝ ℝ :=
  { (Pose6D.default : Pose6D ℝ ℝ) with x := 600, y := 800, z := 50 }

theorem horizontalDist_northEast :
    (GeoFence.default : GeoFence ℝ).horizontalDist northEast = 1000 := by
  have square : ((600 : ℝ) - 0) * (600 - 0) + (800 - 0) * (800 - 0) = 1000 * 1000 := by norm_num
  change √(((600 : ℝ) - 0) * (600 - 0) + (800 - 0) * (800 - 0)) = 1000
  rw [square, Real.sqrt_mul_self (by norm_num)]

theorem evaluate_northEast :
    (GeoFence.default : GeoFence ℝ).evaluate northEast = .hardBreach := by
  unfold evaluate
  rw [horizontalDist_northEast]
  simp [GeoFence.default]
  norm_num

theorem direction_northEast :
    (GeoFence.default : GeoFence ℝ).direction northEast latX = 0.6 ∧
      (GeoFence.default : GeoFence ℝ).direction northEast latY = 0.8 := by
  unfold direction
  rw [horizontalDist_northEast]
  constructor
  · change ((600 : ℝ) - 0) / 1000 = 0.6
    norm_num
  · change ((800 : ℝ) - 0) / 1000 = 0.8
    norm_num

/-- A throw to the east and, half as far, to the south. -/
noncomputable def southEastward : ControlCommand ℝ :=
  ((zeroed .assist).setAxis latX 1).setAxis latY (-0.5)

theorem far_northEast : 1e-9 < (GeoFence.default : GeoFence ℝ).horizontalDist northEast := by
  rw [horizontalDist_northEast]
  norm_num

theorem away_northEast : 0 < (GeoFence.default : GeoFence ℝ).horizontalDist northEast := by
  rw [horizontalDist_northEast]
  norm_num

theorem losesOutward_southEastward :
    (GeoFence.default : GeoFence ℝ).LosesOutward northEast southEastward latX latY ∧
      (GeoFence.default : GeoFence ℝ).LosesOutward northEast southEastward roll pitch := by
  have east : southEastward.axes latX = 1 := rfl
  have south : southEastward.axes latY = -0.5 := rfl
  have level : southEastward.axes roll = 0 ∧ southEastward.axes pitch = 0 := ⟨rfl, rfl⟩
  apply (hardBreach_losesOutward_iff evaluate_northEast away_northEast southEastward).mpr
  unfold Clears
  rw [if_pos far_northEast, if_pos far_northEast]
  constructor
  · rw [direction_northEast.1, direction_northEast.2, east, south]
    exact .inr (.inl (by norm_num))
  · rw [level.1, level.2]
    exact .inl (by simp)

/-- Full throw to the east and to the north. -/
noncomputable def outbound : ControlCommand ℝ :=
  ((zeroed .assist).setAxis latX 1).setAxis latY 1

/-- Nearly half of the outward throw is left. -/
theorem not_losesOutward_outbound :
    ¬ ∀ (fence : GeoFence ℝ) pose cmd, fence.evaluate pose = .hardBreach →
      0 < fence.horizontalDist pose →
        fence.LosesOutward pose cmd latX latY ∧ fence.LosesOutward pose cmd roll pitch := by
  intro loses
  have east : outbound.axes latX = 1 := rfl
  have north : outbound.axes latY = 1 := rfl
  have clears := (losesOutward_iff_clears evaluate_northEast outbound (by decide) (by decide)
    (unit_direction away_northEast)).mp (loses _ _ outbound evaluate_northEast away_northEast).1
  unfold Clears at clears
  rw [if_pos far_northEast, direction_northEast.1, direction_northEast.2, east, north] at clears
  norm_num at clears

end GeoFence

end Teleop.Safety
