import Mathlib.Analysis.SpecialFunctions.Complex.Arg
import Mathlib.Tactic.LinearCombination
import Teleop.Hal.SimRotations

/-!
# Attitudes as angles

The yaw, pitch and roll of a quaternion and the quaternion of three angles.  Over the reals the
angles are read back, and away from a vertical pitch the angles that a world reports of a body
say how the body is turned.
-/

namespace Teleop.Hal

open Teleop.Lib Teleop.Lib.FloatOps

/-- Inverse trigonometric functions and angle units of the wide format. -/
class FloatAngles (F : Type) where
  asin : F → F
  atan2 : F → F → F
  toDegrees : F → F
  toRadians : F → F
  remEuclid : F → F → F

section Definitions

variable {F : Type} [FloatOps F] [FloatTrig F] [FloatAngles F]

/-- Extracts ZYX Euler angles, in the order yaw, pitch, roll. -/
def quatToEuler (q : Quat F) : F × F × F :=
  let roll := FloatAngles.atan2 (ofRat 2 * (q.w * q.x + q.y * q.z))
    (ofRat 1 - ofRat 2 * (q.x * q.x + q.y * q.y))
  let pitch := FloatAngles.asin (clamp (ofRat 2 * (q.w * q.y - q.z * q.x)) (-ofRat 1) (ofRat 1))
  let yaw := FloatAngles.atan2 (ofRat 2 * (q.w * q.z + q.x * q.y))
    (ofRat 1 - ofRat 2 * (q.y * q.y + q.z * q.z))
  (yaw, pitch, roll)

/-- Yaw about z, then pitch about y, then roll about x. -/
def quatFromEuler (yaw pitch roll : F) : Quat F :=
  let cy := FloatTrig.cos (yaw * ofRat (1 / 2))
  let sy := FloatTrig.sin (yaw * ofRat (1 / 2))
  let cp := FloatTrig.cos (pitch * ofRat (1 / 2))
  let sp := FloatTrig.sin (pitch * ofRat (1 / 2))
  let cr := FloatTrig.cos (roll * ofRat (1 / 2))
  let sr := FloatTrig.sin (roll * ofRat (1 / 2))
  ⟨cy * cp * cr + sy * sp * sr, cy * cp * sr - sy * sp * cr, cy * sp * cr + sy * cp * sr,
    sy * cp * cr - cy * sp * sr⟩

/-- The angles of a body; `none` for a handle that is not one. -/
def World.euler (world : World F) (id : Nat) : Option (F × F × F) :=
  world.bodies[id]?.map fun body => quatToEuler body.quat

end Definitions

noncomputable instance : FloatAngles ℝ where
  asin := Real.arcsin
  atan2 y x := Complex.arg ⟨x, y⟩
  toDegrees r := r * (180 / Real.pi)
  toRadians d := d * (Real.pi / 180)
  remEuclid x m := x - |m| * ⌊x / |m|⌋

section Matrix

/-- The row of the rotation matrix that yields the first component. -/
def Quat.row1 (q : Quat ℝ) : Vec3 ℝ :=
  ⟨1 - 2 * (q.y * q.y + q.z * q.z), 2 * (q.x * q.y - q.w * q.z), 2 * (q.x * q.z + q.w * q.y)⟩

def Quat.row2 (q : Quat ℝ) : Vec3 ℝ :=
  ⟨2 * (q.w * q.z + q.x * q.y), 1 - 2 * (q.x * q.x + q.z * q.z), 2 * (q.y * q.z - q.w * q.x)⟩

def Quat.row3 (q : Quat ℝ) : Vec3 ℝ :=
  ⟨-(2 * (q.w * q.y - q.z * q.x)), 2 * (q.w * q.x + q.y * q.z),
    1 - 2 * (q.x * q.x + q.y * q.y)⟩

/-- The sum of the products of the components. -/
def Vec3.dot (v u : Vec3 ℝ) : ℝ := v.x * u.x + v.y * u.y + v.z * u.z

theorem quatRotate_eq_rows (q : Quat ℝ) (v : Vec3 ℝ) :
    quatRotate q v = ⟨q.row1.dot v, q.row2.dot v, q.row3.dot v⟩ := by
  ext <;> simp [quatRotate, Quat.row1, Quat.row2, Quat.row3, Vec3.dot] <;> ring

variable {p q : Quat ℝ}

theorem row3_length (unit : q.Unit) :
    q.row3.x ^ 2 + (q.row3.y ^ 2 + q.row3.z ^ 2) = 1 := by
  unfold Quat.Unit at unit
  unfold Quat.row3
  grind

theorem column1_length (unit : q.Unit) :
    q.row3.x ^ 2 + (q.row2.x ^ 2 + q.row1.x ^ 2) = 1 := by
  unfold Quat.Unit at unit
  unfold Quat.row1 Quat.row2 Quat.row3
  grind

/-- The third row is perpendicular to the first two, and the three rows are oriented. -/
theorem rows_oriented (unit : q.Unit) :
    q.row1.x * q.row3.x + q.row1.y * q.row3.y + q.row1.z * q.row3.z = 0 ∧
      q.row2.x * q.row3.x + q.row2.y * q.row3.y + q.row2.z * q.row3.z = 0 ∧
      q.row2.x = q.row3.y * q.row1.z - q.row3.z * q.row1.y ∧
      q.row1.x = q.row2.y * q.row3.z - q.row2.z * q.row3.y := by
  unfold Quat.Unit at unit
  unfold Quat.row1 Quat.row2 Quat.row3
  refine ⟨?_, ?_, ?_, ?_⟩ <;> grind

end Matrix

section Angles

/-- What a rotation matrix shows of three angles. -/
structure Shows (q : Quat ℝ) (yaw pitch roll : ℝ) : Prop where
  pitchSin : q.row3.x = -Real.sin pitch
  rollSin : q.row3.y = Real.cos pitch * Real.sin roll
  rollCos : q.row3.z = Real.cos pitch * Real.cos roll
  yawSin : q.row2.x = Real.cos pitch * Real.sin yaw
  yawCos : q.row1.x = Real.cos pitch * Real.cos yaw

theorem sin_of_half (angle : ℝ) :
    Real.sin angle = 2 * Real.sin (angle * (1 / 2)) * Real.cos (angle * (1 / 2)) := by
  rw [← Real.sin_two_mul]
  congr 1
  ring

theorem cos_of_half (angle : ℝ) :
    Real.cos angle = Real.cos (angle * (1 / 2)) ^ 2 - Real.sin (angle * (1 / 2)) ^ 2 := by
  rw [← Real.cos_two_mul']
  congr 1
  ring

variable (yaw pitch roll : ℝ)

/-- The quaternion of three angles, by the sines and cosines of their halves. -/
theorem quatFromEuler_real :
    quatFromEuler yaw pitch roll =
      (let cy := Real.cos (yaw * (1 / 2)); let sy := Real.sin (yaw * (1 / 2))
       let cp := Real.cos (pitch * (1 / 2)); let sp := Real.sin (pitch * (1 / 2))
       let cr := Real.cos (roll * (1 / 2)); let sr := Real.sin (roll * (1 / 2))
       ⟨cy * cp * cr + sy * sp * sr, cy * cp * sr - sy * sp * cr, cy * sp * cr + sy * cp * sr,
        sy * cp * cr - cy * sp * sr⟩) := by
  simp [quatFromEuler, FloatTrig.sin, FloatTrig.cos]

theorem unit_quatFromEuler : (quatFromEuler yaw pitch roll).Unit := by
  rw [quatFromEuler_real]
  have ofYaw := Real.cos_sq_add_sin_sq (yaw * (1 / 2))
  have ofPitch := Real.cos_sq_add_sin_sq (pitch * (1 / 2))
  have ofRoll := Real.cos_sq_add_sin_sq (roll * (1 / 2))
  unfold Quat.Unit
  grind

theorem shows_quatFromEuler : Shows (quatFromEuler yaw pitch roll) yaw pitch roll := by
  rw [quatFromEuler_real]
  have ofYaw := Real.cos_sq_add_sin_sq (yaw * (1 / 2))
  have ofPitch := Real.cos_sq_add_sin_sq (pitch * (1 / 2))
  have ofRoll := Real.cos_sq_add_sin_sq (roll * (1 / 2))
  refine ⟨?_, ?_, ?_, ?_, ?_⟩ <;>
    simp only [Quat.row1, Quat.row2, Quat.row3, sin_of_half yaw, sin_of_half pitch,
      sin_of_half roll, cos_of_half yaw, cos_of_half pitch, cos_of_half roll] <;>
    grind

/-- The angle of a point of the plane, given in polar form. -/
theorem atan2_polar {radius angle : ℝ} (positive : 0 < radius) (most : angle ≤ Real.pi)
    (least : -Real.pi < angle) :
    FloatAngles.atan2 (radius * Real.sin angle) (radius * Real.cos angle) = angle := by
  have polar : (⟨radius * Real.cos angle, radius * Real.sin angle⟩ : ℂ) =
      (radius : ℂ) * (Complex.cos angle + Complex.sin angle * Complex.I) := by
    apply Complex.ext <;> simp [← Complex.ofReal_cos, ← Complex.ofReal_sin]
  change Complex.arg _ = angle
  rw [polar]
  exact Complex.arg_mul_cos_add_sin_mul_I positive ⟨least, most⟩

/-- The polar form of a point, from its angle. -/
theorem polar_atan2 (x y : ℝ) :
    √(x ^ 2 + y ^ 2) * Real.cos (FloatAngles.atan2 y x) = x ∧
      √(x ^ 2 + y ^ 2) * Real.sin (FloatAngles.atan2 y x) = y := by
  have radius : ‖(⟨x, y⟩ : ℂ)‖ = √(x ^ 2 + y ^ 2) := by
    rw [Complex.norm_def, Complex.normSq_mk, sq, sq]
  rw [← radius]
  exact ⟨Complex.norm_mul_cos_arg _, Complex.norm_mul_sin_arg _⟩

end Angles

section ReadBack

open FloatAngles

variable {p q : Quat ℝ} {yaw pitch roll : ℝ}

/-- The angles are read off the first column and the third row. -/
theorem quatToEuler_real (q : Quat ℝ) :
    quatToEuler q = (atan2 q.row2.x q.row1.x, Real.arcsin (clamp (-q.row3.x) (-1) 1),
      atan2 q.row3.y q.row3.z) := by
  simp [quatToEuler, Quat.row1, Quat.row2, Quat.row3, FloatAngles.asin]

theorem clamp_unit_of_abs_le {x : ℝ} (bound : |x| ≤ 1) : clamp x (-1) 1 = x := by
  obtain ⟨low, high⟩ := abs_le.mp bound
  simp [clamp, not_lt.mpr low, not_lt.mpr high]

/-- Angles inside their ranges are what the matrix shows. -/
theorem Shows.read (shown : Shows q yaw pitch roll) (yawRange : -Real.pi < yaw ∧ yaw ≤ Real.pi)
    (pitchRange : |pitch| < Real.pi / 2) (rollRange : -Real.pi < roll ∧ roll ≤ Real.pi) :
    quatToEuler q = (yaw, pitch, roll) := by
  obtain ⟨down, up⟩ := abs_lt.mp pitchRange
  have positive : 0 < Real.cos pitch := Real.cos_pos_of_mem_Ioo ⟨by linarith, up⟩
  rw [quatToEuler_real, shown.yawSin, shown.yawCos, shown.rollSin, shown.rollCos, shown.pitchSin,
    neg_neg, atan2_polar positive yawRange.2 yawRange.1,
    atan2_polar positive rollRange.2 rollRange.1,
    clamp_unit_of_abs_le (Real.abs_sin_le_one pitch),
    Real.arcsin_sin (by linarith) up.le]

/-- Angles inside their ranges survive the way through a quaternion. -/
theorem quatToEuler_quatFromEuler (yawRange : -Real.pi < yaw ∧ yaw ≤ Real.pi)
    (pitchRange : |pitch| < Real.pi / 2) (rollRange : -Real.pi < roll ∧ roll ≤ Real.pi) :
    quatToEuler (quatFromEuler yaw pitch roll) = (yaw, pitch, roll) :=
  (shows_quatFromEuler yaw pitch roll).read yawRange pitchRange rollRange

/-- A turn to the left, nose down and banked. -/
theorem quatToEuler_quatFromEuler_banked :
    quatToEuler (quatFromEuler 2 (-1 / 2) 1) = ((2, -1 / 2, 1) : ℝ × ℝ × ℝ) := by
  have half := Real.two_le_pi
  refine quatToEuler_quatFromEuler ⟨by linarith, half⟩ ?_ ⟨by linarith, by linarith⟩
  rw [abs_of_neg (by norm_num)]
  linarith

theorem abs_row3_le (unit : q.Unit) : |q.row3.x| ≤ 1 := by
  have length := row3_length unit
  apply abs_le_one_iff_mul_self_le_one.mpr
  nlinarith [sq_nonneg q.row3.y, sq_nonneg q.row3.z]

/-- The matrix of a unit quaternion shows the angles that are read off it. -/
theorem shows_quatToEuler (unit : q.Unit) :
    Shows q (quatToEuler q).1 (quatToEuler q).2.1 (quatToEuler q).2.2 := by
  have bound : |-q.row3.x| ≤ 1 := by
    rw [abs_neg]
    exact abs_row3_le unit
  obtain ⟨low, high⟩ := abs_le.mp bound
  rw [quatToEuler_real, clamp_unit_of_abs_le bound]
  have rollRadius : Real.cos (Real.arcsin (-q.row3.x)) = √(q.row3.z ^ 2 + q.row3.y ^ 2) := by
    rw [Real.cos_arcsin]
    congr 1
    linear_combination -row3_length unit
  have yawRadius : Real.cos (Real.arcsin (-q.row3.x)) = √(q.row1.x ^ 2 + q.row2.x ^ 2) := by
    rw [Real.cos_arcsin]
    congr 1
    linear_combination -column1_length unit
  constructor
  · rw [Real.sin_arcsin low high, neg_neg]
  · rw [rollRadius]
    exact (polar_atan2 _ _).2.symm
  · rw [rollRadius]
    exact (polar_atan2 _ _).1.symm
  · rw [yawRadius]
    exact (polar_atan2 _ _).2.symm
  · rw [yawRadius]
    exact (polar_atan2 _ _).1.symm

/-- Away from a vertical pitch the first column and the third row determine the others. -/
theorem Shows.quatRotate_eq (first : p.Unit) (second : q.Unit) (left : Shows p yaw pitch roll)
    (right : Shows q yaw pitch roll) (tilted : Real.cos pitch ≠ 0) (v : Vec3 ℝ) :
    quatRotate p v = quatRotate q v := by
  have down := left.pitchSin.trans right.pitchSin.symm
  have bankSin := left.rollSin.trans right.rollSin.symm
  have bankCos := left.rollCos.trans right.rollCos.symm
  have turnSin := left.yawSin.trans right.yawSin.symm
  have turnCos := left.yawCos.trans right.yawCos.symm
  obtain ⟨flat, side, across, along⟩ := rows_oriented first
  obtain ⟨flat', side', across', along'⟩ := rows_oriented second
  have length : q.row3.y ^ 2 + q.row3.z ^ 2 ≠ 0 := by
    rw [right.rollSin, right.rollCos]
    have circle := Real.sin_sq_add_cos_sq roll
    have square : (Real.cos pitch * Real.sin roll) ^ 2 + (Real.cos pitch * Real.cos roll) ^ 2 =
        Real.cos pitch ^ 2 := by
      linear_combination Real.cos pitch ^ 2 * circle
    rw [square]
    exact pow_ne_zero 2 tilted
  rw [down, bankSin, bankCos] at flat side
  rw [bankSin, bankCos] at across along
  rw [turnSin] at across side
  rw [turnCos] at along flat
  have row1y : p.row1.y = q.row1.y := by
    apply mul_left_cancel₀ length
    linear_combination q.row3.y * (flat - flat') + q.row3.z * (across - across')
  have row1z : p.row1.z = q.row1.z := by
    apply mul_left_cancel₀ length
    linear_combination q.row3.z * (flat - flat') - q.row3.y * (across - across')
  have row2y : p.row2.y = q.row2.y := by
    apply mul_left_cancel₀ length
    linear_combination q.row3.y * (side - side') - q.row3.z * (along - along')
  have row2z : p.row2.z = q.row2.z := by
    apply mul_left_cancel₀ length
    linear_combination q.row3.z * (side - side') + q.row3.y * (along - along')
  have row1 : p.row1 = q.row1 := Vec3.ext turnCos row1y row1z
  have row2 : p.row2 = q.row2 := Vec3.ext turnSin row2y row2z
  have row3 : p.row3 = q.row3 := Vec3.ext down bankSin bankCos
  rw [quatRotate_eq_rows, quatRotate_eq_rows, row1, row2, row3]

end ReadBack

/-- Reported angles of a body: they lie in their ranges, they say how the body is turned where
the pitch is not vertical, and where it is they leave out the yaw and the roll. -/
structure Reports (q : Quat ℝ) (yaw pitch roll : ℝ) : Prop where
  yawRange : -Real.pi < yaw ∧ yaw ≤ Real.pi
  pitchRange : |pitch| ≤ Real.pi / 2
  rollRange : -Real.pi < roll ∧ roll ≤ Real.pi
  rotation : |pitch| < Real.pi / 2 →
    ∀ v, quatRotate (quatFromEuler yaw pitch roll) v = quatRotate q v
  locked : |pitch| = Real.pi / 2 → yaw = 0 ∧ roll = 0

section Reports

variable {q : Quat ℝ}

theorem cos_of_vertical {pitch : ℝ} (vertical : |pitch| = Real.pi / 2) : Real.cos pitch = 0 := by
  rw [← Real.cos_abs, vertical, Real.cos_pi_div_two]

theorem reports_quatToEuler (unit : q.Unit) :
    Reports q (quatToEuler q).1 (quatToEuler q).2.1 (quatToEuler q).2.2 := by
  have shown := shows_quatToEuler unit
  constructor
  · exact Complex.arg_mem_Ioc _
  · exact abs_le.mpr ⟨Real.neg_pi_div_two_le_arcsin _, Real.arcsin_le_pi_div_two _⟩
  · exact Complex.arg_mem_Ioc _
  · intro tilted v
    obtain ⟨down, up⟩ := abs_lt.mp tilted
    have positive := Real.cos_pos_of_mem_Ioo ⟨by linarith, up⟩
    exact (shows_quatFromEuler _ _ _).quatRotate_eq (unit_quatFromEuler _ _ _) unit shown
      positive.ne' v
  · intro vertical
    have edge := cos_of_vertical vertical
    obtain ⟨-, rollSin, rollCos, yawSin, yawCos⟩ := shown
    rw [edge, zero_mul] at rollSin rollCos yawSin yawCos
    have origin : FloatAngles.atan2 (0 : ℝ) 0 = 0 := Complex.arg_zero
    rw [quatToEuler_real, rollSin, rollCos, yawSin, yawCos, origin]
    exact ⟨rfl, rfl⟩

end Reports

/-- In every run the angles that a world reports of a body say how it is turned, unless its
pitch is vertical; and the frames of the body and the world are converted into one another without
loss. -/
theorem euler_of_reachable {world : World ℝ} (reached : (simulation ℝ).Reachable world) {id : Nat}
    {body : RigidState ℝ} (held : world.bodies[id]? = some body) :
    (∃ yaw pitch roll, world.euler id = some (yaw, pitch, roll) ∧
      Reports body.quat yaw pitch roll) ∧
    ∀ v, (world.rotateToBody id v).bind (world.rotateToWorld id) = some v ∧
      (world.rotateToWorld id v).bind (world.rotateToBody id) = some v := by
  have unit := unitAttitudes_of_reachable reached body (List.mem_of_getElem? held)
  refine ⟨⟨_, _, _, ?_, reports_quatToEuler unit⟩, fun v => ?_⟩
  · rw [World.euler, held]
    rfl
  · have converted := rotateToWorld_rotateToBody reached id v
    rwa [held] at converted

/-- A box put down with a yaw and turned by a torque, two steps later. -/
theorem euler_of_reachable_turned :
    ∃ world body, TransitionSystem.perform World.next (World.new ⟨0, 0, -9.81⟩ : World ℝ)
        [.addBox 1 ⟨1, 1, 1⟩ ⟨0, 0, 1⟩ 1, .addTorque 0 ⟨0, 2, 0⟩, .step 0.01, .step 0.01] =
          some world ∧
      world.bodies[0]? = some body ∧
      ∃ yaw pitch roll, world.euler 0 = some (yaw, pitch, roll) ∧
        Reports body.quat yaw pitch roll := by
  have performed : TransitionSystem.perform World.next (World.new ⟨0, 0, -9.81⟩ : World ℝ)
      [.addBox 1 ⟨1, 1, 1⟩ ⟨0, 0, 1⟩ 1, .addTorque 0 ⟨0, 2, 0⟩, .step 0.01, .step 0.01] =
        some _ := rfl
  have reached : (simulation ℝ).Reachable _ :=
    TransitionSystem.reachable_of_perform ⟨⟨0, 0, -9.81⟩, rfl⟩ performed
  exact ⟨_, _, performed, rfl, (euler_of_reachable reached rfl).1⟩

end Teleop.Hal
