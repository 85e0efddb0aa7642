import Mathlib.Algebra.Quaternion
import Mathlib.Analysis.Complex.Trigonometric
import Mathlib.Tactic.NoncommRing
import Mathlib.Tactic.Positivity
import Teleop.Hal.SimWorld
import Teleop.Lib.RealArithmetic

/-!
# Rotations of the simulated world

Over the reals.  The expanded formulas of the simulator are the product of quaternions and,
for a unit quaternion, conjugation by it; so a rotation is undone by the inverse one, keeps
lengths, and composes.  The attitude of every body stays a unit quaternion.
-/

namespace Teleop.Hal

open Teleop.Lib Teleop.Lib.FloatOps Quaternion

noncomputable instance : FloatTrig ℝ where
  sqrt := Real.sqrt
  sin := Real.sin
  cos := Real.cos

/-- A vector as the quaternion with real part 0. -/
def Vec3.toQuaternion (v : Vec3 ℝ) : ℍ[ℝ] := ⟨0, v.x, v.y, v.z⟩

noncomputable def Vec3.length (v : Vec3 ℝ) : ℝ := √(v.x * v.x + v.y * v.y + v.z * v.z)

def Quat.toQuaternion (q : Quat ℝ) : ℍ[ℝ] := ⟨q.w, q.x, q.y, q.z⟩

/-- The square of the length is 1. -/
def Quat.Unit (q : Quat ℝ) : Prop := q.w * q.w + q.x * q.x + q.y * q.y + q.z * q.z = 1

section Components

variable (v : Vec3 ℝ) (q : Quat ℝ)

@[simp] theorem Vec3.re_toQuaternion : v.toQuaternion.re = 0 := rfl

@[simp] theorem Vec3.imI_toQuaternion : v.toQuaternion.imI = v.x := rfl

@[simp] theorem Vec3.imJ_toQuaternion : v.toQuaternion.imJ = v.y := rfl

@[simp] theorem Vec3.imK_toQuaternion : v.toQuaternion.imK = v.z := rfl

@[simp] theorem Quat.re_toQuaternion : q.toQuaternion.re = q.w := rfl

@[simp] theorem Quat.imI_toQuaternion : q.toQuaternion.imI = q.x := rfl

@[simp] theorem Quat.imJ_toQuaternion : q.toQuaternion.imJ = q.y := rfl

@[simp] theorem Quat.imK_toQuaternion : q.toQuaternion.imK = q.z := rfl

end Components

section Bridge

variable {p q : Quat ℝ} (v : Vec3 ℝ)

theorem Vec3.toQuaternion_injective {v u : Vec3 ℝ} (same : v.toQuaternion = u.toQuaternion) :
    v = u := by
  ext
  · exact congrArg (·.imI) same
  · exact congrArg (·.imJ) same
  · exact congrArg (·.imK) same

theorem normSq_toQuaternion (q : Quat ℝ) :
    normSq q.toQuaternion = q.w * q.w + q.x * q.x + q.y * q.y + q.z * q.z := by
  rw [normSq_def']
  simp only [Quat.re_toQuaternion, Quat.imI_toQuaternion, Quat.imJ_toQuaternion,
    Quat.imK_toQuaternion, sq]

theorem Quat.unit_iff : q.Unit ↔ normSq q.toQuaternion = 1 := by
  rw [normSq_toQuaternion]
  rfl

theorem Vec3.length_eq : v.length = √(normSq v.toQuaternion) := by
  rw [normSq_def']
  simp [Vec3.length, sq]

theorem toQuaternion_quatMul (p q : Quat ℝ) :
    (quatMul p q).toQuaternion = p.toQuaternion * q.toQuaternion := by
  ext <;> simp [quatMul]

theorem toQuaternion_conj (q : Quat ℝ) :
    (⟨q.w, -q.x, -q.y, -q.z⟩ : Quat ℝ).toQuaternion = star q.toQuaternion := by
  ext <;> simp

theorem Quat.Unit.conj (unit : q.Unit) : (⟨q.w, -q.x, -q.y, -q.z⟩ : Quat ℝ).Unit := by
  rw [Quat.unit_iff] at unit ⊢
  rw [toQuaternion_conj, normSq_star, unit]

theorem Quat.Unit.quatMul (first : p.Unit) (second : q.Unit) : (quatMul p q).Unit := by
  rw [Quat.unit_iff] at first second ⊢
  rw [toQuaternion_quatMul, map_mul, first, second, one_mul]

/-- The expanded formula is conjugation, up to what the quaternion lacks of length 1. -/
theorem toQuaternion_quatRotate_add (q : Quat ℝ) :
    (quatRotate q v).toQuaternion =
      q.toQuaternion * v.toQuaternion * star q.toQuaternion +
        ↑(1 - normSq q.toQuaternion) * v.toQuaternion := by
  rw [normSq_toQuaternion]
  ext <;> simp [quatRotate] <;> ring

theorem toQuaternion_quatRotate (unit : q.Unit) :
    (quatRotate q v).toQuaternion =
      q.toQuaternion * v.toQuaternion * star q.toQuaternion := by
  rw [toQuaternion_quatRotate_add, Quat.unit_iff.mp unit, sub_self, coe_zero, zero_mul, add_zero]

theorem toQuaternion_quatRotateInv (unit : q.Unit) :
    (quatRotateInv q v).toQuaternion =
      star q.toQuaternion * v.toQuaternion * q.toQuaternion := by
  unfold quatRotateInv
  rw [toQuaternion_quatRotate v unit.conj, toQuaternion_conj, star_star]

theorem star_mul_toQuaternion (unit : q.Unit) : star q.toQuaternion * q.toQuaternion = 1 := by
  rw [star_mul_self, Quat.unit_iff.mp unit, coe_one]

theorem toQuaternion_mul_star (unit : q.Unit) : q.toQuaternion * star q.toQuaternion = 1 := by
  rw [self_mul_star, Quat.unit_iff.mp unit, coe_one]

end Bridge

section Rotations

variable {p q : Quat ℝ} (v : Vec3 ℝ)

theorem quatRotateInv_quatRotate (unit : q.Unit) : quatRotateInv q (quatRotate q v) = v := by
  apply Vec3.toQuaternion_injective
  rw [toQuaternion_quatRotateInv _ unit, toQuaternion_quatRotate _ unit]
  calc star q.toQuaternion * (q.toQuaternion * v.toQuaternion * star q.toQuaternion) *
        q.toQuaternion
      = (star q.toQuaternion * q.toQuaternion) * v.toQuaternion *
          (star q.toQuaternion * q.toQuaternion) := by noncomm_ring
    _ = v.toQuaternion := by rw [star_mul_toQuaternion unit, one_mul, mul_one]

theorem quatRotate_quatRotateInv (unit : q.Unit) : quatRotate q (quatRotateInv q v) = v := by
  apply Vec3.toQuaternion_injective
  rw [toQuaternion_quatRotate _ unit, toQuaternion_quatRotateInv _ unit]
  calc q.toQuaternion * (star q.toQuaternion * v.toQuaternion * q.toQuaternion) *
        star q.toQuaternion
      = (q.toQuaternion * star q.toQuaternion) * v.toQuaternion *
          (q.toQuaternion * star q.toQuaternion) := by noncomm_ring
    _ = v.toQuaternion := by rw [toQuaternion_mul_star unit, one_mul, mul_one]

theorem length_quatRotate (unit : q.Unit) : (quatRotate q v).length = v.length := by
  rw [Vec3.length_eq, Vec3.length_eq, toQuaternion_quatRotate v unit, map_mul, map_mul,
    normSq_star, Quat.unit_iff.mp unit, one_mul, mul_one]

theorem quatRotate_quatMul (first : p.Unit) (second : q.Unit) :
    quatRotate (quatMul p q) v = quatRotate p (quatRotate q v) := by
  apply Vec3.toQuaternion_injective
  rw [toQuaternion_quatRotate _ (first.quatMul second), toQuaternion_quatRotate _ first,
    toQuaternion_quatRotate _ second, toQuaternion_quatMul, star_mul]
  noncomm_ring

/-- Unit quaternions rotate: the inverse formula undoes the rotation on either side, lengths
are kept, and a product rotates as its factors do one after the other. -/
theorem quatRotate_spec (first : p.Unit) (unit : q.Unit) (v : Vec3 ℝ) :
    quatRotateInv q (quatRotate q v) = v ∧ quatRotate q (quatRotateInv q v) = v ∧
      (quatRotate q v).length = v.length ∧
      quatRotate (quatMul p q) v = quatRotate p (quatRotate q v) :=
  ⟨quatRotateInv_quatRotate v unit, quatRotate_quatRotateInv v unit, length_quatRotate v unit,
    quatRotate_quatMul v first unit⟩

/-- A half turn about the first axis, and after it one about the third. -/
theorem quatRotate_spec_turns :
    (quatRotate ⟨0, 1, 0, 0⟩ (⟨1, 2, 3⟩ : Vec3 ℝ)).length = (⟨1, 2, 3⟩ : Vec3 ℝ).length ∧
      quatRotate (quatMul ⟨3 / 5, 0, 0, 4 / 5⟩ ⟨0, 1, 0, 0⟩) (⟨1, 2, 3⟩ : Vec3 ℝ) =
        quatRotate ⟨3 / 5, 0, 0, 4 / 5⟩ (quatRotate ⟨0, 1, 0, 0⟩ ⟨1, 2, 3⟩) := by
  have first : (⟨3 / 5, 0, 0, 4 / 5⟩ : Quat ℝ).Unit := by norm_num [Quat.Unit]
  have second : (⟨0, 1, 0, 0⟩ : Quat ℝ).Unit := by norm_num [Quat.Unit]
  obtain ⟨-, -, length, product⟩ := quatRotate_spec first second ⟨1, 2, 3⟩
  exact ⟨length, product⟩

end Rotations

section Attitude

variable {q : Quat ℝ}

/-- The attitude before it is normalized. -/
theorem toQuaternion_integrated (q : Quat ℝ) (omega : Vec3 ℝ) (dt : ℝ) :
    let dot := quatMulHalf q ⟨0, omega.x, omega.y, omega.z⟩
    (⟨q.w + dot.w * dt, q.x + dot.x * dt, q.y + dot.y * dt, q.z + dot.z * dt⟩ :
        Quat ℝ).toQuaternion =
      q.toQuaternion * (⟨1, omega.x * dt / 2, omega.y * dt / 2, omega.z * dt / 2⟩ :
        Quat ℝ).toQuaternion := by
  ext <;> simp [quatMulHalf, quatMul] <;> ring

/-- A turn by the angular velocity never shortens the quaternion. -/
theorem one_le_normSq_integrated (unit : q.Unit) (omega : Vec3 ℝ) (dt : ℝ) :
    let dot := quatMulHalf q ⟨0, omega.x, omega.y, omega.z⟩
    1 ≤ normSq (⟨q.w + dot.w * dt, q.x + dot.x * dt, q.y + dot.y * dt, q.z + dot.z * dt⟩ :
      Quat ℝ).toQuaternion := by
  intro dot
  rw [toQuaternion_integrated, map_mul, Quat.unit_iff.mp unit, one_mul, normSq_toQuaternion]
  have x := mul_self_nonneg (omega.x * dt / 2)
  have y := mul_self_nonneg (omega.y * dt / 2)
  have z := mul_self_nonneg (omega.z * dt / 2)
  linarith

theorem unit_normalized (long : 1 ≤ normSq q.toQuaternion) : (RigidState.normalized q).Unit := by
  rw [normSq_toQuaternion] at long
  have positive : 0 < √(q.w * q.w + q.x * q.x + q.y * q.y + q.z * q.z) :=
    Real.sqrt_pos.mpr (by linarith)
  have square := Real.mul_self_sqrt (show 0 ≤ q.w * q.w + q.x * q.x + q.y * q.y + q.z * q.z by
    linarith)
  have above : lt (ofRat (1 / 1000000000000))
      (FloatTrig.sqrt (q.w * q.w + q.x * q.x + q.y * q.y + q.z * q.z)) = true := by
    rw [lt_real, decide_eq_true_eq, ofRat_real]
    refine lt_of_lt_of_le ?_ (Real.one_le_sqrt.mpr long)
    norm_num
  unfold RigidState.normalized Quat.Unit
  simp only [above, if_true]
  change q.w / √_ * (q.w / √_) + q.x / √_ * (q.x / √_) + q.y / √_ * (q.y / √_) +
    q.z / √_ * (q.z / √_) = 1
  rw [div_mul_div_comm, div_mul_div_comm, div_mul_div_comm, div_mul_div_comm, ← add_div,
    ← add_div, ← add_div, square, div_self (by linarith)]

theorem unit_stepAttitude {body : RigidState ℝ} (unit : body.quat.Unit) (dt : ℝ) :
    (body.stepAttitude dt).quat.Unit :=
  unit_normalized (one_le_normSq_integrated unit body.omega dt)

theorem quat_stepGround (body : RigidState ℝ) (restitution : ℝ) :
    (body.stepGround restitution).quat = body.quat := by
  unfold RigidState.stepGround
  split <;> rfl

theorem unit_step {body : RigidState ℝ} (unit : body.quat.Unit) (gravity : Vec3 ℝ)
    (restitution : ℝ) (force torque : Vec3 ℝ) (dt : ℝ) :
    (body.step gravity restitution force torque dt).quat.Unit := by
  unfold RigidState.step
  rw [quat_stepGround]
  have kept : ((body.stepLinear gravity force dt).stepOmega torque dt).quat.Unit := unit
  exact unit_stepAttitude kept dt

/-- A new box is turned about the vertical axis. -/
theorem unit_new (mass : ℝ) (half pos : Vec3 ℝ) (yaw : ℝ) :
    (RigidState.new mass half pos yaw).quat.Unit := by
  have circle := Real.cos_sq_add_sin_sq (yaw * (1 / 2 : ℚ))
  rw [sq, sq] at circle
  unfold RigidState.new Quat.Unit
  simp only [mul_zero, add_zero]
  exact circle

/-- The attitude of every body is a unit quaternion. -/
def World.UnitAttitudes (world : World ℝ) : Prop := ∀ body ∈ world.bodies, body.quat.Unit

theorem World.UnitAttitudes.next {world target : World ℝ} (attitudes : world.UnitAttitudes)
    {action : WorldAction ℝ} (stepped : world.next action = some target) :
    target.UnitAttitudes := by
  cases action with
  | addBox mass half pos yaw =>
      obtain rfl := Option.some.inj stepped
      intro body listed
      rcases List.mem_append.mp listed with before | added
      · exact attitudes body before
      · rw [List.mem_singleton.mp added]
        exact unit_new mass half pos yaw
  | addForce id f =>
      simp only [World.next, World.addForce] at stepped
      split at stepped
      · obtain rfl := Option.some.inj stepped
        exact attitudes
      · cases stepped
  | addTorque id tau =>
      simp only [World.next, World.addTorque] at stepped
      split at stepped
      · obtain rfl := Option.some.inj stepped
        exact attitudes
      · cases stepped
  | step dt =>
      obtain rfl := Option.some.inj stepped
      intro body listed
      obtain ⟨⟨before, force, torque⟩, zipped, rfl⟩ := List.mem_map.mp listed
      exact unit_step (attitudes before (List.of_mem_zip zipped).1) _ _ force torque dt

theorem unitAttitudes_of_reachable {world : World ℝ} (reached : (simulation ℝ).Reachable world) :
    world.UnitAttitudes := by
  apply reached.invariant
  · rintro _ ⟨gravity, rfl⟩ body listed
    cases listed
  · intro state action target attitudes stepped
    exact attitudes.next stepped

/-- In every world a run leads to, the frames of a body are converted into one another without
loss. -/
theorem rotateToWorld_rotateToBody {world : World ℝ} (reached : (simulation ℝ).Reachable world)
    (id : Nat) (v : Vec3 ℝ) :
    (world.rotateToBody id v).bind (world.rotateToWorld id) = (world.bodies[id]?.map fun _ => v) ∧
      (world.rotateToWorld id v).bind (world.rotateToBody id) =
        (world.bodies[id]?.map fun _ => v) := by
  unfold World.rotateToBody World.rotateToWorld
  cases held : world.bodies[id]? with
  | none => exact ⟨rfl, rfl⟩
  | some body =>
      have unit := unitAttitudes_of_reachable reached body (List.mem_of_getElem? held)
      exact ⟨congrArg some (quatRotate_quatRotateInv v unit),
        congrArg some (quatRotateInv_quatRotate v unit)⟩

end Attitude

end Teleop.Hal
