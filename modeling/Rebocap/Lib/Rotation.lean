import Mathlib.Algebra.Quaternion
import Mathlib.Analysis.SpecialFunctions.Trigonometric.Basic

/-!
# Rotations of space by quaternions

A vector is a quaternion without real part, and `q` turns `v` to `q v q*`. The rotation about the
Y axis by an angle is given by the half angle.

* `rotate_aboutY` — what it does to coordinates
* `RigidMotion.toFrame_ofFrame`, `RigidMotion.ofFrame_toFrame` — a change between two frames that
  differ by a translation and a rotation is invertible
-/

namespace Lib

open Quaternion

noncomputable section

/-! ## Rotating -/

/-- A vector of space. -/
@[simps] def vector (x y z : ℝ) : ℍ[ℝ] := ⟨0, x, y, z⟩

/-- `v` turned by `q`. -/
def rotate (q v : ℍ[ℝ]) : ℍ[ℝ] := q * v * star q

@[simp] theorem rotate_one (v : ℍ[ℝ]) : rotate 1 v = v := by simp [rotate]

theorem rotate_mul (a b v : ℍ[ℝ]) : rotate (a * b) v = rotate a (rotate b v) := by
  simp only [rotate, star_mul, mul_assoc]

/-! ## About the Y axis -/

/-- The rotation by `θ` about the Y axis. -/
@[simps] def aboutY (θ : ℝ) : ℍ[ℝ] := ⟨Real.cos (θ / 2), 0, Real.sin (θ / 2), 0⟩

@[simp] theorem aboutY_zero : aboutY 0 = 1 := by
  ext <;> simp

theorem aboutY_add (α β : ℝ) : aboutY (α + β) = aboutY α * aboutY β := by
  have hhalf : (α + β) / 2 = α / 2 + β / 2 := by ring
  ext <;> simp [hhalf, Real.cos_add, Real.sin_add]
  ring

theorem aboutY_mul_neg (θ : ℝ) : aboutY θ * aboutY (-θ) = 1 := by
  rw [← aboutY_add, add_neg_cancel, aboutY_zero]

theorem aboutY_neg_mul (θ : ℝ) : aboutY (-θ) * aboutY θ = 1 := by
  rw [← aboutY_add, neg_add_cancel, aboutY_zero]

/-- **The coordinates of a vector that is turned about the Y axis.** -/
theorem rotate_aboutY (θ x y z : ℝ) :
    rotate (aboutY θ) (vector x y z)
      = vector (x * Real.cos θ + z * Real.sin θ) y (-x * Real.sin θ + z * Real.cos θ) := by
  have hcos : Real.cos θ = Real.cos (θ / 2) ^ 2 - Real.sin (θ / 2) ^ 2 := by
    rw [← Real.cos_two_mul', mul_div_cancel₀ θ two_ne_zero]
  have hsin : Real.sin θ = 2 * Real.sin (θ / 2) * Real.cos (θ / 2) := by
    rw [← Real.sin_two_mul, mul_div_cancel₀ θ two_ne_zero]
  have hone := Real.sin_sq_add_cos_sq (θ / 2)
  rw [hcos, hsin]
  ext
  · simp [rotate]
    ring
  · simp [rotate]
    ring
  · simp [rotate]
    linear_combination y * hone
  · simp [rotate]
    ring

/-! ## Two frames -/

/-- A frame that lies at `-origin` in another one and is turned by `rotation` against it. -/
structure RigidMotion where
  rotation : ℍ[ℝ]
  inverse : ℍ[ℝ]
  origin : ℍ[ℝ]
  rotation_mul_inverse : rotation * inverse = 1
  inverse_mul_rotation : inverse * rotation = 1

namespace RigidMotion

variable (m : RigidMotion)

/-- A pose of the other frame in this one: translate, then rotate. -/
def toFrame (pose : ℍ[ℝ] × ℍ[ℝ]) : ℍ[ℝ] × ℍ[ℝ] :=
  (rotate m.inverse (pose.1 + m.origin), m.inverse * pose.2)

/-- A pose of this frame in the other one: rotate, then translate. -/
def ofFrame (pose : ℍ[ℝ] × ℍ[ℝ]) : ℍ[ℝ] × ℍ[ℝ] :=
  (rotate m.rotation pose.1 - m.origin, m.rotation * pose.2)

theorem ofFrame_toFrame (pose : ℍ[ℝ] × ℍ[ℝ]) : m.ofFrame (m.toFrame pose) = pose := by
  rw [ofFrame, toFrame, ← rotate_mul, ← mul_assoc, m.rotation_mul_inverse, rotate_one, one_mul,
    add_sub_cancel_right]

theorem toFrame_ofFrame (pose : ℍ[ℝ] × ℍ[ℝ]) : m.toFrame (m.ofFrame pose) = pose := by
  rw [ofFrame, toFrame, sub_add_cancel, ← rotate_mul, ← mul_assoc, m.inverse_mul_rotation,
    rotate_one, one_mul]

/-- A frame turned about the Y axis. -/
def aboutY (yaw : ℝ) (origin : ℍ[ℝ]) : RigidMotion where
  rotation := Lib.aboutY yaw
  inverse := Lib.aboutY (-yaw)
  origin := origin
  rotation_mul_inverse := aboutY_mul_neg yaw
  inverse_mul_rotation := aboutY_neg_mul yaw

end RigidMotion

end

end Lib
