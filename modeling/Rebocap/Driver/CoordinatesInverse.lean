import Rebocap.Driver.Coordinates
import Rebocap.Lib.RealScalar
import Rebocap.Lib.Rotation

/-!
# The two conversions are inverse

Over the reals. SteamVR composes a pose with its world-from-driver transform by quaternions; the
driver expands the products by hand. Both are the two directions of one rigid motion.

* `steamVr_toStanding` — they undo each other, for every universe
-/

namespace Rebocap.Driver

open Lib Quaternion

noncomputable section

/-! ## Poses over the reals -/

abbrev Pose := Vec3 ℝ × Quat ℝ

def Vec3.toQuaternion (v : Vec3 ℝ) : ℍ[ℝ] := vector v.x v.y v.z

@[simps] def Quat.toQuaternion (q : Quat ℝ) : ℍ[ℝ] := ⟨q.w, q.x, q.y, q.z⟩

/-- Position and orientation as quaternions. -/
def quaternions (pose : Pose) : ℍ[ℝ] × ℍ[ℝ] := (pose.1.toQuaternion, pose.2.toQuaternion)

theorem quaternions_injective : Function.Injective quaternions := by
  rintro ⟨⟨x, y, z⟩, ⟨w, i, j, k⟩⟩ ⟨⟨x', y', z'⟩, ⟨w', i', j', k'⟩⟩ h
  obtain ⟨hp, hq⟩ := Prod.mk.inj h
  obtain ⟨-, rfl, rfl, rfl⟩ := QuaternionAlgebra.mk.inj hp
  obtain ⟨rfl, rfl, rfl, rfl⟩ := QuaternionAlgebra.mk.inj hq
  rfl

/-- The world pose that SteamVR makes of a driver pose and its world-from-driver transform. -/
def steamVr (w : WorldFromDriver ℝ) (pose : Pose) : Pose :=
  let p := rotate w.rotation.toQuaternion pose.1.toQuaternion + w.translation.toQuaternion
  let q := w.rotation.toQuaternion * pose.2.toQuaternion
  (⟨p.imI, p.imJ, p.imK⟩, ⟨q.re, q.imI, q.imJ, q.imK⟩)

/-! ## One rigid motion -/

/-- The standing universe against raw tracking space. -/
def Universe.motion (u : Universe ℝ) : RigidMotion :=
  RigidMotion.aboutY u.yaw (vector u.x u.y u.z)

/-- `SendHmdPose` goes to the frame of the standing universe. -/
theorem quaternions_toStanding (u : Universe ℝ) (pose : Pose) :
    quaternions (toStanding u pose.1 pose.2) = u.motion.toFrame (quaternions pose) := by
  obtain ⟨⟨x, y, z⟩, q⟩ := pose
  refine Prod.ext ?_ ?_
  · have hsum : vector x y z + vector u.x u.y u.z = vector (x + u.x) (y + u.y) (z + u.z) := by
      ext <;> simp
    show vector _ _ _ = rotate (aboutY (-u.yaw)) (vector x y z + vector u.x u.y u.z)
    rw [hsum, rotate_aboutY]
    rfl
  · show Quat.toQuaternion _ = aboutY (-u.yaw) * q.toQuaternion
    ext <;> simp [toStanding]

theorem toQuaternion_worldFromDriver (u : Universe ℝ) :
    (worldFromDriver u).rotation.toQuaternion = aboutY u.yaw := by
  ext <;> simp [worldFromDriver]

/-- The world-from-driver transform goes back from it. -/
theorem quaternions_steamVr (u : Universe ℝ) (pose : Pose) :
    quaternions (steamVr (worldFromDriver u) pose) = u.motion.ofFrame (quaternions pose) := by
  obtain ⟨⟨x, y, z⟩, q⟩ := pose
  have hneg : Vec3.toQuaternion (worldFromDriver u).translation = -vector u.x u.y u.z := by
    ext <;> simp [worldFromDriver, Vec3.toQuaternion]
  refine Prod.ext ?_ ?_
  · have hp : rotate (aboutY u.yaw) (vector x y z) - vector u.x u.y u.z
        = rotate (worldFromDriver u).rotation.toQuaternion (vector x y z)
          + (worldFromDriver u).translation.toQuaternion := by
      rw [toQuaternion_worldFromDriver, hneg, sub_eq_add_neg]
    have hre : (rotate (aboutY u.yaw) (vector x y z) - vector u.x u.y u.z).re = 0 := by
      rw [rotate_aboutY]
      simp
    show _ = rotate (aboutY u.yaw) (vector x y z) - vector u.x u.y u.z
    rw [hp] at hre ⊢
    exact QuaternionAlgebra.ext hre.symm rfl rfl rfl
  · show _ = aboutY u.yaw * q.toQuaternion
    rw [← toQuaternion_worldFromDriver]
    rfl

/-! ## There and back -/

/-- **The two conversions are inverse**, for every universe, the fallback included: what SteamVR
makes of a pose that was sent to the app is the raw pose it was made from, and a pose of the
standing universe that goes through raw tracking space comes back unchanged. -/
theorem steamVr_toStanding (u : Universe ℝ) (pose : Pose) :
    steamVr (worldFromDriver u) (toStanding u pose.1 pose.2) = pose ∧
      toStanding u (steamVr (worldFromDriver u) pose).1 (steamVr (worldFromDriver u) pose).2
        = pose := by
  constructor
  · apply quaternions_injective
    rw [quaternions_steamVr, quaternions_toStanding, RigidMotion.ofFrame_toFrame]
  · apply quaternions_injective
    rw [quaternions_toStanding, quaternions_steamVr, RigidMotion.toFrame_ofFrame]

end

end Rebocap.Driver
