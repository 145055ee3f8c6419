import Rebocap.Driver.CoordinatesInverse
import Rebocap.Lib.RotationMatrix

/-!
# The orientation of the headset

`SendHmdPose` takes square roots for the parts of a quaternion and their signs from differences of
the matrix. Over the reals this is right as long as the differences do not vanish together.

* `headQuaternion_represents_iff` — when the quaternion is the headset's orientation
* `not_headQuaternion_represents` — facing backwards and up
-/

namespace Rebocap.Driver

open Lib Quaternion Arith FloatOrder

noncomputable section

/-- The rotation in `mDeviceToAbsoluteTracking`. -/
def rotationPart (m : Matrix34 ℝ) : Matrix3 := Matrix.of fun i j => m i j.castSucc

/-! ## A root with a sign -/

theorem copysign_eq (x y : ℝ) : copysign x y = if y < 0 then -|x| else |x| := rfl

theorem copysign_sq (x y : ℝ) : copysign x y ^ 2 = x ^ 2 := by
  rw [copysign_eq]
  split
  · rw [neg_sq, sq_abs]
  · rw [sq_abs]

/-- Half the root of a part that is not negative. -/
def halfRoot (x : ℝ) : ℝ := Real.sqrt (max 0 x) / literal 2 0

theorem halfRoot_eq (x : ℝ) : halfRoot x = Real.sqrt (max 0 x) / 2 := by
  rw [halfRoot, literal_two]

theorem halfRoot_nonneg (x : ℝ) : 0 ≤ halfRoot x := by
  rw [halfRoot_eq]
  exact div_nonneg (Real.sqrt_nonneg _) zero_le_two

theorem halfRoot_sq {x : ℝ} (hx : 0 ≤ x) : 4 * halfRoot x ^ 2 = x := by
  rw [halfRoot_eq, max_eq_right hx, div_pow, Real.sq_sqrt hx]
  ring

/-- The sign is that of the product. -/
theorem halfRoot_mul_copysign {w x d : ℝ} (hw : 0 ≤ w) (hx : 0 ≤ x) (h : w * x = d ^ 2) :
    4 * halfRoot w * copysign (halfRoot x) d = d := by
  have habs : 4 * halfRoot w * halfRoot x = |d| := by
    rw [halfRoot_eq, halfRoot_eq, max_eq_right hw, max_eq_right hx]
    calc 4 * (Real.sqrt w / 2) * (Real.sqrt x / 2) = Real.sqrt w * Real.sqrt x := by ring
      _ = Real.sqrt (w * x) := (Real.sqrt_mul hw x).symm
      _ = |d| := by rw [h, Real.sqrt_sq_eq_abs]
  rw [copysign_eq, abs_of_nonneg (halfRoot_nonneg x)]
  split
  next hd =>
    rw [mul_neg, habs, abs_of_neg hd, neg_neg]
  next hd => rw [habs, abs_of_nonneg (not_lt.mp hd)]

/-! ## The quaternion -/

theorem toQuaternion_headQuaternion (m : Matrix34 ℝ) :
    (headQuaternion m : Quat ℝ).toQuaternion.re = halfRoot (realSquare (rotationPart m)) ∧
      ∀ i, axisPart (headQuaternion m : Quat ℝ).toQuaternion i =
        copysign (halfRoot (axisSquare (rotationPart m) i)) (difference (rotationPart m) i) := by
  have hhalf (x : ℝ) : Arith.sqrt (fmax 0 (FloatConv.widen x : ℝ)) / literal 2 0 = halfRoot x := rfl
  constructor
  · exact hhalf _
  · intro i
    match i with
    | 0 => exact congrArg (copysign · _) (hhalf _)
    | 1 =>
      have hsquare : axisSquare (rotationPart m) 1 = 1 - m 0 0 + m 1 1 - m 2 2 := by
        show 1 + m 1 1 - m 2 2 - m 0 0 = _
        ring
      rw [hsquare]
      exact congrArg (copysign · _) (hhalf _)
    | 2 =>
      have hsquare : axisSquare (rotationPart m) 2 = 1 - m 0 0 - m 1 1 + m 2 2 := by
        show 1 + m 2 2 - m 0 0 - m 1 1 = _
        ring
      rw [hsquare]
      exact congrArg (copysign · _) (hhalf _)

theorem headQuaternion_hasProducts {m : Matrix34 ℝ} (hm : IsRotation (rotationPart m)) :
    HasProducts (headQuaternion m : Quat ℝ).toQuaternion (rotationPart m) := by
  obtain ⟨hre, hpart⟩ := toQuaternion_headQuaternion m
  constructor
  · rw [hre, halfRoot_sq hm.realSquare_nonneg]
  · intro i
    rw [hpart, copysign_sq, halfRoot_sq (hm.axisSquare_nonneg i)]
  · intro i
    rw [hre, hpart]
    exact halfRoot_mul_copysign hm.realSquare_nonneg (hm.axisSquare_nonneg i)
      (hm.realSquare_mul_axisSquare i)

/-- For a half turn the differences vanish, and no part is negative. -/
theorem axisPart_nonneg {m : Matrix34 ℝ} (hm : IsRotation (rotationPart m))
    (hreal : realSquare (rotationPart m) = 0) (i : Fin 3) :
    0 ≤ axisPart (headQuaternion m : Quat ℝ).toQuaternion i := by
  have hdifference : difference (rotationPart m) i = 0 := by
    have hmul := hm.realSquare_mul_axisSquare i
    rw [hreal, zero_mul] at hmul
    exact (pow_eq_zero_iff two_ne_zero).mp hmul.symm
  rw [(toQuaternion_headQuaternion m).2, hdifference, copysign_eq, if_neg (lt_irrefl 0)]
  exact abs_nonneg _

/-- **The quaternion has norm 1 and is the headset's orientation exactly if the headset is not
turned by half a turn, or the axis of the half turn has no two parts of different sign.** -/
theorem headQuaternion_represents_iff (m : Matrix34 ℝ) (hm : IsRotation (rotationPart m)) :
    (normSq (headQuaternion m : Quat ℝ).toQuaternion = 1 ∧
        Represents (headQuaternion m : Quat ℝ).toQuaternion (rotationPart m)) ↔
      1 + m 0 0 + m 1 1 + m 2 2 ≠ 0 ∨ 0 ≤ m 0 1 ∧ 0 ≤ m 1 2 ∧ 0 ≤ m 2 0 := by
  have hproducts := headQuaternion_hasProducts hm
  rw [and_iff_right hproducts.normSq_eq_one]
  by_cases hreal : realSquare (rotationPart m) = 0
  · have hhalf : ¬1 + m 0 0 + m 1 1 + m 2 2 ≠ 0 := not_not.mpr hreal
    rw [hproducts.represents_iff_of_halfTurn hm hreal (axisPart_nonneg hm hreal),
      or_iff_right hhalf, Fin.forall_fin_succ, Fin.forall_fin_two]
    rfl
  · exact ⟨fun _ => .inl hreal,
      fun _ => hproducts.represents_of_real_ne_zero hm hreal⟩

/-! ## A turned headset -/

/-- A headset at the origin. -/
def headset (r : Matrix3) : Matrix34 ℝ :=
  ![![r 0 0, r 0 1, r 0 2, 0], ![r 1 0, r 1 1, r 1 2, 0], ![r 2 0, r 2 1, r 2 2, 0]]

theorem rotationPart_headset (r : Matrix3) : rotationPart (headset r) = r := by
  refine Matrix.ext fun i j => ?_
  match i, j with
  | 0, 0 => rfl
  | 0, 1 => rfl
  | 0, 2 => rfl
  | 1, 0 => rfl
  | 1, 1 => rfl
  | 1, 2 => rfl
  | 2, 0 => rfl
  | 2, 1 => rfl
  | 2, 2 => rfl

theorem isRotation_headset {r : Matrix3} (h : r * r.transpose = 1) (hdet : r.det = 1) :
    IsRotation (rotationPart (headset r)) := by
  rw [rotationPart_headset]
  exact Matrix.mem_specialOrthogonalGroup_iff.mpr
    ⟨(Matrix.mem_orthogonalGroup_iff _ _).mpr h, hdet⟩

/-- A quarter of a turn to the left. -/
def left : Matrix3 := !![0, 0, 1; 0, 1, 0; -1, 0, 0]

theorem isRotation_left : IsRotation (rotationPart (headset left)) := by
  refine isRotation_headset ?_ ?_
  · refine Matrix.ext fun i j => ?_
    fin_cases i <;> fin_cases j <;>
      simp [left, Matrix.mul_apply, Fin.sum_univ_three]
  · rw [Matrix.det_fin_three]
    simp [left]

/-- Half a turn, about the vertical axis. -/
def backwards : Matrix3 := !![-1, 0, 0; 0, 1, 0; 0, 0, -1]

theorem isRotation_backwards : IsRotation (rotationPart (headset backwards)) := by
  refine isRotation_headset ?_ ?_
  · refine Matrix.ext fun i j => ?_
    fin_cases i <;> fin_cases j <;>
      simp [backwards, Matrix.mul_apply, Fin.sum_univ_three]
  · rw [Matrix.det_fin_three]
    simp [backwards]

/-- A headset that is turned, on either side of the condition. -/
theorem headQuaternion_represents_turned :
    (normSq (headQuaternion (headset left) : Quat ℝ).toQuaternion = 1 ∧
        Represents (headQuaternion (headset left) : Quat ℝ).toQuaternion
          (rotationPart (headset left))) ∧
      normSq (headQuaternion (headset backwards) : Quat ℝ).toQuaternion = 1 ∧
        Represents (headQuaternion (headset backwards) : Quat ℝ).toQuaternion
          (rotationPart (headset backwards)) := by
  constructor
  · refine (headQuaternion_represents_iff (headset left) isRotation_left).mpr (.inl ?_)
    show (1 : ℝ) + 0 + 1 + 0 ≠ 0
    norm_num
  · refine (headQuaternion_represents_iff (headset backwards) isRotation_backwards).mpr (.inr ?_)
    exact ⟨le_refl 0, le_refl 0, le_refl 0⟩

/-- Half a turn about the axis between up and forward. -/
def backwardsUp : Matrix3 := !![-1, 0, 0; 0, 0, -1; 0, -1, 0]

theorem isRotation_backwardsUp : IsRotation (rotationPart (headset backwardsUp)) := by
  refine isRotation_headset ?_ ?_
  · refine Matrix.ext fun i j => ?_
    fin_cases i <;> fin_cases j <;>
      simp [backwardsUp, Matrix.mul_apply, Fin.sum_univ_three]
  · rw [Matrix.det_fin_three]
    show (-1 : ℝ) * 0 * 0 - -1 * -1 * -1 - 0 * 0 * 0 + 0 * -1 * 0 + 0 * 0 * -1 - 0 * 0 * 0 = 1
    norm_num

/-- The axis of this half turn has parts of different sign. -/
theorem not_headQuaternion_represents :
    ¬∀ m : Matrix34 ℝ, IsRotation (rotationPart m) →
      normSq (headQuaternion m : Quat ℝ).toQuaternion = 1 ∧
        Represents (headQuaternion m : Quat ℝ).toQuaternion (rotationPart m) := by
  intro h
  have hm := isRotation_backwardsUp
  have hreal : realSquare (rotationPart (headset backwardsUp)) = 0 := by
    rw [rotationPart_headset]
    show (1 : ℝ) + -1 + 0 + 0 = 0
    norm_num
  have hentry := ((headQuaternion_hasProducts hm).represents_iff_of_halfTurn hm hreal
    (axisPart_nonneg hm hreal)).mp (h (headset backwardsUp) hm).2 1
  rw [rotationPart_headset] at hentry
  have hneg : backwardsUp 1 (1 + 1) = -1 := rfl
  rw [hneg] at hentry
  norm_num at hentry

end

end Rebocap.Driver
