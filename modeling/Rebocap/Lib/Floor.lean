import Rebocap.Lib.Rotation

/-!
# Directions on the floor

A direction on the floor has an X and a Z coordinate. Forward is -Z at first, so the right hand of
a direction is a quarter turn from it.

* `floorOf_rotate_aboutY` — a rotation about the Y axis turns the floor
* `turn_normalised`, `turn_rightOf` — turning commutes with the other operations
* `along_add_across` — a direction is the sum of its parts along another one and across it
-/

namespace Lib

open Quaternion

noncomputable section

/-- X and Z. -/
abbrev Floor := ℝ × ℝ

/-- The floor part of a vector. -/
def floorOf (v : ℍ[ℝ]) : Floor := (v.imI, v.imK)

def floorLength (d : Floor) : ℝ := Real.sqrt (d.1 ^ 2 + d.2 ^ 2)

def normalised (d : Floor) : Floor := (d.1 / floorLength d, d.2 / floorLength d)

def rightOf (d : Floor) : Floor := (-d.2, d.1)

/-- `d` turned about the Y axis. -/
def turn (θ : ℝ) (d : Floor) : Floor :=
  (d.1 * Real.cos θ + d.2 * Real.sin θ, -d.1 * Real.sin θ + d.2 * Real.cos θ)

/-- The part of `d` along `r`. -/
def along (d r : Floor) : ℝ := d.1 * r.1 + d.2 * r.2

theorem floorOf_rotate_aboutY (θ x y z : ℝ) :
    floorOf (rotate (aboutY θ) (vector x y z)) = turn θ (floorOf (vector x y z)) := by
  rw [rotate_aboutY]
  rfl

/-! ## Length -/

theorem floorLength_nonneg (d : Floor) : 0 ≤ floorLength d := Real.sqrt_nonneg _

theorem floorLength_sq (d : Floor) : floorLength d ^ 2 = d.1 ^ 2 + d.2 ^ 2 :=
  Real.sq_sqrt (add_nonneg (sq_nonneg _) (sq_nonneg _))

theorem floorLength_smul {c : ℝ} (hc : 0 ≤ c) (d : Floor) :
    floorLength (c • d) = c * floorLength d := by
  refine (sq_eq_sq₀ (floorLength_nonneg _) (mul_nonneg hc (floorLength_nonneg d))).mp ?_
  rw [mul_pow, floorLength_sq, floorLength_sq]
  simp only [Prod.smul_fst, Prod.smul_snd, smul_eq_mul]
  ring

theorem normalised_eq_smul (d : Floor) : normalised d = (floorLength d)⁻¹ • d := by
  refine Prod.ext ?_ ?_
  · exact div_eq_inv_mul d.1 (floorLength d)
  · exact div_eq_inv_mul d.2 (floorLength d)

theorem floorLength_normalised {d : Floor} (hd : floorLength d ≠ 0) :
    floorLength (normalised d) = 1 := by
  rw [normalised_eq_smul, floorLength_smul (inv_nonneg.mpr (floorLength_nonneg d)),
    inv_mul_cancel₀ hd]

/-! ## Turning -/

@[simp] theorem turn_zero (d : Floor) : turn 0 d = d := by simp [turn]

theorem turn_add (θ : ℝ) (a b : Floor) : turn θ (a + b) = turn θ a + turn θ b := by
  refine Prod.ext ?_ ?_
  · simp only [turn, Prod.fst_add, Prod.snd_add]
    ring
  · simp only [turn, Prod.fst_add, Prod.snd_add]
    ring

theorem turn_smul (θ c : ℝ) (d : Floor) : turn θ (c • d) = c • turn θ d := by
  refine Prod.ext ?_ ?_
  · simp only [turn, Prod.smul_fst, Prod.smul_snd, smul_eq_mul]
    ring
  · simp only [turn, Prod.smul_fst, Prod.smul_snd, smul_eq_mul]
    ring

theorem turn_rightOf (θ : ℝ) (d : Floor) : turn θ (rightOf d) = rightOf (turn θ d) := by
  refine Prod.ext ?_ ?_
  · simp only [turn, rightOf]
    ring
  · simp only [turn, rightOf]
    ring

theorem floorLength_turn (θ : ℝ) (d : Floor) : floorLength (turn θ d) = floorLength d := by
  refine (sq_eq_sq₀ (floorLength_nonneg _) (floorLength_nonneg _)).mp ?_
  rw [floorLength_sq, floorLength_sq]
  simp only [turn]
  linear_combination (d.1 ^ 2 + d.2 ^ 2) * Real.sin_sq_add_cos_sq θ

theorem turn_normalised (θ : ℝ) (d : Floor) : turn θ (normalised d) = normalised (turn θ d) := by
  rw [normalised_eq_smul, normalised_eq_smul, turn_smul, floorLength_turn]

/-- Turned there and back. -/
theorem turn_turn_neg (θ : ℝ) (d : Floor) : turn θ (turn (-θ) d) = d := by
  refine Prod.ext ?_ ?_
  · simp only [turn, Real.cos_neg, Real.sin_neg]
    linear_combination d.1 * Real.sin_sq_add_cos_sq θ
  · simp only [turn, Real.cos_neg, Real.sin_neg]
    linear_combination d.2 * Real.sin_sq_add_cos_sq θ

/-! ## Parts -/

/-- **A direction is the sum of its parts along a unit direction and along its right hand.** -/
theorem along_add_across (d : Floor) {r : Floor} (hr : floorLength r = 1) :
    along d r • r + along d (rightOf r) • rightOf r = d := by
  have hsq : r.1 ^ 2 + r.2 ^ 2 = 1 := by rw [← floorLength_sq, hr, one_pow]
  refine Prod.ext ?_ ?_
  · simp only [along, rightOf, Prod.fst_add, Prod.smul_fst, smul_eq_mul]
    linear_combination d.1 * hsq
  · simp only [along, rightOf, Prod.snd_add, Prod.smul_snd, smul_eq_mul]
    linear_combination d.2 * hsq

/-- The parts are as long as the direction. -/
theorem floorLength_parts (d : Floor) {r : Floor} (hr : floorLength r = 1) :
    floorLength (along d (rightOf r), along d r) = floorLength d := by
  have hsq : r.1 ^ 2 + r.2 ^ 2 = 1 := by rw [← floorLength_sq, hr, one_pow]
  refine (sq_eq_sq₀ (floorLength_nonneg _) (floorLength_nonneg _)).mp ?_
  rw [floorLength_sq, floorLength_sq]
  simp only [along, rightOf]
  linear_combination (d.1 ^ 2 + d.2 ^ 2) * hsq

end

end Lib
