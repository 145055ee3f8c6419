import Mathlib.LinearAlgebra.Matrix.Adjugate
import Mathlib.LinearAlgebra.UnitaryGroup
import Rebocap.Lib.Rotation

/-!
# Rotation matrices and quaternions

The diagonal of a rotation matrix gives the squares of the four components of its quaternion, and
the entries beside it give their products. Axes are counted modulo three, so one statement stands
for all three.

* `represents_iff` — the matrix of a quaternion
* `IsRotation.realSquare_mul_axisSquare`, `IsRotation.axisSquare_mul_next` — the products
* `IsRotation.represents_iff` — when a quaternion with these squares stands for the matrix
-/

namespace Lib

open Quaternion Matrix

noncomputable section

abbrev Matrix3 := Matrix (Fin 3) (Fin 3) ℝ

/-! ## The matrix of a quaternion -/

/-- `q` turns every vector as `r` does. -/
def Represents (q : ℍ[ℝ]) (r : Matrix3) : Prop :=
  ∀ v : Fin 3 → ℝ, rotate q (vector (v 0) (v 1) (v 2)) =
    vector ((r *ᵥ v) 0) ((r *ᵥ v) 1) ((r *ᵥ v) 2)

/-- The columns are what `q` makes of the axes. -/
def rotationMatrix (q : ℍ[ℝ]) : Matrix3 :=
  let x := rotate q (vector 1 0 0)
  let y := rotate q (vector 0 1 0)
  let z := rotate q (vector 0 0 1)
  !![x.imI, y.imI, z.imI; x.imJ, y.imJ, z.imJ; x.imK, y.imK, z.imK]

theorem rotationMatrix_eq (q : ℍ[ℝ]) :
    rotationMatrix q =
      !![q.re ^ 2 + q.imI ^ 2 - q.imJ ^ 2 - q.imK ^ 2, 2 * (q.imI * q.imJ - q.re * q.imK),
          2 * (q.imI * q.imK + q.re * q.imJ);
        2 * (q.imI * q.imJ + q.re * q.imK), q.re ^ 2 - q.imI ^ 2 + q.imJ ^ 2 - q.imK ^ 2,
          2 * (q.imJ * q.imK - q.re * q.imI);
        2 * (q.imI * q.imK - q.re * q.imJ), 2 * (q.imJ * q.imK + q.re * q.imI),
          q.re ^ 2 - q.imI ^ 2 - q.imJ ^ 2 + q.imK ^ 2] := by
  refine Matrix.ext fun i j => ?_
  fin_cases i <;> fin_cases j <;> simp [rotationMatrix, rotate] <;> ring

theorem represents_rotationMatrix (q : ℍ[ℝ]) : Represents q (rotationMatrix q) := by
  intro v
  simp only [rotationMatrix_eq, mulVec, dotProduct, Fin.sum_univ_three]
  ext
  · simp [rotate]
    ring
  · simp [rotate]
    ring
  · simp [rotate]
    ring
  · simp [rotate]
    ring

theorem represents_iff {q : ℍ[ℝ]} {r : Matrix3} : Represents q r ↔ r = rotationMatrix q := by
  constructor
  · intro h
    refine Matrix.ext_of_mulVec_single fun j => ?_
    have hsame := (h (Pi.single j 1)).symm.trans (represents_rotationMatrix q (Pi.single j 1))
    obtain ⟨-, hx, hy, hz⟩ := QuaternionAlgebra.mk.inj hsame
    funext i
    match i with
    | 0 => exact hx
    | 1 => exact hy
    | 2 => exact hz
  · rintro rfl
    exact represents_rotationMatrix q

/-! ## Axes -/

theorem next_next (i : Fin 3) : i + 1 + 1 = i + 2 := by
  revert i
  decide

theorem next_last (i : Fin 3) : i + 1 + 2 = i := by
  revert i
  decide

theorem last_next (i : Fin 3) : i + 2 + 1 = i := by
  revert i
  decide

theorem last_last (i : Fin 3) : i + 2 + 2 = i + 1 := by
  revert i
  decide

theorem ne_next (i : Fin 3) : i ≠ i + 1 := by
  revert i
  decide

theorem sum_axes (f : Fin 3 → ℝ) (i : Fin 3) : ∑ k, f k = f i + f (i + 1) + f (i + 2) := by
  rw [Fin.sum_univ_three]
  match i with
  | 0 => rfl
  | 1 =>
    show f 0 + f 1 + f 2 = f 1 + f 2 + f 0
    ring
  | 2 =>
    show f 0 + f 1 + f 2 = f 2 + f 0 + f 1
    ring

/-! ## Rotation matrices -/

/-- Orthogonal, and of determinant 1. -/
def IsRotation (r : Matrix3) : Prop := r ∈ specialOrthogonalGroup (Fin 3) ℝ

/-- Four times the square of the real part. -/
def realSquare (r : Matrix3) : ℝ := 1 + r 0 0 + r 1 1 + r 2 2

/-- Four times the square of the part along an axis. -/
def axisSquare (r : Matrix3) (i : Fin 3) : ℝ :=
  1 + r i i - r (i + 1) (i + 1) - r (i + 2) (i + 2)

/-- Four times the product of the real part and the part along an axis. -/
def difference (r : Matrix3) (i : Fin 3) : ℝ := r (i + 2) (i + 1) - r (i + 1) (i + 2)

theorem realSquare_eq (r : Matrix3) (i : Fin 3) :
    realSquare r = 1 + r i i + r (i + 1) (i + 1) + r (i + 2) (i + 2) := by
  have hsum := sum_axes (fun k => r k k) i
  rw [Fin.sum_univ_three] at hsum
  unfold realSquare
  linear_combination hsum

theorem sum_squares (r : Matrix3) (i : Fin 3) :
    realSquare r + axisSquare r i + axisSquare r (i + 1) + axisSquare r (i + 2) = 4 := by
  rw [realSquare_eq r i]
  unfold axisSquare
  rw [next_next, next_last, last_next, last_last]
  ring

namespace IsRotation

variable {r : Matrix3} (h : IsRotation r)

include h

theorem row (i : Fin 3) : r i i ^ 2 + r i (i + 1) ^ 2 + r i (i + 2) ^ 2 = 1 := by
  have hmul : r * rᵀ = 1 := (mem_orthogonalGroup_iff _ _).mp h.1
  have hentry := congrFun (congrFun hmul i) i
  rw [mul_apply, sum_axes _ i, one_apply_eq] at hentry
  simp only [transpose_apply] at hentry
  linear_combination hentry

theorem column (i : Fin 3) : r i i ^ 2 + r (i + 1) i ^ 2 + r (i + 2) i ^ 2 = 1 := by
  have hmul : rᵀ * r = 1 := (mem_orthogonalGroup_iff' _ _).mp h.1
  have hentry := congrFun (congrFun hmul i) i
  rw [mul_apply, sum_axes _ i, one_apply_eq] at hentry
  simp only [transpose_apply] at hentry
  linear_combination hentry

theorem row_next (i : Fin 3) : r i i * r (i + 1) i + r i (i + 1) * r (i + 1) (i + 1)
    + r i (i + 2) * r (i + 1) (i + 2) = 0 := by
  have hmul : r * rᵀ = 1 := (mem_orthogonalGroup_iff _ _).mp h.1
  have hentry := congrFun (congrFun hmul i) (i + 1)
  rw [mul_apply, sum_axes _ i, one_apply_ne (ne_next i)] at hentry
  exact hentry

theorem column_next (i : Fin 3) : r i i * r i (i + 1) + r (i + 1) i * r (i + 1) (i + 1)
    + r (i + 2) i * r (i + 2) (i + 1) = 0 := by
  have hmul : rᵀ * r = 1 := (mem_orthogonalGroup_iff' _ _).mp h.1
  have hentry := congrFun (congrFun hmul i) (i + 1)
  rw [mul_apply, sum_axes _ i, one_apply_ne (ne_next i)] at hentry
  exact hentry

theorem adjugate_eq : adjugate r = rᵀ := by
  have hmul : rᵀ * r = 1 := (mem_orthogonalGroup_iff' _ _).mp h.1
  have hdet : r.det = 1 := h.2
  calc adjugate r = rᵀ * r * adjugate r := by rw [hmul, one_mul]
    _ = rᵀ * (r.det • 1) := by rw [Matrix.mul_assoc, mul_adjugate]
    _ = rᵀ := by rw [hdet, one_smul, Matrix.mul_one]

/-- An entry is its cofactor. -/
theorem cofactor (i : Fin 3) :
    r i i = r (i + 1) (i + 1) * r (i + 2) (i + 2) - r (i + 1) (i + 2) * r (i + 2) (i + 1) := by
  have hentry := congrFun (congrFun h.adjugate_eq i) i
  rw [adjugate_fin_three, transpose_apply] at hentry
  match i with
  | 0 =>
    have : r 0 0 = r 1 1 * r 2 2 - r 1 2 * r 2 1 := hentry.symm
    exact this
  | 1 =>
    have : r 1 1 = r 0 0 * r 2 2 - r 0 2 * r 2 0 := hentry.symm
    show r 1 1 = r 2 2 * r 0 0 - r 2 0 * r 0 2
    linear_combination this
  | 2 =>
    have : r 2 2 = r 0 0 * r 1 1 - r 0 1 * r 1 0 := hentry.symm
    exact this

/-- An entry beside the diagonal is its cofactor. -/
theorem cofactor_next (i : Fin 3) :
    r i (i + 1) = r (i + 1) (i + 2) * r (i + 2) i - r (i + 1) i * r (i + 2) (i + 2) ∧
      r (i + 1) i = r i (i + 2) * r (i + 2) (i + 1) - r i (i + 1) * r (i + 2) (i + 2) := by
  have hentry := congrFun (congrFun h.adjugate_eq (i + 1)) i
  have hentry' := congrFun (congrFun h.adjugate_eq i) (i + 1)
  rw [adjugate_fin_three, transpose_apply] at hentry hentry'
  match i with
  | 0 =>
    have hnext : r 0 1 = -(r 1 0 * r 2 2) + r 1 2 * r 2 0 := hentry.symm
    have hnext' : r 1 0 = -(r 0 1 * r 2 2) + r 0 2 * r 2 1 := hentry'.symm
    constructor
    · show r 0 1 = r 1 2 * r 2 0 - r 1 0 * r 2 2
      linear_combination hnext
    · show r 1 0 = r 0 2 * r 2 1 - r 0 1 * r 2 2
      linear_combination hnext'
  | 1 =>
    have hnext : r 1 2 = -(r 0 0 * r 2 1) + r 0 1 * r 2 0 := hentry.symm
    have hnext' : r 2 1 = -(r 0 0 * r 1 2) + r 0 2 * r 1 0 := hentry'.symm
    constructor
    · show r 1 2 = r 2 0 * r 0 1 - r 2 1 * r 0 0
      linear_combination hnext
    · show r 2 1 = r 1 0 * r 0 2 - r 1 2 * r 0 0
      linear_combination hnext'
  | 2 =>
    have hnext : r 2 0 = r 0 1 * r 1 2 - r 0 2 * r 1 1 := hentry.symm
    have hnext' : r 0 2 = r 1 0 * r 2 1 - r 1 1 * r 2 0 := hentry'.symm
    constructor
    · show r 2 0 = r 0 1 * r 1 2 - r 0 2 * r 1 1
      linear_combination hnext
    · show r 0 2 = r 2 1 * r 1 0 - r 2 0 * r 1 1
      linear_combination hnext'

/-! ### Squares and products -/

theorem realSquare_mul_axisSquare (i : Fin 3) :
    realSquare r * axisSquare r i = difference r i ^ 2 := by
  have hrow := h.row (i + 1)
  have hrow' := h.row (i + 2)
  have hcolumn := h.column i
  have hcofactor := h.cofactor i
  rw [next_next, next_last] at hrow
  rw [last_next, last_last] at hrow'
  rw [realSquare_eq r i]
  unfold axisSquare difference
  linear_combination 2 * hcofactor + hcolumn - hrow - hrow'

theorem axisSquare_mul_next (i : Fin 3) :
    axisSquare r i * axisSquare r (i + 1) = (r i (i + 1) + r (i + 1) i) ^ 2 := by
  have hrow := h.row (i + 2)
  have hcolumn := h.column i
  have hcolumn' := h.column (i + 1)
  have hcofactor := h.cofactor (i + 2)
  rw [last_next, last_last] at hrow hcofactor
  rw [next_next, next_last] at hcolumn'
  unfold axisSquare
  rw [next_next, next_last]
  linear_combination -2 * hcofactor + hrow - hcolumn - hcolumn'

/-- The product of two differences. -/
theorem difference_mul_next (i : Fin 3) :
    difference r i * difference r (i + 1) = realSquare r * (r i (i + 1) + r (i + 1) i) := by
  obtain ⟨hnext, hnext'⟩ := h.cofactor_next i
  have hrow := h.row_next i
  have hcolumn := h.column_next i
  rw [realSquare_eq r i]
  unfold difference
  rw [next_next, next_last]
  linear_combination -hnext - hnext' - hrow - hcolumn

/-- The real part has a square root: if it were negative, so were all four. -/
theorem realSquare_nonneg : 0 ≤ realSquare r := by
  by_contra hneg
  have haxis : ∀ i, axisSquare r i ≤ 0 := by
    intro i
    have hmul := h.realSquare_mul_axisSquare i
    nlinarith [sq_nonneg (difference r i)]
  have hsum := sum_squares r 0
  linarith [haxis 0, haxis (0 + 1), haxis (0 + 2)]

theorem axisSquare_nonneg (i : Fin 3) : 0 ≤ axisSquare r i := by
  by_contra hneg
  have hreal : realSquare r ≤ 0 := by
    have hmul := h.realSquare_mul_axisSquare i
    nlinarith [sq_nonneg (difference r i)]
  have hnext : axisSquare r (i + 1) ≤ 0 := by
    have hmul := h.axisSquare_mul_next i
    nlinarith [sq_nonneg (r i (i + 1) + r (i + 1) i)]
  have hlast : axisSquare r (i + 2) ≤ 0 := by
    have hmul := h.axisSquare_mul_next (i + 2)
    rw [last_next] at hmul
    nlinarith [sq_nonneg (r (i + 2) i + r i (i + 2))]
  have hsum := sum_squares r i
  linarith

end IsRotation

/-! ## Quaternions with the squares of a matrix -/

/-- The part of a quaternion along an axis. -/
def axisPart (q : ℍ[ℝ]) : Fin 3 → ℝ := ![q.imI, q.imJ, q.imK]

/-- The squares, and the products with the real part, are those of the matrix. -/
structure HasProducts (q : ℍ[ℝ]) (r : Matrix3) : Prop where
  real : 4 * q.re ^ 2 = realSquare r
  axis : ∀ i, 4 * axisPart q i ^ 2 = axisSquare r i
  product : ∀ i, 4 * q.re * axisPart q i = difference r i

namespace HasProducts

variable {q : ℍ[ℝ]} {r : Matrix3} (h : HasProducts q r)

include h

theorem normSq_eq_one : normSq q = 1 := by
  have hsum := sum_squares r 0
  have hreal := h.real
  have hx : 4 * q.imI ^ 2 = axisSquare r 0 := h.axis 0
  have hy : 4 * q.imJ ^ 2 = axisSquare r (0 + 1) := h.axis 1
  have hz : 4 * q.imK ^ 2 = axisSquare r (0 + 2) := h.axis 2
  rw [normSq_def']
  linarith

/-- **The quaternion stands for the matrix if the products of its axes are the sums of the entries
beside the diagonal.** -/
theorem represents_iff : Represents q r ↔
    ∀ i, 4 * (axisPart q i * axisPart q (i + 1)) = r i (i + 1) + r (i + 1) i := by
  rw [Lib.represents_iff, rotationMatrix_eq]
  constructor
  · rintro hr i
    rw [hr]
    match i with
    | 0 =>
      show 4 * (q.imI * q.imJ) =
        2 * (q.imI * q.imJ - q.re * q.imK) + 2 * (q.imI * q.imJ + q.re * q.imK)
      ring
    | 1 =>
      show 4 * (q.imJ * q.imK) =
        2 * (q.imJ * q.imK - q.re * q.imI) + 2 * (q.imJ * q.imK + q.re * q.imI)
      ring
    | 2 =>
      show 4 * (q.imK * q.imI) =
        2 * (q.imI * q.imK - q.re * q.imJ) + 2 * (q.imI * q.imK + q.re * q.imJ)
      ring
  · intro hsums
    have hreal : 4 * q.re ^ 2 = 1 + r 0 0 + r 1 1 + r 2 2 := h.real
    have hx : 4 * q.imI ^ 2 = 1 + r 0 0 - r 1 1 - r 2 2 := h.axis 0
    have hy : 4 * q.imJ ^ 2 = 1 + r 1 1 - r 2 2 - r 0 0 := h.axis 1
    have hz : 4 * q.imK ^ 2 = 1 + r 2 2 - r 0 0 - r 1 1 := h.axis 2
    have hwx : 4 * q.re * q.imI = r 2 1 - r 1 2 := h.product 0
    have hwy : 4 * q.re * q.imJ = r 0 2 - r 2 0 := h.product 1
    have hwz : 4 * q.re * q.imK = r 1 0 - r 0 1 := h.product 2
    have hxy : 4 * (q.imI * q.imJ) = r 0 1 + r 1 0 := hsums 0
    have hyz : 4 * (q.imJ * q.imK) = r 1 2 + r 2 1 := hsums 1
    have hzx : 4 * (q.imK * q.imI) = r 2 0 + r 0 2 := hsums 2
    refine Matrix.ext fun i j => ?_
    match i, j with
    | 0, 0 =>
      show r 0 0 = q.re ^ 2 + q.imI ^ 2 - q.imJ ^ 2 - q.imK ^ 2
      linarith
    | 0, 1 =>
      show r 0 1 = 2 * (q.imI * q.imJ - q.re * q.imK)
      linarith
    | 0, 2 =>
      show r 0 2 = 2 * (q.imI * q.imK + q.re * q.imJ)
      linarith
    | 1, 0 =>
      show r 1 0 = 2 * (q.imI * q.imJ + q.re * q.imK)
      linarith
    | 1, 1 =>
      show r 1 1 = q.re ^ 2 - q.imI ^ 2 + q.imJ ^ 2 - q.imK ^ 2
      linarith
    | 1, 2 =>
      show r 1 2 = 2 * (q.imJ * q.imK - q.re * q.imI)
      linarith
    | 2, 0 =>
      show r 2 0 = 2 * (q.imI * q.imK - q.re * q.imJ)
      linarith
    | 2, 1 =>
      show r 2 1 = 2 * (q.imJ * q.imK + q.re * q.imI)
      linarith
    | 2, 2 =>
      show r 2 2 = q.re ^ 2 - q.imI ^ 2 - q.imJ ^ 2 + q.imK ^ 2
      linarith

/-- Where the real part does not vanish its products determine the others. -/
theorem represents_of_real_ne_zero (hr : IsRotation r) (hreal : realSquare r ≠ 0) :
    Represents q r := by
  rw [h.represents_iff]
  intro i
  refine mul_left_cancel₀ hreal ?_
  calc realSquare r * (4 * (axisPart q i * axisPart q (i + 1)))
      = 4 * q.re * axisPart q i * (4 * q.re * axisPart q (i + 1)) := by
        rw [← h.real]
        ring
    _ = difference r i * difference r (i + 1) := by rw [h.product, h.product]
    _ = realSquare r * (r i (i + 1) + r (i + 1) i) := hr.difference_mul_next i

/-- For a half turn, the quaternion whose parts are not negative stands for the matrix exactly if
no entry beside the diagonal is negative. -/
theorem represents_iff_of_halfTurn (hr : IsRotation r) (hreal : realSquare r = 0)
    (hpart : ∀ i, 0 ≤ axisPart q i) : Represents q r ↔ ∀ i, 0 ≤ r i (i + 1) := by
  have hsymm : ∀ i, r (i + 1) i = r i (i + 1) := by
    intro i
    have hmul := hr.realSquare_mul_axisSquare (i + 2)
    rw [hreal, zero_mul] at hmul
    have hdifference := pow_eq_zero_iff (two_ne_zero) |>.mp hmul.symm
    unfold difference at hdifference
    rw [last_last, last_next] at hdifference
    linarith
  rw [h.represents_iff]
  refine forall_congr' fun i => ?_
  have hproduct := mul_nonneg (hpart i) (hpart (i + 1))
  have hsquare : (4 * (axisPart q i * axisPart q (i + 1))) ^ 2 = (2 * r i (i + 1)) ^ 2 := by
    calc (4 * (axisPart q i * axisPart q (i + 1))) ^ 2
        = 4 * axisPart q i ^ 2 * (4 * axisPart q (i + 1) ^ 2) := by ring
      _ = axisSquare r i * axisSquare r (i + 1) := by rw [h.axis, h.axis]
      _ = (r i (i + 1) + r (i + 1) i) ^ 2 := hr.axisSquare_mul_next i
      _ = (2 * r i (i + 1)) ^ 2 := by
        rw [hsymm]
        ring
  rw [hsymm, ← two_mul]
  constructor
  · intro heq
    linarith
  · intro hentry
    exact (sq_eq_sq₀ (by linarith) (by linarith)).mp hsquare

end HasProducts

end

end Lib
