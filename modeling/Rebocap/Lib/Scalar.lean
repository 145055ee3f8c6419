import Mathlib.Data.Rat.Init
import Mathlib.Data.BitVec

/-!
# Floating-point types

What a program asks of `float` and `double`, in two classes: comparisons with literals, and
arithmetic. Code is generic in the type, so it can be read over the reals as well.

`Binary32` is `float` by its bit patterns. Its comparisons are computed; its arithmetic is left
to an instance of `Arith`, so what is proved without one holds for every rounding.

* `Binary32.clamp_le_one` — `fmin(fmax(x, 0), 1)` is at most 1, also where `x` is NaN
-/

namespace Lib

/-! ## What a program asks for -/

/-- The comparisons of a floating-point type, and its decimal literals. -/
class FloatOrder (R : Type) extends Zero R, One R, LE R, LT R, BEq R where
  [decidableLE : DecidableLE R]
  [decidableLT : DecidableLT R]
  fmin : R → R → R
  fmax : R → R → R
  /-- The literal `m · 10⁻ᵉ`. -/
  literal (m e : Nat) : R

attribute [reducible, instance] FloatOrder.decidableLE FloatOrder.decidableLT

/-- The arithmetic of a floating-point type. -/
class Arith (R : Type) extends Add R, Sub R, Neg R, Mul R, Div R where
  sqrt : R → R
  cos : R → R
  sin : R → R
  hypot : R → R → R
  copysign : R → R → R

/-- The conversions between `float` and `double`. -/
class FloatConv (F D : Type) where
  widen : F → D
  narrow : D → F

/-- A floating-point type of `n` bits. -/
class FloatBits (R : Type) (n : Nat) where
  toBits : R → BitVec n
  ofBits : BitVec n → R

/-! ## Rounding -/

/-- `n / d` rounded to the nearest integer, halves to even. -/
def roundDiv (n d : Nat) : Nat :=
  let q := n / d
  let r := n % d
  if 2 * r < d ∨ 2 * r = d ∧ q % 2 = 0 then q else q + 1

/-- Exponent and fraction of `m / d` rounded to the nearest number of the format, for values in
the range of its normal numbers. -/
def packRatio (exponentBits fractionBits m d : Nat) : Nat :=
  if m = 0 then 0
  else
    let bias := 2 ^ (exponentBits - 1) - 1
    let shift := bias + fractionBits
    -- `m / d` lies between `2 ^ (e - shift)` and its double
    let e := Nat.log2 (m * 2 ^ shift / d)
    let fraction := roundDiv (m * 2 ^ (shift + fractionBits)) (d * 2 ^ e)
    (e + bias - shift) * 2 ^ fractionBits + (fraction - 2 ^ fractionBits)

/-! ## `float` by its bits -/

/-- A binary floating-point number of 32 bits. -/
structure Binary32 where
  bits : BitVec 32
deriving DecidableEq, Repr

namespace Binary32

/-- Exponent and fraction as one number. It orders the absolute values. -/
def magnitude (x : Binary32) : Nat := x.bits.toNat % 2 ^ 31

def isNaN (x : Binary32) : Bool := decide (0x7F800000 < x.magnitude)

/-- Orders the numbers. The two zeros have the same key. -/
def key (x : Binary32) : Int := if x.bits.msb then -x.magnitude else x.magnitude

/-- For two zeros of different sign it returns the first; C leaves open which. -/
def fmin (x y : Binary32) : Binary32 :=
  if x.isNaN then y else if y.isNaN then x else if y.key < x.key then y else x

/-- For two zeros of different sign it returns the first, too. C leaves open which, and glibc
returns +0. -/
def fmax (x y : Binary32) : Binary32 :=
  if x.isNaN then y else if y.isNaN then x else if x.key < y.key then y else x

instance : FloatOrder Binary32 where
  zero := ⟨0⟩
  one := ⟨0x3F800000⟩
  le x y := x.isNaN = false ∧ y.isNaN = false ∧ x.key ≤ y.key
  lt x y := x.isNaN = false ∧ y.isNaN = false ∧ x.key < y.key
  beq x y := !x.isNaN && !y.isNaN && x.key == y.key
  decidableLE _ _ := inferInstanceAs (Decidable (_ ∧ _ ∧ _))
  decidableLT _ _ := inferInstanceAs (Decidable (_ ∧ _ ∧ _))
  fmin := fmin
  fmax := fmax
  literal m e := ⟨BitVec.ofNat 32 (packRatio 8 23 m (10 ^ e))⟩

theorem le_def {x y : Binary32} : x ≤ y ↔ x.isNaN = false ∧ y.isNaN = false ∧ x.key ≤ y.key :=
  Iff.rfl

theorem beq_def {x y : Binary32} :
    (x == y) = true ↔ x.isNaN = false ∧ y.isNaN = false ∧ x.key = y.key := by
  show (!x.isNaN && !y.isNaN && x.key == y.key) = true ↔ _
  simp [and_assoc]

instance : FloatBits Binary32 32 where
  toBits := bits
  ofBits := mk

theorem beq_symm {x y : Binary32} (h : (x == y) = true) : (y == x) = true := by
  obtain ⟨hx, hy, hk⟩ := beq_def.mp h
  exact beq_def.mpr ⟨hy, hx, hk.symm⟩

theorem beq_trans {x y z : Binary32} (hxy : (x == y) = true) (hyz : (y == z) = true) :
    (x == z) = true := by
  obtain ⟨hx, -, hk⟩ := beq_def.mp hxy
  obtain ⟨-, hz, hk'⟩ := beq_def.mp hyz
  exact beq_def.mpr ⟨hx, hz, hk.trans hk'⟩

/-- Numbers that compare equal are the same, or zeros. -/
theorem eq_or_zero_of_beq {x y : Binary32} (h : (x == y) = true) :
    y = x ∨ x.magnitude = 0 ∧ y.magnitude = 0 := by
  obtain ⟨-, -, hk⟩ := beq_def.mp h
  have hx := x.bits.isLt
  have hy := y.bits.isLt
  have heq : y.bits.toNat = x.bits.toNat → y = x :=
    fun hbits => congrArg Binary32.mk (BitVec.eq_of_toNat_eq hbits)
  unfold key magnitude at hk
  unfold magnitude
  rw [BitVec.msb_eq_decide, BitVec.msb_eq_decide] at hk
  by_cases hxs : 2 ^ (32 - 1) ≤ x.bits.toNat <;> by_cases hys : 2 ^ (32 - 1) ≤ y.bits.toNat <;>
    simp only [hxs, hys, decide_true, decide_false, Bool.false_eq_true, if_true, if_false] at hk
  · exact .inl (heq (by omega))
  · exact .inr (by omega)
  · exact .inr (by omega)
  · exact .inl (heq (by omega))

@[simp] theorem isNaN_zero : (0 : Binary32).isNaN = false := by decide

@[simp] theorem isNaN_one : (1 : Binary32).isNaN = false := by decide

@[simp] theorem zero_beq_zero : ((0 : Binary32) == 0) = true :=
  beq_def.mpr ⟨isNaN_zero, isNaN_zero, rfl⟩

theorem zero_le_zero : (0 : Binary32) ≤ 0 :=
  le_def.mpr ⟨isNaN_zero, isNaN_zero, Int.le_refl _⟩

example : (FloatOrder.literal 3 2 : Binary32) = ⟨0x3CF5C28F⟩ := by decide +kernel

/-- **Clamping to the range from 0 to 1 gives a number of that range**, also for NaN. -/
theorem clamp_le_one (x : Binary32) : fmin (fmax x 0) 1 ≤ 1 := by
  have hmax : (fmax x 0).isNaN = false := by
    unfold fmax
    split
    next => exact isNaN_zero
    next hx =>
      rw [if_neg (by simp)]
      split
      · exact isNaN_zero
      · simpa using hx
  unfold fmin
  rw [if_neg (by simp [hmax]), if_neg (by simp), le_def]
  split
  next => exact ⟨isNaN_one, isNaN_one, Int.le_refl _⟩
  next h => exact ⟨hmax, isNaN_one, Int.not_lt.mp h⟩

end Binary32

end Lib
