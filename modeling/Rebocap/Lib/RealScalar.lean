import Mathlib.Analysis.SpecialFunctions.Trigonometric.Basic
import Rebocap.Lib.Scalar

/-!
# The reals as a floating-point type

Code that is generic in its floating-point type, read over exact real arithmetic. `copysign` takes
the sign of 0 for positive.
-/

namespace Lib

noncomputable section

open Classical in
instance : FloatOrder ℝ where
  beq x y := decide (x = y)
  fmin := min
  fmax := max
  literal m e := m / 10 ^ e

instance : Arith ℝ where
  sqrt := Real.sqrt
  cos := Real.cos
  sin := Real.sin
  hypot x y := Real.sqrt (x ^ 2 + y ^ 2)
  copysign x y := if y < 0 then -|x| else |x|

instance : FloatConv ℝ ℝ where
  widen := id
  narrow := id

@[simp] theorem literal_two : (FloatOrder.literal 2 0 : ℝ) = 2 := by
  show ((2 : ℕ) : ℝ) / 10 ^ 0 = 2
  norm_num

@[simp] theorem arith_cos (x : ℝ) : Arith.cos x = Real.cos x := rfl

@[simp] theorem arith_sin (x : ℝ) : Arith.sin x = Real.sin x := rfl

end

end Lib
