import Mathlib.Data.Rat.Sqrt
import Rebocap.Lib.Scalar

/-!
# The rationals as a floating-point type

Exact arithmetic that can be evaluated, for runs on concrete numbers. Square roots are exact where
they are rational, cosine and sine at 0.
-/

namespace Lib

instance : FloatOrder ℚ where
  zero := 0
  one := 1
  decidableLE := inferInstance
  decidableLT := inferInstance
  fmin := min
  fmax := max
  literal m e := m / 10 ^ e

instance : Arith ℚ where
  sqrt := Rat.sqrt
  cos _ := 1
  sin x := x
  hypot x y := Rat.sqrt (x * x + y * y)
  copysign x y := if y < 0 then -|x| else |x|

instance : FloatConv ℚ ℚ where
  widen := id
  narrow := id

/-- The number with a sign, an exponent and a fraction. -/
def unpackRatio (exponentBits fractionBits bits : Nat) : ℚ :=
  let fraction := bits % 2 ^ fractionBits
  let exponent := bits / 2 ^ fractionBits % 2 ^ exponentBits
  let magnitude : ℚ :=
    if exponent = 0 then (fraction : ℚ) * 2 / 2 ^ (2 ^ (exponentBits - 1) - 1 + fractionBits)
    else (fraction + 2 ^ fractionBits : ℚ) * 2 ^ exponent
      / 2 ^ (2 ^ (exponentBits - 1) - 1 + fractionBits)
  if bits / 2 ^ (exponentBits + fractionBits) % 2 = 1 then -magnitude else magnitude

/-- The bits of a rational in the range of normal numbers. -/
def packRat (exponentBits fractionBits : Nat) (q : ℚ) : Nat :=
  (if q < 0 then 2 ^ (exponentBits + fractionBits) else 0)
    + packRatio exponentBits fractionBits q.num.natAbs q.den

instance : FloatBits ℚ 32 where
  toBits q := BitVec.ofNat 32 (packRat 8 23 q)
  ofBits b := unpackRatio 8 23 b.toNat

instance : FloatBits ℚ 64 where
  toBits q := BitVec.ofNat 64 (packRat 11 52 q)
  ofBits b := unpackRatio 11 52 b.toNat

example : unpackRatio 8 23 0x3F000000 = 1 / 2 := by decide +kernel

end Lib
