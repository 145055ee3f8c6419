import Rebocap.Lib.Scalar

/-!
# Coordinates

The conversions between raw tracking space and the standing universe: of the headset pose that is
sent to the app, and of the poses that come back. They are generic in the floating-point types.
-/

namespace Rebocap.Driver

open Lib FloatOrder Arith FloatConv

variable {F D : Type}

/-- A matrix has three rows and four columns. -/
scoped instance neZero_three : NeZero 3 := ⟨by decide⟩

scoped instance neZero_four : NeZero 4 := ⟨by decide⟩

/-! ## Data -/

/-- Origin of the standing universe in raw tracking space, from the chaperone data. -/
structure Universe (D : Type) where
  id : UInt64
  x : D
  y : D
  z : D
  yaw : D
deriving DecidableEq

/-- `Universe{}` with an id: the fallback. -/
def Universe.zero [Zero D] (id : UInt64) : Universe D := ⟨id, 0, 0, 0, 0⟩

structure Vec3 (D : Type) where
  x : D
  y : D
  z : D
deriving DecidableEq

structure Quat (D : Type) where
  w : D
  x : D
  y : D
  z : D
deriving DecidableEq

/-- `mDeviceToAbsoluteTracking`. -/
abbrev Matrix34 (F : Type) := Fin 3 → Fin 4 → F

/-! ## Headset pose -/

/-- The orientation that `SendHmdPose` reads off the headset's matrix. -/
def headQuaternion [FloatOrder F] [Arith F] [FloatOrder D] [Arith D] [FloatConv F D]
    (m : Matrix34 F) : Quat D where
  w := sqrt (fmax 0 (widen (1 + m 0 0 + m 1 1 + m 2 2))) / literal 2 0
  x := copysign (sqrt (fmax 0 (widen (1 + m 0 0 - m 1 1 - m 2 2))) / literal 2 0)
    (widen (m 2 1 - m 1 2))
  y := copysign (sqrt (fmax 0 (widen (1 - m 0 0 + m 1 1 - m 2 2))) / literal 2 0)
    (widen (m 0 2 - m 2 0))
  z := copysign (sqrt (fmax 0 (widen (1 - m 0 0 - m 1 1 + m 2 2))) / literal 2 0)
    (widen (m 1 0 - m 0 1))

def headPosition [FloatConv F D] (m : Matrix34 F) : Vec3 D where
  x := widen (m 0 3)
  y := widen (m 1 3)
  z := widen (m 2 3)

/-- Raw tracking space to the standing universe, in `SendHmdPose`: translate, then rotate by
`-yaw` about Y. -/
def toStanding [FloatOrder D] [Arith D] (u : Universe D) (p : Vec3 D) (q : Quat D) :
    Vec3 D × Quat D :=
  let px := p.x + u.x
  let py := p.y + u.y
  let pz := p.z + u.z
  let a := -u.yaw
  let c := cos a
  let s := sin a
  let rw := cos (a / literal 2 0)
  let ry := sin (a / literal 2 0)
  (⟨px * c + pz * s, py, -px * s + pz * c⟩,
    ⟨rw * q.w - ry * q.y, rw * q.x + ry * q.z, rw * q.y + ry * q.w, rw * q.z - ry * q.x⟩)

/-! ## Poses from the app -/

/-- `vecWorldFromDriverTranslation` and `qWorldFromDriverRotation`. -/
structure WorldFromDriver (D : Type) where
  translation : Vec3 D
  rotation : Quat D
deriving DecidableEq

/-- What `Tracker::OnPosition` and `OnHandPose` install for a universe. -/
def worldFromDriver [FloatOrder D] [Arith D] (u : Universe D) : WorldFromDriver D where
  translation := ⟨-u.x, -u.y, -u.z⟩
  rotation := ⟨cos (u.yaw / literal 2 0), 0, sin (u.yaw / literal 2 0), 0⟩

end Rebocap.Driver
