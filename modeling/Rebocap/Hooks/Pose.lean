import Rebocap.Driver.Frame
import Rebocap.Hooks.Input

/-!
# Pose hook

The hook in `TrackedDevicePoseUpdated`, which replaces the pose of a hand controller while the app
sends one, and what the provider keeps for it.

* `replacing_eq_some` — when the pose of a call is replaced
-/

namespace Rebocap.PoseHooks

open Lib FloatOrder Arith FloatConv FloatBits Proto Driver Hooks

variable {F D : Type}

/-! ## Data -/

/-- `DriverPose_t`. -/
structure DriverPose (D : Type) where
  poseTimeOffset : D
  worldFromDriver : WorldFromDriver D
  driverFromHead : WorldFromDriver D
  position : Vec3 D
  velocity : Vec3 D
  acceleration : Vec3 D
  rotation : Quat D
  angularVelocity : Vec3 D
  angularAcceleration : Vec3 D
  result : Int
  poseIsValid : Bool
  willDriftInYaw : Bool
  shouldApplyHeadModel : Bool
  deviceIsConnected : Bool
deriving DecidableEq

/-- A call of `TrackedDevicePoseUpdated`. -/
structure Call (D : Type) where
  host : UInt64
  index : UInt32
  pose : DriverPose D
  size : UInt32
deriving DecidableEq

/-- `k_unTrackedDeviceIndexInvalid`. -/
def indexInvalid : UInt32 := 0xFFFFFFFF

def zeroVec [Zero D] : Vec3 D := ⟨0, 0, 0⟩

def identityQuat [Zero D] [One D] : Quat D := ⟨1, 0, 0, 0⟩

def identityWorld [Zero D] [One D] : WorldFromDriver D := ⟨zeroVec, identityQuat⟩

structure Hand (D : Type) where
  deviceIndex : UInt32
  havePosition : Bool
  haveRotation : Bool
  position : Vec3 D
  rotation : Quat D
  /-- `world_translation` and `world_rotation`. -/
  world : WorldFromDriver D
  updated : Int

def Hand.init [Zero D] [One D] : Hand D where
  deviceIndex := indexInvalid
  havePosition := false
  haveRotation := false
  position := zeroVec
  rotation := identityQuat
  world := identityWorld
  updated := 0

structure State (D : Type) where
  installed : Bool
  /-- `replace_hand_pose`. -/
  enabled : Bool
  /-- 0 = left, 1 = right. -/
  hands : Fin 2 → Hand D
  /-- `sizeof(vr::DriverPose_t)`. -/
  poseSize : UInt32

def State.init [Zero D] [One D] (installed : Bool) (poseSize : UInt32) : State D where
  installed := installed
  enabled := false
  hands := fun _ => Hand.init
  poseSize := poseSize

/-! ## The hook -/

/-- The hand whose pose replaces the call's. -/
def replacing (now : Int) (c : Call D) (s : State D) : Option (Fin 2) :=
  if s.enabled ∧ c.size = s.poseSize then
    match [0, 1].find? fun i => c.index = (s.hands i).deviceIndex with
    | none => none
    | some i =>
      -- the app stopped sending, pass the real pose through
      if now - (s.hands i).updated > milliseconds 500 then none else some i
  else none

def replaced [Zero D] (h : Hand D) (pose : DriverPose D) : DriverPose D :=
  let pose := if h.havePosition then { pose with position := h.position } else pose
  let pose := if h.haveRotation then { pose with rotation := h.rotation } else pose
  -- the app's coordinates are in the standing frame, the same as for trackers
  let pose := { pose with worldFromDriver := h.world }
  -- the real controller's velocities do not apply to the replaced pose
  { pose with
    velocity := zeroVec
    acceleration := zeroVec
    angularVelocity := zeroVec
    angularAcceleration := zeroVec }

/-- The call that reaches the original function. -/
def hookPoseUpdated [Zero D] (now : Int) (c : Call D) (s : State D) : Call D :=
  match replacing now c s with
  | none => c
  | some i => { c with pose := replaced (s.hands i) c.pose }

theorem replacing_eq_some {now : Int} {c : Call D} {s : State D} {i : Fin 2}
    (h : replacing now c s = some i) :
    s.enabled = true ∧ c.size = s.poseSize ∧ c.index = (s.hands i).deviceIndex ∧
      now - (s.hands i).updated ≤ milliseconds 500 := by
  unfold replacing at h
  split at h
  next hs =>
    split at h
    · cases h
    next j hj =>
      split at h
      · cases h
      next ht =>
        cases h
        have hindex := List.find?_some hj
        exact ⟨hs.1, hs.2, of_decide_eq_true hindex, Int.not_lt.mp ht⟩
  next => cases h

theorem hookPoseUpdated_of_none [Zero D] {now : Int} {c : Call D} {s : State D}
    (h : replacing now c s = none) : hookPoseUpdated now c s = c := by
  unfold hookPoseUpdated
  rw [h]

theorem hookPoseUpdated_of_some [Zero D] {now : Int} {c : Call D} {s : State D} {i : Fin 2}
    (h : replacing now c s = some i) :
    hookPoseUpdated now c s = { c with pose := replaced (s.hands i) c.pose } := by
  unfold hookPoseUpdated
  rw [h]

/-! ## What the provider keeps for it -/

/-- The hand of a tracker id. -/
def handOfId (id : Int32) : Option (Fin 2) :=
  if id = 16 then some 0 else if id = 17 then some 1 else none

/-- `pos`, where a message has three elements of it. -/
def positionOf (F : Type) [FloatBits F 32] [FloatConv F D] (m : Msg) : Option (Vec3 D) :=
  match m.pos with
  | [x, y, z] => some ⟨widen (ofBits x : F), widen (ofBits y : F), widen (ofBits z : F)⟩
  | _ => none

/-- `q`, where a message has four elements of it. -/
def rotationOf [FloatBits D 64] (m : Msg) : Option (Quat D) :=
  match m.q with
  | [w, x, y, z] => some ⟨ofBits w, ofBits x, ofBits y, ofBits z⟩
  | _ => none

/-- `OnHandPose` for the message's hand. -/
def onHandPose (F : Type) [FloatBits F 32] [FloatConv F D] [FloatBits D 64] [FloatOrder D]
    [Arith D] (m : Msg) (u : Option (Universe D)) (now : Int) (h : Hand D) : Hand D :=
  let h := match positionOf F m with
    | some p => { h with position := p, havePosition := true }
    | none => h
  let h := match rotationOf m with
    | some q => { h with rotation := q, haveRotation := true }
    | none => h
  let h := match u with
    | some u => { h with world := worldFromDriver u }
    | none => h
  { h with updated := now }

/-- The position of a hand, where it has one. -/
def Hand.position? (h : Hand D) : Option (Vec3 D) :=
  if h.havePosition then some h.position else none

def Hand.rotation? (h : Hand D) : Option (Quat D) :=
  if h.haveRotation then some h.rotation else none

theorem replaced_spec [Zero D] {h : Hand D} {p : Vec3 D} {q : Quat D} (pose : DriverPose D)
    (hp : h.position? = some p) (hq : h.rotation? = some q) :
    (replaced h pose).position = p ∧ (replaced h pose).rotation = q ∧
      (replaced h pose).worldFromDriver = h.world := by
  obtain ⟨havePosition, hp⟩ := Option.ite_none_right_eq_some.mp hp
  obtain ⟨haveRotation, hq⟩ := Option.ite_none_right_eq_some.mp hq
  cases hp
  cases hq
  simp [replaced, havePosition, haveRotation]

/-- A message that lacks a value leaves the last one. -/
theorem onHandPose_spec (F : Type) [FloatBits F 32] [FloatConv F D] [FloatBits D 64]
    [FloatOrder D] [Arith D] (m : Msg) (u : Option (Universe D)) (now : Int) (h : Hand D) :
    let h' := onHandPose F m u now h
    h'.position? = (positionOf F m).or h.position? ∧ h'.rotation? = (rotationOf m).or h.rotation? ∧
      h'.world = (u.map worldFromDriver).getD h.world ∧ h'.updated = now ∧
      h'.deviceIndex = h.deviceIndex := by
  unfold onHandPose
  cases (positionOf F m : Option (Vec3 D)) <;> cases (rotationOf m : Option (Quat D)) <;>
    cases u <;> exact ⟨rfl, rfl, rfl, rfl, rfl⟩

/-- The part of `OnWipSetting` for the hook. -/
def onSetting (m : Msg) (s : State D) : State D :=
  if s.installed then { s with enabled := m.replaceHandPose } else s

/-- The class and the role hint of a device, none where they cannot be read. -/
structure Device where
  deviceClass : Option Int
  role : Option Int

/-- `vr::TrackedDeviceClass_Controller`. -/
def controllerClass : Int := 2

/-- The loop of `FindHandControllers`. -/
def findLoop : List Device → UInt32 → (Fin 2 → UInt32) → Fin 2 → UInt32
  | [], _, found => found
  | d :: ds, i, found =>
    if d.deviceClass ≠ some controllerClass then findLoop ds (i + 1) found
    else
      match d.role with
      | none => findLoop ds (i + 1) found
      | some role =>
        match handOfRole role with
        | none => findLoop ds (i + 1) found
        | some hand =>
          findLoop ds (i + 1)
            (if found hand = indexInvalid then Function.update found hand i else found)

def findHandControllers (devices : List Device) (s : State D) : State D :=
  let found := findLoop devices 0 fun _ => indexInvalid
  { s with hands := fun i => { s.hands i with deviceIndex := found i } }

end Rebocap.PoseHooks
