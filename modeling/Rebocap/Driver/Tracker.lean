import Rebocap.Hooks.Pose

/-!
# Trackers

`Tracker`, the device for one body part. A call says what it does to SteamVR, in order. All its
reads of the clock are one.

* `react_position` — what a position makes of a tracker, and the pose that is submitted
-/

namespace Rebocap.Driver

open Lib FloatOrder Arith FloatConv FloatBits Proto PoseHooks

variable {F D : Type}

/-! ## Data -/

/-- `vr::TrackingResult_Running_OK` and its neighbour. -/
def runningOk : Int := 200
def runningOutOfRange : Int := 201

structure Tracker (D : Type) where
  role : Int32
  /-- `index_`, the device of SteamVR. -/
  index : UInt32
  status : Int32
  timedOut : Bool
  pose : DriverPose D
  lastMessage : Int
  lastBattery : Int

/-- What a call does to SteamVR. -/
inductive Output (D : Type) where
  /-- `Prop_DeviceBatteryPercentage_Float` of a device. -/
  | battery (index : UInt32) (level : BitVec 32)
  | poseUpdated (index : UInt32) (pose : DriverPose D)

namespace Tracker

/-- The constructor. -/
def init [Zero D] [One D] (role : Int32) (now : Int) : Tracker D where
  role := role
  index := indexInvalid
  status := Status.ok.toInt32
  timedOut := false
  pose := {
    poseTimeOffset := 0
    worldFromDriver := identityWorld
    driverFromHead := identityWorld
    position := zeroVec
    velocity := zeroVec
    acceleration := zeroVec
    rotation := identityQuat
    angularVelocity := zeroVec
    angularAcceleration := zeroVec
    result := runningOk
    poseIsValid := true
    willDriftInYaw := false
    shouldApplyHeadModel := false
    deviceIsConnected := true }
  lastMessage := now
  lastBattery := 0

def Activated (t : Tracker D) : Prop := t.index ≠ indexInvalid

instance (t : Tracker D) : Decidable t.Activated := inferInstanceAs (Decidable (_ ≠ _))

/-! ## Calls -/

/-- `Activate`. The properties that it sets are constants. -/
def activate (index : UInt32) (now : Int) (t : Tracker D) : Tracker D :=
  { t with index := index, lastMessage := now }

def deactivate (t : Tracker D) : Tracker D := { t with index := indexInvalid }

def applyStatus (t : Tracker D) : Tracker D :=
  { t with
    pose := { t.pose with
      deviceIsConnected := decide (t.status ≠ Status.disconnected.toInt32)
      poseIsValid := decide (t.status = Status.ok.toInt32)
      result := if t.status = Status.ok.toInt32 then runningOk else runningOutOfRange } }

def submit (now : Int) (t : Tracker D) : Tracker D × List (Output D) :=
  ({ t with lastMessage := now }, [.poseUpdated t.index t.pose])

/-- The status that counts: a timeout ends with the next position, as OK. -/
def recovered (t : Tracker D) : Int32 := if t.timedOut then Status.ok.toInt32 else t.status

/-- The pose that a position brings. -/
def received (F : Type) [FloatBits F 32] [FloatConv F D] [FloatBits D 64] [FloatOrder D] [Arith D]
    (m : Msg) (u : Option (Universe D)) (pose : DriverPose D) : DriverPose D :=
  let pose := match positionOf F m with
    | some p => { pose with position := p }
    | none => pose
  let pose := match rotationOf m with
    | some q => { pose with rotation := q }
    | none => pose
  -- convert poses to raw tracking space
  match u with
  | some u => { pose with worldFromDriver := worldFromDriver u }
  | none => pose

def onPosition (F : Type) [FloatBits F 32] [FloatConv F D] [FloatBits D 64] [FloatOrder D]
    [Arith D] (m : Msg) (u : Option (Universe D)) (now : Int) (t : Tracker D) :
    Tracker D × List (Output D) :=
  if ¬t.Activated then (t, [])
  else
    let t := { t with pose := received F m u t.pose, status := t.recovered, timedOut := false }
    t.applyStatus.submit now

def onStatus (m : Msg) (now : Int) (t : Tracker D) : Tracker D × List (Output D) :=
  if ¬t.Activated then (t, [])
  else
    let t := { t with status := m.status, timedOut := false }
    let (t, battery) := if t.status = Status.ok.toInt32 ∧ now - t.lastBattery > seconds 1 then
        ({ t with lastBattery := now }, [.battery t.index m.battery])
      else (t, [])
    let (t, pose) := t.applyStatus.submit now
    (t, battery ++ pose)

/-- After 3 s without messages the tracker is marked as disconnected. -/
def checkTimeout (now : Int) (t : Tracker D) : Tracker D × List (Output D) :=
  if ¬t.Activated ∨ now - t.lastMessage < seconds 3 then (t, [])
  else
    let t := { t with status := Status.disconnected.toInt32, timedOut := true }
    t.applyStatus.submit now

/-- Forward (-Z) axis projected onto the floor. None if the tracker is not tracking or the axis is
almost vertical. -/
def floorForward [FloatOrder D] [Arith D] (now : Int) (t : Tracker D) : Option (D × D) :=
  if ¬t.Activated ∨ t.status ≠ Status.ok.toInt32 ∨ now - t.lastMessage > milliseconds 500 then none
  else
    let q := t.pose.rotation
    let x := -literal 2 0 * (q.x * q.z + q.w * q.y)
    let z := -(1 - literal 2 0 * (q.x * q.x + q.y * q.y))
    let len := hypot x z
    if len < literal 3 1 then none else some (x / len, z / len)

/-! ## Events -/

/-- What happens to a tracker. -/
inductive Event (D : Type) where
  | wait (elapsed : Nat)
  | activate (index : UInt32)
  | deactivate
  | status (m : Msg)
  | position (m : Msg) (u : Option (Universe D))
  | checkTimeout

section React

variable (F) [FloatBits F 32] [FloatConv F D] [FloatBits D 64] [FloatOrder D] [Arith D]

def react (now : Int) (e : Event D) (t : Tracker D) : Tracker D × List (Output D) :=
  match e with
  | .wait _ => (t, [])
  | .activate index => (t.activate index now, [])
  | .deactivate => (t.deactivate, [])
  | .status m => t.onStatus m now
  | .position m u => t.onPosition F m u now
  | .checkTimeout => t.checkTimeout now

/-- **What a position does to an activated tracker.** -/
theorem react_position {now : Int} {t : Tracker D} (m : Msg) (u : Option (Universe D))
    (h : t.Activated) :
    let t' := { t with pose := received F m u t.pose, status := t.recovered, timedOut := false }
    react F now (.position m u) t =
      ({ t'.applyStatus with lastMessage := now }, [.poseUpdated t.index t'.applyStatus.pose]) :=
  if_neg (not_not.mpr h)

omit [FloatBits F 32] [FloatConv F D] [FloatBits D 64] [FloatOrder D] [Arith D] in
/-- What is left of a status. -/
theorem onStatus_status (now : Int) {t : Tracker D} (m : Msg) (h : t.Activated) :
    (t.onStatus m now).1.status = m.status ∧ (t.onStatus m now).1.timedOut = false := by
  unfold onStatus
  rw [if_neg (not_not.mpr h)]
  dsimp only
  split <;> exact ⟨rfl, rfl⟩

end React

end Tracker

end Rebocap.Driver
