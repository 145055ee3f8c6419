import Rebocap.Driver.CoordinatesInverse
import Rebocap.Driver.Tracker
import Rebocap.Lib.Floor

/-!
# The walking direction

`WaistStickDirection` compares the waist tracker, which is in the standing universe, with a
reference in raw tracking space, which it takes to the standing universe first. `Drive` scales what
it finds.

* `floorForward_eq_some_iff` — which tracker is accepted, and what it faces
* `waistStickDirection_spec` — the game moves the player to where the waist tracker faces
-/

namespace Rebocap.Driver

open Lib FloatOrder Arith FloatConv FloatBits Proto PoseHooks Hooks

variable {F D : Type}

/-! ## `WaistStickDirection` -/

/-- What `WaistStickDirection` reads. -/
structure WaistIo (F D : Type) where
  now : Int
  /-- By their ids. -/
  trackers : List (Tracker D)
  /-- `wip_reference_controller_`. -/
  referenceController : Bool
  /-- The container of the stick of `wip_hand_`. -/
  stickContainer : Container
  /-- `TrackedDeviceToPropertyContainer`, for every device. -/
  containers : List Container
  /-- `GetRawTrackedDevicePoses`. -/
  poses : Nat → HmdPose F
  universe_ : Option (Universe D)

namespace WaistIo

/-- The device to which the game moves relatively. The headset is the first one. -/
def referenceIndex (io : WaistIo F D) : Option Nat :=
  if io.referenceController then io.containers.findIdx? fun c => c = io.stickContainer
  else some 0

section Direction

variable [FloatOrder D] [Arith D]

/-- The loop over the trackers. -/
def waistLoop (now : Int) : List (Tracker D) → Option (D × D)
  | [] => none
  | t :: ts =>
    if t.role = 0 then
      match t.floorForward now with
      | some d => some d
      | none => waistLoop now ts
    else waistLoop now ts

/-- The waist tracker that `FloorForward` accepts. -/
def waistTracker (io : WaistIo F D) : Option (Tracker D) :=
  io.trackers.find? fun t => t.role = 0 ∧ (t.floorForward io.now).isSome

/-- The device's -Z axis, in raw tracking space without a universe and in the standing frame with
one. -/
def referenceAxis [FloatConv F D] [Neg F] (u : Option (Universe D)) (m : Matrix34 F) : D × D :=
  let rx : D := widen (-m 0 2)
  let rz : D := widen (-m 2 2)
  match u with
  | none => (rx, rz)
  | some u =>
    -- raw tracking space to the standing frame
    let a := -u.yaw
    let c := cos a
    let s := sin a
    (rx * c + rz * s, -rx * s + rz * c)

/-- `WaistStickDirection`. If an input is missing the direction stays. -/
def waistStickDirection [FloatConv F D] [Neg F] (io : WaistIo F D) (dir : F × F) : F × F :=
  match waistLoop io.now io.trackers with
  | none => dir
  | some (wx, wz) =>
    match io.referenceIndex with
    | none => dir
    | some index =>
      if ¬(io.poses index).poseIsValid then dir
      else
        let (rx, rz) := referenceAxis io.universe_ (io.poses index).matrix
        let len := hypot rx rz
        if len < literal 3 1 then dir -- pointing almost straight up or down
        else
          let rx := rx / len
          let rz := rz / len
          -- the reference right vector is (-rz, rx)
          (narrow (wx * -rz + wz * rx), narrow (wx * rx + wz * rz))

theorem waistLoop_of_find {now : Int} {t : Tracker D} : ∀ {trackers : List (Tracker D)},
    (trackers.find? fun t => t.role = 0 ∧ (t.floorForward now).isSome) = some t →
      waistLoop now trackers = t.floorForward now := by
  intro trackers
  induction trackers with
  | nil => exact nofun
  | cons t' ts ih =>
    intro h
    unfold waistLoop
    by_cases hrole : t'.role = 0
    · rw [if_pos hrole]
      cases hforward : t'.floorForward now with
      | none =>
        rw [List.find?_cons_of_neg (by simp [hforward])] at h
        exact ih h
      | some d =>
        rw [List.find?_cons_of_pos (by simp [hrole, hforward])] at h
        cases h
        exact hforward.symm
    · rw [if_neg hrole]
      rw [List.find?_cons_of_neg (by simp [hrole])] at h
      exact ih h

theorem waistTracker_accepts {io : WaistIo F D} {t : Tracker D} (h : io.waistTracker = some t) :
    ∃ d, t.floorForward io.now = some d := by
  have haccepted := List.find?_some h
  simp only [decide_eq_true_eq] at haccepted
  exact Option.isSome_iff_exists.mp haccepted.2

end Direction

end WaistIo

/-- What `OnPosition` installs for the driver's universe, or leaves if there is none yet. -/
def worldOf [FloatOrder D] [Arith D] (u : Option (Universe D)) : WorldFromDriver D :=
  (u.map worldFromDriver).getD identityWorld

theorem received_worldFromDriver [FloatBits F 32] [FloatConv F D] [FloatBits D 64] [FloatOrder D]
    [Arith D] (m : Msg) (u : Option (Universe D)) {pose : DriverPose D}
    (h : u = none → pose.worldFromDriver = identityWorld) :
    (Tracker.received F m u pose).worldFromDriver = worldOf u := by
  cases u with
  | some u => rfl
  | none =>
    refine Eq.trans ?_ (h rfl)
    unfold Tracker.received
    cases rotationOf (D := D) m <;> cases positionOf (D := D) F m <;> rfl

/-! ## Over the reals -/

noncomputable section

open Quaternion

theorem hypot_eq (x y : ℝ) : hypot x y = floorLength (x, y) := rfl

theorem literal_three_tenths : (literal 3 1 : ℝ) = 3 / 10 := by
  show ((3 : ℕ) : ℝ) / 10 ^ 1 = 3 / 10
  norm_num

theorem literal_fifteen_hundredths : (literal 15 2 : ℝ) = 15 / 100 := by
  show ((15 : ℕ) : ℝ) / 10 ^ 2 = 15 / 100
  norm_num

/-! ## What the tracker faces -/

/-- A tracker's -Z axis, in the standing universe. -/
def facing (t : Tracker ℝ) : ℍ[ℝ] := rotate t.pose.rotation.toQuaternion (vector 0 0 (-1))

theorem floorOf_facing {t : Tracker ℝ} (hq : normSq t.pose.rotation.toQuaternion = 1) :
    floorOf (facing t) =
      (-2 * (t.pose.rotation.x * t.pose.rotation.z + t.pose.rotation.w * t.pose.rotation.y),
        -(1 - 2 * (t.pose.rotation.x * t.pose.rotation.x +
          t.pose.rotation.y * t.pose.rotation.y))) := by
  have hone : t.pose.rotation.w ^ 2 + t.pose.rotation.x ^ 2 + t.pose.rotation.y ^ 2 +
      t.pose.rotation.z ^ 2 = 1 := (normSq_def' _).symm.trans hq
  refine Prod.ext ?_ ?_
  · simp [floorOf, facing, rotate]
    ring
  · -- only here it matters that the quaternion has norm 1
    simp [floorOf, facing, rotate]
    linear_combination -hone

/-- **`FloorForward` gives what the tracker faces**, if it is tracked and does not face almost
straight up or down. -/
theorem floorForward_eq_some_iff {t : Tracker ℝ} {now : Int} {d : ℝ × ℝ}
    (hq : normSq t.pose.rotation.toQuaternion = 1) :
    t.floorForward now = some d ↔
      (t.Activated ∧ t.status = Status.ok.toInt32 ∧ now - t.lastMessage ≤ milliseconds 500 ∧
        3 / 10 ≤ floorLength (floorOf (facing t))) ∧ normalised (floorOf (facing t)) = d := by
  unfold Tracker.floorForward
  rw [floorOf_facing hq]
  split
  next huntracked =>
    refine iff_of_false nofun fun ⟨⟨hactivated, hstatus, hrecent, _⟩, _⟩ => ?_
    rcases huntracked with hindex | hstatus' | hlate
    · exact hindex hactivated
    · exact hstatus' hstatus
    · exact not_lt.mpr hrecent hlate
  next htracked =>
    simp only [not_or, not_not, gt_iff_lt, not_lt, ne_eq] at htracked
    obtain ⟨hactivated, hstatus, hrecent⟩ := htracked
    dsimp only
    rw [literal_two, literal_three_tenths, hypot_eq]
    split
    next hshort =>
      exact iff_of_false nofun fun ⟨⟨_, _, _, hlong⟩, _⟩ => not_lt.mpr hlong hshort
    next hlong =>
      rw [Option.some_inj, and_iff_right ⟨hactivated, hstatus, hrecent, not_lt.mp hlong⟩]
      rfl

/-- A vector has no real part, also after a rotation. -/
theorem facing_eq_vector (t : Tracker ℝ) :
    facing t = vector (facing t).imI (facing t).imJ (facing t).imK := by
  have hre : (facing t).re = 0 := by
    simp [facing, rotate]
    ring
  exact QuaternionAlgebra.ext hre rfl rfl rfl

/-! ## What the reference faces -/

/-- The device's -Z axis on the floor, in raw tracking space. -/
def rawForward (m : Matrix34 ℝ) : Floor := (-m 0 2, -m 2 2)

/-- Without a universe the standing frame is not turned. -/
def yawOf (u : Option (Universe ℝ)) : ℝ := (u.map Universe.yaw).getD 0

theorem toQuaternion_worldOf (u : Option (Universe ℝ)) :
    (worldOf u).rotation.toQuaternion = aboutY (yawOf u) := by
  cases u with
  | none =>
    rw [yawOf, Option.map_none, Option.getD_none, aboutY_zero]
    rfl
  | some u => exact toQuaternion_worldFromDriver u

theorem referenceAxis_eq (u : Option (Universe ℝ)) (m : Matrix34 ℝ) :
    WaistIo.referenceAxis u m = turn (-yawOf u) (rawForward m) := by
  cases u with
  | none =>
    rw [yawOf, Option.map_none, Option.getD_none, neg_zero, turn_zero]
    rfl
  | some u => rfl

/-! ## The direction of the stick -/

/-- The waist direction in the standing frame, along the reference and along its right hand. -/
theorem waistStickDirection_eq (io : WaistIo ℝ ℝ) (dir : ℝ × ℝ) {t : Tracker ℝ} {index : Nat}
    (hwaist : io.waistTracker = some t) (hq : normSq t.pose.rotation.toQuaternion = 1)
    (hindex : io.referenceIndex = some index) (hvalid : (io.poses index).poseIsValid = true)
    (hlen : 3 / 10 ≤ floorLength (rawForward (io.poses index).matrix)) :
    io.waistStickDirection dir =
      (along (normalised (floorOf (facing t)))
          (rightOf (turn (-yawOf io.universe_) (normalised (rawForward (io.poses index).matrix)))),
        along (normalised (floorOf (facing t)))
          (turn (-yawOf io.universe_) (normalised (rawForward (io.poses index).matrix)))) := by
  obtain ⟨⟨wx, wz⟩, hforward⟩ := WaistIo.waistTracker_accepts hwaist
  obtain ⟨-, hw⟩ := (floorForward_eq_some_iff hq).mp hforward
  have hturn := turn_normalised (-yawOf io.universe_) (rawForward (io.poses index).matrix)
  have hfar : ¬floorLength (turn (-yawOf io.universe_) (rawForward (io.poses index).matrix)) <
      3 / 10 := by
    rw [floorLength_turn]
    exact not_lt.mpr hlen
  unfold WaistIo.waistStickDirection
  rw [WaistIo.waistLoop_of_find hwaist, hforward, hindex]
  dsimp only
  rw [if_neg (not_not.mpr hvalid), referenceAxis_eq, literal_three_tenths, hypot_eq, if_neg hfar,
    hturn, hw]
  rfl

/-- A vector of any speed along a direction of length 1. -/
theorem driveVector_eq (rx ry speed : ℝ) (d : Floor) :
    driveVector rx ry speed d.1 d.2 =
      speed • if 15 / 100 < floorLength (rx, ry) then normalised (rx, ry) else d := by
  unfold driveVector
  dsimp only
  rw [literal_fifteen_hundredths, hypot_eq]
  split
  · exact Prod.ext (mul_comm _ _) (mul_comm _ _)
  · exact Prod.ext (mul_comm _ _) (mul_comm _ _)

theorem floorLength_driveVector {rx ry speed : ℝ} {d : Floor} (hspeed : 0 < speed)
    (hd : floorLength d = 1) : floorLength (driveVector rx ry speed d.1 d.2) = speed := by
  rw [driveVector_eq, floorLength_smul hspeed.le]
  split
  next hlen =>
    have hpos : 0 < floorLength (rx, ry) := lt_trans (by norm_num) hlen
    rw [floorLength_normalised hpos.ne', mul_one]
  next => rw [hd, mul_one]

/-- **The game moves the player to where the waist tracker faces**: its direction in raw tracking
space is the reference's forward and right directions, mixed by the stick. `Drive` scales it by the
speed, or the real stick's direction. -/
theorem waistStickDirection_spec (io : WaistIo ℝ ℝ) (dir : ℝ × ℝ) {t : Tracker ℝ} {index : Nat}
    (hwaist : io.waistTracker = some t) (hq : normSq t.pose.rotation.toQuaternion = 1)
    (hindex : io.referenceIndex = some index) (hvalid : (io.poses index).poseIsValid = true)
    (hlen : 3 / 10 ≤ floorLength (rawForward (io.poses index).matrix)) :
    let d := io.waistStickDirection dir
    let forward := normalised (rawForward (io.poses index).matrix)
    floorLength d = 1 ∧
      d.2 • forward + d.1 • rightOf forward =
        normalised (floorOf (rotate (worldOf io.universe_).rotation.toQuaternion (facing t))) ∧
      ∀ speed rx ry, 0 < speed → speed ≤ 1 →
        floorLength (driveVector rx ry speed d.1 d.2) = speed ∧
          driveVector rx ry speed d.1 d.2 =
            speed • if 15 / 100 < floorLength (rx, ry) then normalised (rx, ry) else d := by
  intro d forward
  have hd := waistStickDirection_eq io dir hwaist hq hindex hvalid hlen
  obtain ⟨w, hforward⟩ := WaistIo.waistTracker_accepts hwaist
  obtain ⟨⟨-, -, -, hfacing⟩, -⟩ := (floorForward_eq_some_iff hq).mp hforward
  have hw : floorLength (normalised (floorOf (facing t))) = 1 :=
    floorLength_normalised (lt_of_lt_of_le (by norm_num) hfacing).ne'
  have hr : floorLength (turn (-yawOf io.universe_) forward) = 1 := by
    rw [floorLength_turn]
    exact floorLength_normalised (lt_of_lt_of_le (by norm_num) hlen).ne'
  have hone : floorLength d = 1 := by
    show floorLength (io.waistStickDirection dir) = 1
    rw [hd, floorLength_parts _ hr, hw]
  refine ⟨hone, ?_, fun speed rx ry hspeed _ =>
    ⟨floorLength_driveVector hspeed hone, driveVector_eq rx ry speed d⟩⟩
  -- the parts are taken in the standing frame, and turning them back gives the raw directions
  have hparts := congrArg (turn (yawOf io.universe_))
    (along_add_across (normalised (floorOf (facing t))) hr)
  rw [turn_add, turn_smul, turn_smul, turn_rightOf, turn_turn_neg,
    turn_normalised (yawOf io.universe_) (floorOf (facing t))] at hparts
  rw [toQuaternion_worldOf, facing_eq_vector, floorOf_rotate_aboutY, ← facing_eq_vector, ← hparts]
  show (io.waistStickDirection dir).2 • _ + (io.waistStickDirection dir).1 • _ = _
  rw [hd]

/-! ## A waist tracker and a headset that face forward -/

/-- Its first position has come. -/
def waist : Tracker ℝ := (Tracker.init 0 0).activate 1 0

/-- The play space is turned. -/
def walking : WaistIo ℝ ℝ where
  now := 0
  trackers := [waist]
  referenceController := false
  stickContainer := 0
  containers := []
  poses _ := ⟨true, true, fun i j => if i.val = j.val then 1 else 0⟩
  universe_ := some ⟨1, 0, 0, 0, 1⟩

theorem normSq_waist : normSq waist.pose.rotation.toQuaternion = 1 := by
  show normSq (1 : ℍ[ℝ]) = 1
  exact map_one normSq

theorem floorLength_forward : floorLength (0, -1) = 1 := by
  show Real.sqrt (0 ^ 2 + (-1) ^ 2) = 1
  norm_num

theorem floorForward_waist : waist.floorForward 0 = some (normalised (floorOf (facing waist))) := by
  have hfacing : floorOf (facing waist) = (0, -1) := by
    rw [floorOf_facing normSq_waist]
    show ((-2 * (0 * 0 + 1 * 0) : ℝ), (-(1 - 2 * (0 * 0 + 0 * 0)) : ℝ)) = (0, -1)
    norm_num
  refine (floorForward_eq_some_iff normSq_waist).mpr ⟨⟨?_, rfl, ?_, ?_⟩, rfl⟩
  · show (1 : UInt32) ≠ indexInvalid
    decide
  · show (0 : Int) - 0 ≤ milliseconds 500
    decide
  · rw [hfacing, floorLength_forward]
    norm_num

theorem waistTracker_walking : walking.waistTracker = some waist := by
  refine List.find?_cons_of_pos (decide_eq_true ⟨rfl, ?_⟩)
  show (waist.floorForward 0).isSome = true
  rw [floorForward_waist]
  rfl

theorem waistStickDirection_walking :
    let d := walking.waistStickDirection (0, 1)
    let forward := normalised (rawForward (walking.poses 0).matrix)
    floorLength d = 1 ∧
      d.2 • forward + d.1 • rightOf forward =
        normalised (floorOf (rotate (worldOf walking.universe_).rotation.toQuaternion
          (facing waist))) ∧
      ∀ speed rx ry, 0 < speed → speed ≤ 1 →
        floorLength (driveVector rx ry speed d.1 d.2) = speed ∧
          driveVector rx ry speed d.1 d.2 =
            speed • if 15 / 100 < floorLength (rx, ry) then normalised (rx, ry) else d :=
  waistStickDirection_spec walking (0, 1) waistTracker_walking normSq_waist rfl rfl (by
    have hraw : rawForward (walking.poses 0).matrix = (0, -1) := by
      show (-(0 : ℝ), -(1 : ℝ)) = (0, -1)
      rw [neg_zero]
    rw [hraw, floorLength_forward]
    norm_num)

end

end Rebocap.Driver
