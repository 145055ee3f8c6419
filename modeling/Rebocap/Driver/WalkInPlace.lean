import Rebocap.Driver.Treadmill

/-!
# Walk-in-place

`OnWipSetting`, `OnWipInfo` and `UpdateWalkInPlace`, on the fields of `Provider` that they use.
`OnWipSetting` is cut at its calls, between which vrserver and the other drivers can act.

* `resolveHooks_frame` — resolving the hooks changes the captured sticks only
-/

namespace Rebocap.Driver

open Lib FloatOrder Arith FloatBits Proto Hooks

variable {F D : Type}

/-- The fields of `Provider` for walk-in-place, the hooks and the components of vrserver. -/
structure WalkInPlace (F D : Type) where
  world : World F
  poseHooks : PoseHooks.State D
  treadmill : Option (Treadmill F)
  /-- The containers whose role hint `Activate` has set. -/
  treadmillContainers : List Container
  wipOpen : Bool
  wipAsTreadmill : Bool
  wipJoystickControl : Bool
  wipWalking : Bool
  wipWaistDirection : Bool
  wipHand : Int
  wipSpeed : F
  lastWipInfo : Int
  lastWipOutput : Int
  lastHookResolve : Int

/-- What `UpdateWalkInPlace` reads from outside. -/
structure WalkIo (F : Type) where
  /-- The role hint of a container, none where it cannot be read. -/
  roles : Container → Option Int
  devices : List PoseHooks.Device
  /-- `client_.connected()`. -/
  connected : Bool
  /-- What `WaistStickDirection` makes of (0, 1). -/
  waistDirection : F × F

namespace WalkInPlace

def init [Zero F] [Zero D] [One D] (installed : Bool) (driverInput : DriverInput)
    (poseHooks : PoseHooks.State D) (waistDirection : Bool) : WalkInPlace F D where
  world := .init installed driverInput
  poseHooks := poseHooks
  treadmill := none
  treadmillContainers := []
  wipOpen := false
  wipAsTreadmill := false
  wipJoystickControl := false
  wipWalking := false
  wipWaistDirection := waistDirection
  wipHand := 0
  wipSpeed := 0
  lastWipInfo := 0
  lastWipOutput := 0
  lastHookResolve := 0

/-- `WipUsesTreadmill`. -/
def usesTreadmill (s : WalkInPlace F D) : Bool := s.wipAsTreadmill || !s.world.hooks.installed

/-! ## `OnWipSetting` -/

/-- Up to the early return. It says whether the settings changed. -/
def assignSetting [Zero F] (m : Msg) (s : WalkInPlace F D) : WalkInPlace F D × Bool :=
  let s := { s with
    wipJoystickControl := m.joystickControl
    wipHand := if m.useLeftHand then 0 else 1
    poseHooks := PoseHooks.onSetting m s.poseHooks }
  if m.openWip = s.wipOpen ∧ m.outputAsTreadmill = s.wipAsTreadmill then (s, false)
  else
    ({ s with
      wipOpen := m.openWip
      wipAsTreadmill := m.outputAsTreadmill
      wipSpeed := 0
      wipWalking := false }, true)

/-- `const bool treadmill`. -/
def wantsTreadmill (s : WalkInPlace F D) : Bool := s.wipOpen && s.usesTreadmill

/-- `TrackedDeviceAdded`, where there is no treadmill yet. -/
def addTreadmill [Zero F] (accepted : Bool) (s : WalkInPlace F D) : WalkInPlace F D :=
  if s.wantsTreadmill ∧ s.treadmill.isNone ∧ accepted then { s with treadmill := some .init }
  else s

section Output

variable [FloatOrder F] [Arith F]

/-- `Drive(-1, 0)`. -/
def releaseStick (s : WalkInPlace F D) : WalkInPlace F D :=
  { s with world := drive (-1) 0 0 1 s.world }

def connectTreadmill (s : WalkInPlace F D) : WalkInPlace F D :=
  match s.treadmill with
  | none => s
  | some t =>
    let (t, w) := t.setConnected s.wantsTreadmill s.world
    { s with treadmill := some t, world := w }

/-- `accepted` is SteamVR's answer where a treadmill is added. -/
def onWipSetting (accepted : Bool) (m : Msg) (s : WalkInPlace F D) : WalkInPlace F D :=
  match s.assignSetting m with
  | (s, false) => s
  | (s, true) => ((s.releaseStick).addTreadmill accepted).connectTreadmill

/-! ## `OnWipInfo` -/

def onWipInfo [FloatBits F 32] (m : Msg) (now : Int) (s : WalkInPlace F D) : WalkInPlace F D :=
  let s := { s with
    lastWipInfo := now
    wipSpeed := fmin (fmax (ofBits m.wipX) 0) 1 }
  let s := if m.wipStatus = WipStatus.walking.toInt32 then { s with wipWalking := true } else s
  let s := if m.wipStatus = WipStatus.stopWalking.toInt32 ∨
      m.wipStatus = WipStatus.stopped.toInt32 then
    { s with wipWalking := false } else s
  if m.wipStatus = WipStatus.stopped.toInt32 then { s with wipSpeed := 0 } else s

/-! ## `UpdateWalkInPlace` -/

/-- The role hints as `ResolvePending` reads them: `Activate` has set the treadmill's. -/
def rolesFor (io : WalkIo F) (s : WalkInPlace F D) (c : Container) : Option Int :=
  if c ∈ s.treadmillContainers then some treadmillRole else io.roles c

def resolveHooks (io : WalkIo F) (now : Int) (s : WalkInPlace F D) : WalkInPlace F D :=
  if now - s.lastHookResolve > seconds 1 then
    let s := { s with lastHookResolve := now }
    let s := if s.world.hooks.installed then
      { s with world := { s.world with
        hooks := (resolvePending (s.rolesFor io) s.world.hooks).1 } } else s
    -- the pose hook can be installed when the input hooks are not
    if s.poseHooks.installed then
      { s with poseHooks := PoseHooks.findHandControllers io.devices s.poseHooks }
    else s
  else s

/-- `UpdateWalkInPlace` looks for the hand controllers. -/
def scans (now : Int) (s : WalkInPlace F D) : Prop :=
  now - s.lastHookResolve > seconds 1 ∧ s.poseHooks.installed = true

instance (now : Int) (s : WalkInPlace F D) : Decidable (s.scans now) :=
  inferInstanceAs (Decidable (_ ∧ _))

/-- The 10 ms limiter. -/
def limited (now : Int) (s : WalkInPlace F D) : Prop := now - s.lastWipOutput < milliseconds 10

instance (now : Int) (s : WalkInPlace F D) : Decidable (s.limited now) :=
  inferInstanceAs (Decidable (_ < _))

/-- Stop walking if the app stops sending wip_info. -/
def timeOutSpeed (now : Int) (s : WalkInPlace F D) : WalkInPlace F D :=
  if now - s.lastWipInfo > seconds 1 then { s with wipSpeed := 0 } else s

/-- `const float speed`. -/
def outputSpeed (connected : Bool) (s : WalkInPlace F D) : F :=
  let output := s.wipOpen && connected && (!s.wipJoystickControl || s.wipWalking)
  if output ∧ literal 3 2 < s.wipSpeed then s.wipSpeed else 0

def writeOutput (io : WalkIo F) (s : WalkInPlace F D) : WalkInPlace F D :=
  let speed := s.outputSpeed io.connected
  if s.usesTreadmill then
    match s.treadmill with
    | none => s
    | some t =>
      let (t, w) := t.setStick 0 speed s.world
      { s with treadmill := some t, world := w }
  else
    let dir := if 0 < speed ∧ s.wipWaistDirection then io.waistDirection else (0, 1)
    { s with world := drive s.wipHand speed dir.1 dir.2 s.world }

def updateWalkInPlace (io : WalkIo F) (now : Int) (s : WalkInPlace F D) : WalkInPlace F D :=
  let s := s.resolveHooks io now
  if s.limited now then s
  else (({ s with lastWipOutput := now }).timeOutSpeed now).writeOutput io

end Output

/-! ## What the parts leave -/

theorem assignSetting_frame [Zero F] (m : Msg) (s : WalkInPlace F D) :
    (s.assignSetting m).1.world = s.world ∧ (s.assignSetting m).1.treadmill = s.treadmill ∧
      (s.assignSetting m).1.treadmillContainers = s.treadmillContainers := by
  unfold assignSetting
  dsimp only
  split <;> exact ⟨rfl, rfl, rfl⟩

/-- An unchanged setting, or a changed one. -/
theorem assignSetting_cases [Zero F] (m : Msg) (s : WalkInPlace F D) :
    ∃ hand poseHooks,
      (s.assignSetting m = ({ s with
          wipJoystickControl := m.joystickControl
          wipHand := hand
          poseHooks := poseHooks }, false) ∧
        m.openWip = s.wipOpen ∧ m.outputAsTreadmill = s.wipAsTreadmill) ∨
      (s.assignSetting m = ({ s with
          wipJoystickControl := m.joystickControl
          wipHand := hand
          poseHooks := poseHooks
          wipOpen := m.openWip
          wipAsTreadmill := m.outputAsTreadmill
          wipSpeed := 0
          wipWalking := false }, true) ∧
        ¬(m.openWip = s.wipOpen ∧ m.outputAsTreadmill = s.wipAsTreadmill)) := by
  unfold assignSetting
  dsimp only
  split
  next h => exact ⟨_, _, .inl ⟨rfl, h⟩⟩
  next h => exact ⟨_, _, .inr ⟨rfl, h⟩⟩

theorem onWipInfo_frame [FloatOrder F] [FloatBits F 32] (m : Msg) (now : Int)
    (s : WalkInPlace F D) : ∃ speed walking, s.onWipInfo m now =
      { s with lastWipInfo := now, wipSpeed := speed, wipWalking := walking } := by
  unfold onWipInfo
  split <;> split <;> split <;> exact ⟨_, _, rfl⟩

theorem onWipInfo_spec [FloatOrder F] [FloatBits F 32] (m : Msg) (now : Int)
    (s : WalkInPlace F D) :
    ((s.onWipInfo m now).wipSpeed = fmin (fmax (ofBits m.wipX) 0) 1 ∨
        (s.onWipInfo m now).wipSpeed = 0) ∧
      ((s.onWipInfo m now).wipWalking = true →
        ¬(m.wipStatus = WipStatus.stopWalking.toInt32 ∨
            m.wipStatus = WipStatus.stopped.toInt32) ∧
          (m.wipStatus = WipStatus.walking.toInt32 ∨ s.wipWalking = true)) := by
  unfold onWipInfo
  dsimp only
  by_cases hstops : m.wipStatus = WipStatus.stopWalking.toInt32 ∨
      m.wipStatus = WipStatus.stopped.toInt32
  · rw [if_pos hstops]
    constructor
    · split
      · exact .inr rfl
      · split <;> exact .inl rfl
    · intro hw
      split at hw <;> cases hw
  · rw [if_neg hstops, if_neg fun h => hstops (.inr h)]
    constructor
    · split <;> exact .inl rfl
    · intro hw
      refine ⟨hstops, ?_⟩
      split at hw
      next h => exact .inl h
      next => exact .inr hw

theorem resolveHooks_frame (io : WalkIo F) (now : Int) (s : WalkInPlace F D) :
    ∃ sticks waiting poseHooks resolved, s.resolveHooks io now =
      { s with
        world := { s.world with
          hooks := { s.world.hooks with sticks := sticks, pending := waiting } }
        poseHooks := poseHooks
        lastHookResolve := resolved } := by
  obtain ⟨sticks, waiting, hhooks⟩ := resolvePending_frame (s.rolesFor io) s.world.hooks
  unfold resolveHooks
  split
  next =>
    dsimp only
    split
    next =>
      have hroles : ({ s with lastHookResolve := now } : WalkInPlace F D).rolesFor io =
          s.rolesFor io := rfl
      rw [hroles, hhooks]
      split <;> exact ⟨_, _, _, _, rfl⟩
    next => split <;> exact ⟨_, _, _, _, rfl⟩
  next => exact ⟨_, _, _, _, rfl⟩

theorem resolveHooks_spec (io : WalkIo F) (now : Int) (s : WalkInPlace F D) :
    (s.resolveHooks io now).poseHooks =
        (if s.scans now then PoseHooks.findHandControllers io.devices s.poseHooks
        else s.poseHooks) ∧
      (s.resolveHooks io now).lastHookResolve =
        if now - s.lastHookResolve > seconds 1 then now else s.lastHookResolve := by
  unfold resolveHooks scans
  by_cases ht : now - s.lastHookResolve > seconds 1
  · by_cases hinput : s.world.hooks.installed = true <;>
      by_cases hpose : s.poseHooks.installed = true <;>
      simp [ht, hinput, hpose]
  · simp [ht]

theorem outputSpeed_cases [FloatOrder F] (connected : Bool) (s : WalkInPlace F D) :
    s.outputSpeed connected = 0 ∨
      s.outputSpeed connected = s.wipSpeed ∧ s.wipOpen = true ∧ connected = true ∧
        (s.wipJoystickControl = false ∨ s.wipWalking = true) ∧ literal 3 2 < s.wipSpeed := by
  unfold outputSpeed
  dsimp only
  split
  next h =>
    refine .inr ⟨rfl, ?_⟩
    simpa [and_assoc] using h
  next => exact .inl rfl

section Output

variable [FloatOrder F] [Arith F]

theorem writeOutput_frame (io : WalkIo F) (s : WalkInPlace F D) :
    ∃ t w, s.writeOutput io = { s with treadmill := t, world := w } := by
  unfold writeOutput
  dsimp only
  split
  · split
    · exact ⟨s.treadmill, s.world, rfl⟩
    · exact ⟨_, _, rfl⟩
  · exact ⟨s.treadmill, _, rfl⟩

theorem connectTreadmill_frame (s : WalkInPlace F D) :
    ∃ t w, s.connectTreadmill = { s with treadmill := t, world := w } := by
  unfold connectTreadmill
  split
  · exact ⟨s.treadmill, s.world, rfl⟩
  · exact ⟨_, _, rfl⟩

theorem changeOutput_frame (accepted : Bool) (s : WalkInPlace F D) :
    ∃ t w, ((s.releaseStick).addTreadmill accepted).connectTreadmill =
      { s with treadmill := t, world := w } := by
  obtain ⟨t, w, hconnect⟩ := connectTreadmill_frame ((s.releaseStick).addTreadmill accepted)
  rw [hconnect]
  unfold addTreadmill
  split <;> exact ⟨t, w, rfl⟩

/-- A setting reaches the pose hook, whether or not it changes walk-in-place. -/
theorem onWipSetting_spec (accepted : Bool) (m : Msg) (s : WalkInPlace F D) :
    (s.onWipSetting accepted m).poseHooks = PoseHooks.onSetting m s.poseHooks ∧
      (s.onWipSetting accepted m).lastHookResolve = s.lastHookResolve := by
  unfold onWipSetting assignSetting
  dsimp only
  split
  next h =>
    split at h <;> cases h
    exact ⟨rfl, rfl⟩
  next h =>
    split at h <;> cases h
    obtain ⟨t, w, hchange⟩ := changeOutput_frame accepted { s with
      wipJoystickControl := m.joystickControl
      wipHand := if m.useLeftHand then 0 else 1
      poseHooks := PoseHooks.onSetting m s.poseHooks
      wipOpen := m.openWip
      wipAsTreadmill := m.outputAsTreadmill
      wipSpeed := 0
      wipWalking := false }
    rw [hchange]
    exact ⟨rfl, rfl⟩

/-- What follows the scan leaves the pose hook. -/
theorem updateWalkInPlace_spec (io : WalkIo F) (now : Int) (s : WalkInPlace F D) :
    (s.updateWalkInPlace io now).poseHooks = (s.resolveHooks io now).poseHooks ∧
      (s.updateWalkInPlace io now).lastHookResolve = (s.resolveHooks io now).lastHookResolve := by
  unfold updateWalkInPlace
  dsimp only
  split
  · exact ⟨rfl, rfl⟩
  · obtain ⟨t, w, houtput⟩ := writeOutput_frame io
      (({ s.resolveHooks io now with lastWipOutput := now }).timeOutSpeed now)
    rw [houtput]
    unfold timeOutSpeed
    split <;> exact ⟨rfl, rfl⟩

end Output

end WalkInPlace

end Rebocap.Driver
