import Rebocap.Driver.WalkInPlace
import Rebocap.Hooks.HandPose

/-!
# Which poses are replaced

Settings, scans and hand messages change different parts of what the pose hook reads, and drivers
call it at any time.

* `hookCalls_eq` — a call reaches the original function exactly once
* `findLoop_eq` — a scan gives each hand its first controller
* `forwarded_authorised` — a pose is replaced only while the app asks for it, and only by the
  hand whose controller the device is
-/

namespace Rebocap.PoseHooks

open Lib FloatOrder Arith FloatConv FloatBits Proto Driver Hooks

variable {F D : Type}

/-! ## The calls of the original function -/

/-- The loop of `HookPoseUpdated` over the hands, and what follows it: the calls of `original`. -/
def hookLoop [Zero D] (now : Int) (c : Call D) : List (Hand D) → List (Call D)
  | [] => [c]
  | h :: hands =>
    if c.index ≠ h.deviceIndex then hookLoop now c hands
    else if now - h.updated > milliseconds 500 then [c]
    else [{ c with pose := replaced h c.pose }]

/-- `HookPoseUpdated`, as the calls of `original`. -/
def hookCalls [Zero D] (now : Int) (c : Call D) (s : State D) : List (Call D) :=
  if s.enabled ∧ c.size = s.poseSize then hookLoop now c [s.hands 0, s.hands 1] else [c]

/-- **A call reaches the original function exactly once**, whatever the loop does. -/
theorem hookCalls_eq [Zero D] (now : Int) (c : Call D) (s : State D) :
    hookCalls now c s = [hookPoseUpdated now c s] := by
  unfold hookCalls hookPoseUpdated replacing
  by_cases hs : s.enabled = true ∧ c.size = s.poseSize
  · rw [if_pos hs, if_pos hs]
    by_cases h0 : c.index = (s.hands 0).deviceIndex
    · by_cases ht : now - (s.hands 0).updated > milliseconds 500 <;>
        simp [hookLoop, h0, ht]
    · by_cases h1 : c.index = (s.hands 1).deviceIndex
      · by_cases ht : now - (s.hands 1).updated > milliseconds 500 <;>
          simp [hookLoop, h0, ← h1, ht]
      · simp [hookLoop, h0, h1]
  · rw [if_neg hs, if_neg hs]

/-- What a replaced pose has of the caller's, and what it has not. -/
structure KeepsRest [Zero D] (pose pose' : DriverPose D) : Prop where
  poseIsValid : pose'.poseIsValid = pose.poseIsValid
  deviceIsConnected : pose'.deviceIsConnected = pose.deviceIsConnected
  result : pose'.result = pose.result
  poseTimeOffset : pose'.poseTimeOffset = pose.poseTimeOffset
  driverFromHead : pose'.driverFromHead = pose.driverFromHead
  velocity : pose'.velocity = zeroVec
  acceleration : pose'.acceleration = zeroVec
  angularVelocity : pose'.angularVelocity = zeroVec
  angularAcceleration : pose'.angularAcceleration = zeroVec

theorem replaced_keepsRest [Zero D] (h : Hand D) (pose : DriverPose D) :
    KeepsRest pose (replaced h pose) := by
  unfold replaced
  constructor <;> split <;> split <;> rfl

/-! ## The scan -/

/-- `vr::k_unMaxTrackedDeviceCount`. -/
def maxDeviceCount : Nat := 64

/-- A controller with a hand's role hint. -/
def Device.isFor (i : Fin 2) (d : Device) : Bool :=
  d.deviceClass = some controllerClass ∧ d.role.bind handOfRole = some i

/-- The index that a scan assigns to a hand. -/
def firstFor (i : Fin 2) (devices : List Device) : Option Nat := devices.findIdx? (Device.isFor i)

theorem findLoop_cons (d : Device) (ds : List Device) (k : UInt32) (found : Fin 2 → UInt32) :
    findLoop (d :: ds) k found = findLoop ds (k + 1) fun i =>
      if found i = indexInvalid ∧ d.isFor i then k else found i := by
  have hsame : (∀ i, d.isFor i = false) →
      (fun i => if found i = indexInvalid ∧ d.isFor i then k else found i) = found := by
    intro hd
    funext i
    simp [hd i]
  rw [findLoop]
  by_cases hclass : d.deviceClass = some controllerClass
  · rw [if_neg (not_not.mpr hclass)]
    cases hrole : d.role with
    | none =>
      rw [hsame fun i => by simp [Device.isFor, hrole]]
    | some role =>
      dsimp only
      cases hhand : handOfRole role with
      | none =>
        rw [hsame fun i => by simp [Device.isFor, hrole, hhand]]
      | some hand =>
        dsimp only
        congr 1
        funext i
        by_cases hi : i = hand
        · subst hi
          by_cases hf : found i = indexInvalid <;>
            simp [Device.isFor, hclass, hrole, hhand, hf]
        · have hne : ¬hand = i := fun h => hi h.symm
          by_cases hf : found hand = indexInvalid <;>
            simp [Device.isFor, hrole, hhand, hf, hi, hne]
  · rw [if_pos hclass, hsame fun i => by simp [Device.isFor, hclass]]

/-- The loop gives a hand that has no device the first controller with its role. -/
theorem findLoop_eq (i : Fin 2) : ∀ (ds : List Device) (k : Nat) (found : Fin 2 → UInt32),
    k + ds.length ≤ maxDeviceCount →
      findLoop ds (UInt32.ofNat k) found i =
        if found i = indexInvalid then
          (firstFor i ds).elim indexInvalid fun n => UInt32.ofNat (k + n)
        else found i := by
  intro ds
  induction ds with
  | nil =>
    intro k found _
    by_cases hf : found i = indexInvalid <;> simp [findLoop, firstFor, hf]
  | cons d ds ih =>
    intro k found hk
    rw [List.length_cons] at hk
    have hnext : UInt32.ofNat k + 1 = UInt32.ofNat (k + 1) := by simp
    have hvalid : UInt32.ofNat k ≠ indexInvalid := by
      intro h
      have hnat := congrArg UInt32.toNat h
      have hmod : k % 2 ^ 32 = k := Nat.mod_eq_of_lt (by unfold maxDeviceCount at hk; omega)
      rw [UInt32.toNat_ofNat', hmod] at hnat
      unfold maxDeviceCount at hk
      have hinvalid : indexInvalid.toNat = 4294967295 := rfl
      omega
    rw [findLoop_cons, hnext, ih (k + 1) _ (by omega)]
    -- a hand that has a device keeps it, and else this one is its first or it is not for it
    by_cases hf : found i = indexInvalid
    · by_cases hd : d.isFor i = true
      · simp [firstFor, List.findIdx?_cons, hf, hd, hvalid]
      · rw [Bool.not_eq_true] at hd
        simp only [hf, hd, firstFor, List.findIdx?_cons, Bool.false_eq_true, and_false, if_false,
          if_true]
        cases List.findIdx? (Device.isFor i) ds with
        | none => rfl
        | some n =>
          show UInt32.ofNat (k + 1 + n) = UInt32.ofNat (k + (n + 1))
          congr 1
          omega
    · simp [hf]

/-- A scan leaves the rest of the hands, and gives each its first controller. -/
theorem findHandControllers_deviceIndex {devices : List Device} (s : State D) (i : Fin 2)
    (h : devices.length ≤ maxDeviceCount) :
    ((findHandControllers devices s).hands i).deviceIndex =
      (firstFor i devices).elim indexInvalid UInt32.ofNat := by
  show findLoop devices 0 (fun _ => indexInvalid) i = _
  have hloop := findLoop_eq i devices 0 (fun _ => indexInvalid) (by omega)
  simpa using hloop

/-- An index that a scan assigns is one of a device. -/
theorem firstFor_lt {i : Fin 2} {devices : List Device} {n : Nat}
    (h : firstFor i devices = some n) : n < devices.length :=
  (List.findIdx?_eq_some_iff_getElem.mp h).1

/-! ## Sessions -/

/-- The driver with what has happened to the hand poses. -/
structure Watched (F D : Type) where
  walk : WalkInPlace F D
  /-- The steady clock. -/
  clock : Int
  /-- `now` of the frame. -/
  now : Int
  /-- The newest first. -/
  received : List (Received D)
  /-- `replace_hand_pose` of the last wip_setting. -/
  setting : Bool
  /-- The devices that the latest scan saw. -/
  scanned : List Device

namespace Watched

inductive Event (F D : Type) where
  | wait (elapsed : Nat)
  | frame
  | message (m : Msg) (universe_ : Option (Universe D)) (accepted : Bool)
  | updateWalkInPlace (io : WalkIo F) (devices : Fin maxDeviceCount → Device)
  | poseUpdated (c : Call D)

/-- The hook is installed. -/
def init [Zero F] [Zero D] [One D] (inputHooks : Bool) (driverInput : DriverInput)
    (waistDirection : Bool) (poseSize : UInt32) (clock : Int) : Watched F D where
  walk := .init inputHooks driverInput (.init true poseSize) waistDirection
  clock := clock
  now := clock
  received := []
  setting := false
  scanned := []

/-- What the pose hook reads. -/
abbrev hooks (s : Watched F D) : State D := s.walk.poseHooks

/-! ## What the hook reads -/

/-- The hook reads the last setting, the latest scan and the time of the last message. -/
structure Kept (poseSize : UInt32) (s : Watched F D) : Prop where
  installed : s.hooks.installed = true
  poseSize : s.hooks.poseSize = poseSize
  enabled : s.hooks.enabled = s.setting
  now : s.now ≤ s.clock
  scanned : s.scanned.length ≤ maxDeviceCount
  deviceIndex : ∀ i, (s.hooks.hands i).deviceIndex =
    (firstFor i s.scanned).elim indexInvalid UInt32.ofNat
  lastHookResolve : 0 ≤ s.walk.lastHookResolve
  /-- There is no scan in the first second of the clock. -/
  late : s.scanned ≠ [] → seconds 1 < s.clock
  updated : ∀ i, (s.hooks.hands i).updated = 0 ∨
    ∃ a ∈ s.received, a.hand = i ∧ a.time = (s.hooks.hands i).updated ∧ a.time ≤ s.clock

theorem kept_init [Zero F] [Zero D] [One D] (inputHooks : Bool) (driverInput : DriverInput)
    (waistDirection : Bool) (poseSize : UInt32) (clock : Int) :
    Kept poseSize (init inputHooks driverInput waistDirection poseSize clock : Watched F D) where
  installed := rfl
  poseSize := rfl
  enabled := rfl
  now := Int.le_refl _
  scanned := Nat.zero_le _
  deviceIndex _ := rfl
  lastHookResolve := Int.le_refl _
  late h := absurd rfl h
  updated _ := .inl rfl

variable {poseSize : UInt32} {s : Watched F D}

/-- A step of the rest of walk-in-place, or of the clock. -/
theorem Kept.of_walk {walk : WalkInPlace F D} {clock now : Int} (hs : Kept poseSize s)
    (hhooks : walk.poseHooks = s.hooks) (hresolve : walk.lastHookResolve = s.walk.lastHookResolve)
    (hclock : s.clock ≤ clock) (hnow : now ≤ clock) :
    Kept poseSize { s with walk := walk, clock := clock, now := now } where
  installed := by simpa only [hooks, hhooks] using hs.installed
  poseSize := by simpa only [hooks, hhooks] using hs.poseSize
  enabled := by simpa only [hooks, hhooks] using hs.enabled
  now := hnow
  scanned := hs.scanned
  deviceIndex := by simpa only [hooks, hhooks] using hs.deviceIndex
  lastHookResolve := by simpa only [hresolve] using hs.lastHookResolve
  late h := Int.lt_of_lt_of_le (hs.late h) hclock
  updated i := by
    rcases hs.updated i with h | ⟨a, ha, hhand, htime, hpast⟩
    · exact .inl (by simpa only [hooks, hhooks] using h)
    · refine .inr ⟨a, ha, hhand, ?_, Int.le_trans hpast hclock⟩
      simpa only [hooks, hhooks] using htime

/-! ## What reaches the original function -/

/-- The device is the controller that the latest scan assigned to a hand, and a message for that
hand was handled in the last 500 ms. -/
def ByHand (s : Watched F D) (index : UInt32) : Prop :=
  ∃ i, firstFor i s.scanned = some index.toNat ∧ index.toNat < maxDeviceCount ∧
    ∃ a ∈ s.received, a.hand = i ∧ 0 ≤ s.clock - a.time ∧ s.clock - a.time ≤ milliseconds 500

/-- A call `c` that comes to the original function as `c'`. -/
structure Authorised [Zero D] (poseSize : UInt32) (s : Watched F D) (c c' : Call D) : Prop where
  host : c'.host = c.host
  index : c'.index = c.index
  size : c'.size = c.size
  asked : c'.pose ≠ c.pose → c.size = poseSize ∧ s.setting = true
  byHand : c.index ≠ indexInvalid → c'.pose ≠ c.pose → ByHand s c.index
  rest : c'.pose ≠ c.pose → KeepsRest c.pose c'.pose

theorem Kept.byHand (hs : Kept poseSize s) {c : Call D} {i : Fin 2}
    (hr : replacing s.clock c s.hooks = some i) (hc : c.index ≠ indexInvalid) :
    ByHand s c.index := by
  obtain ⟨-, -, hindex, hrecent⟩ := replacing_eq_some hr
  rw [hs.deviceIndex i] at hindex
  cases hf : firstFor i s.scanned with
  | none =>
    rw [hf] at hindex
    exact absurd hindex hc
  | some n =>
    rw [hf] at hindex
    have hlength := firstFor_lt hf
    have hcount : n < maxDeviceCount := Nat.lt_of_lt_of_le hlength hs.scanned
    have hn : c.index.toNat = n := by
      rw [hindex]
      exact UInt32.toNat_ofNat_of_lt' (Nat.lt_trans hcount (by decide))
    refine ⟨i, by rw [hn]; exact hf, by rwa [hn], ?_⟩
    -- a hand without a message has the time 0, which is more than 500 ms ago after a scan
    have hlate : seconds 1 < s.clock := by
      apply hs.late
      intro hnil
      rw [hnil] at hlength
      exact Nat.not_lt_zero n hlength
    rcases hs.updated i with hnever | ⟨a, ha, hhand, htime, hpast⟩
    · rw [hnever] at hrecent
      unfold seconds at hlate
      unfold milliseconds at hrecent
      omega
    · exact ⟨a, ha, hhand, by omega, by omega⟩

theorem Kept.authorised [Zero D] (hs : Kept poseSize s) (c : Call D) :
    Authorised poseSize s c (hookPoseUpdated s.clock c s.hooks) := by
  cases hr : replacing s.clock c s.hooks with
  | none =>
    rw [hookPoseUpdated_of_none hr]
    exact ⟨rfl, rfl, rfl, fun h => absurd rfl h, fun _ h => absurd rfl h, fun h => absurd rfl h⟩
  | some i =>
    rw [hookPoseUpdated_of_some hr]
    obtain ⟨henabled, hsize, -, -⟩ := replacing_eq_some hr
    refine ⟨rfl, rfl, rfl, fun _ => ⟨?_, ?_⟩, fun hc _ => hs.byHand hr hc, fun _ => ?_⟩
    · rw [hsize, hs.poseSize]
    · rw [← hs.enabled, henabled]
    · exact replaced_keepsRest (s.hooks.hands i) c.pose

/-! ## Runs -/

variable [FloatOrder F] [Arith F] [FloatBits F 32] [FloatConv F D] [FloatBits D 64]
  [FloatOrder D] [Arith D]

def onMessage (m : Msg) (u : Option (Universe D)) (accepted : Bool) (s : Watched F D) :
    Watched F D :=
  match m.kind with
  | .position =>
    match handOfId m.trackerId with
    | none => s
    | some i =>
      { s with
        walk := { s.walk with poseHooks := { s.hooks with
          hands := Function.update s.hooks.hands i (onHandPose F m u s.clock (s.hooks.hands i)) } }
        received := ⟨i, m, u, s.clock⟩ :: s.received }
  | .wipSetting =>
    { s with walk := s.walk.onWipSetting accepted m, setting := m.replaceHandPose }
  | .wipInfo => { s with walk := s.walk.onWipInfo m s.now }
  | _ => s

def step (e : Event F D) (s : Watched F D) : Watched F D :=
  match e with
  | .wait elapsed => { s with clock := s.clock + elapsed }
  | .frame => { s with now := s.clock }
  | .message m u accepted => onMessage m u accepted s
  | .updateWalkInPlace io devices =>
    { s with
      walk := s.walk.updateWalkInPlace { io with devices := List.ofFn devices } s.now
      scanned := if s.walk.scans s.now then List.ofFn devices else s.scanned }
  | .poseUpdated _ => s

omit [FloatOrder F] [Arith F] in
theorem Kept.handPose (hs : Kept poseSize s) (i : Fin 2) (m : Msg) (u : Option (Universe D)) :
    Kept poseSize { s with
      walk := { s.walk with poseHooks := { s.hooks with
        hands := Function.update s.hooks.hands i (onHandPose F m u s.clock (s.hooks.hands i)) } }
      received := ⟨i, m, u, s.clock⟩ :: s.received } where
  installed := hs.installed
  poseSize := hs.poseSize
  enabled := hs.enabled
  now := hs.now
  scanned := hs.scanned
  deviceIndex j := by
    by_cases hj : j = i
    · subst hj
      obtain ⟨-, -, -, -, hindex⟩ := onHandPose_spec F m u s.clock (s.hooks.hands j)
      dsimp only
      rw [Function.update_self, hindex, hs.deviceIndex j]
    · dsimp only
      rw [Function.update_of_ne hj, hs.deviceIndex j]
  lastHookResolve := hs.lastHookResolve
  late := hs.late
  updated j := by
    by_cases hj : j = i
    · subst hj
      obtain ⟨-, -, -, hupdated, -⟩ := onHandPose_spec F m u s.clock (s.hooks.hands j)
      refine .inr ⟨⟨j, m, u, s.clock⟩, List.mem_cons_self, rfl, ?_, Int.le_refl _⟩
      dsimp only
      rw [Function.update_self, hupdated]
    · dsimp only
      rw [Function.update_of_ne hj]
      rcases hs.updated j with h | ⟨a, ha, hrest⟩
      · exact .inl h
      · exact .inr ⟨a, List.mem_cons_of_mem _ ha, hrest⟩

omit [FloatBits F 32] [FloatConv F D] [FloatBits D 64] [FloatOrder D] [Arith D] in
theorem Kept.wipSetting (hs : Kept poseSize s) (accepted : Bool) (m : Msg) :
    Kept poseSize { s with
      walk := s.walk.onWipSetting accepted m, setting := m.replaceHandPose } := by
  obtain ⟨hhooks, hresolve⟩ := s.walk.onWipSetting_spec accepted m
  have hsetting : onSetting m s.hooks = { s.hooks with enabled := m.replaceHandPose } :=
    if_pos hs.installed
  rw [hsetting] at hhooks
  constructor <;> simp only [hooks, hhooks, hresolve]
  · exact hs.installed
  · exact hs.poseSize
  · exact hs.now
  · exact hs.scanned
  · exact hs.deviceIndex
  · exact hs.lastHookResolve
  · exact hs.late
  · exact hs.updated

theorem Kept.updateWalkInPlace (hs : Kept poseSize s) (io : WalkIo F)
    (devices : Fin maxDeviceCount → Device) :
    Kept poseSize (step (.updateWalkInPlace io devices) s) := by
  obtain ⟨hhooks, hresolve⟩ :=
    s.walk.updateWalkInPlace_spec { io with devices := List.ofFn devices } s.now
  obtain ⟨hhooks', hresolve'⟩ :=
    s.walk.resolveHooks_spec { io with devices := List.ofFn devices } s.now
  rw [hhooks'] at hhooks
  rw [hresolve'] at hresolve
  have hlast := hs.lastHookResolve
  by_cases hscan : s.walk.scans s.now
  · -- `FindHandControllers` runs, at the earliest a second after the clock's start
    rw [if_pos hscan] at hhooks
    rw [if_pos hscan.1] at hresolve
    have hlate : seconds 1 < s.now := by
      have := hscan.1
      omega
    have hlength : (List.ofFn devices).length ≤ maxDeviceCount := by simp
    constructor <;> simp only [step, hooks, hhooks, hresolve, if_pos hscan]
    · exact hs.installed
    · exact hs.poseSize
    · exact hs.enabled
    · exact hs.now
    · exact hlength
    · exact fun i => findHandControllers_deviceIndex s.hooks i hlength
    · exact Int.le_trans (by decide) (Int.le_of_lt hlate)
    · exact fun _ => Int.lt_of_lt_of_le hlate hs.now
    · exact hs.updated
  · rw [if_neg hscan] at hhooks
    have hnonneg : 0 ≤ (s.walk.updateWalkInPlace { io with devices := List.ofFn devices }
        s.now).lastHookResolve := by
      rw [hresolve]
      split
      next ht =>
        have : (0 : Int) ≤ seconds 1 := by decide
        omega
      next => exact hlast
    constructor <;> simp only [step, hooks, hhooks, if_neg hscan]
    · exact hs.installed
    · exact hs.poseSize
    · exact hs.enabled
    · exact hs.now
    · exact hs.scanned
    · exact hs.deviceIndex
    · exact hnonneg
    · exact hs.late
    · exact hs.updated

theorem kept_step (e : Event F D) (s : Watched F D) (hs : Kept poseSize s) :
    Kept poseSize (step e s) := by
  cases e with
  | wait elapsed =>
    have := hs.now
    exact hs.of_walk rfl rfl (by omega) (by omega)
  | frame => exact hs.of_walk rfl rfl (Int.le_refl _) (Int.le_refl _)
  | message m u accepted =>
    unfold step onMessage
    dsimp only
    split
    · split
      · exact hs
      next i _ => exact hs.handPose i m u
    · exact hs.wipSetting accepted m
    · obtain ⟨speed, walking, hinfo⟩ := s.walk.onWipInfo_frame m s.now
      rw [hinfo]
      exact hs.of_walk rfl rfl (Int.le_refl _) hs.now
    · exact hs
  | updateWalkInPlace io devices => exact hs.updateWalkInPlace io devices
  | poseUpdated c => exact hs

/-- **In every run a call reaches the original function exactly once, and with another pose only
while the app asks for it, for the controller of a hand that the app has just sent.** -/
theorem forwarded_authorised (inputHooks : Bool) (driverInput : DriverInput)
    (waistDirection : Bool) (poseSize : UInt32) (clock : Int) (es : List (Event F D))
    (c : Call D) :
    let s := run step es (init inputHooks driverInput waistDirection poseSize clock)
    ∃ c', hookCalls s.clock c s.hooks = [c'] ∧ Authorised poseSize s c c' := by
  intro s
  have hs : Kept poseSize s :=
    run_invariant kept_step es (kept_init inputHooks driverInput waistDirection poseSize clock)
  exact ⟨_, hookCalls_eq s.clock c s.hooks, hs.authorised c⟩

end Watched

end Rebocap.PoseHooks
