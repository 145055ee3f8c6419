import Rebocap.Driver.WalkInPlace
import Rebocap.Lib.Run

/-!
# Sessions of walk-in-place

A session takes the handlers of walk-in-place in any order. Between the parts of `OnWipSetting`,
and between any two handlers, vrserver and the other drivers can take any number of steps.

* `onWipSetting_eq` — the parts of `OnWipSetting` in a row are `OnWipSetting`
* `rig_step` — the treadmill's components stay apart from the captured sticks
-/

namespace Rebocap.Driver.WipSafety

open Lib FloatOrder Arith FloatBits Proto Hooks

variable {D : Type}

/-! ## Sessions -/

/-- Where the frame thread is: in `OnWipSetting` for a message, before the given part. -/
inductive Pc where
  | idle
  | release (m : Msg)
  | add (m : Msg)
  | connect (m : Msg)

structure Session (D : Type) where
  walk : WalkInPlace Binary32 D
  pc : Pc
  /-- The steady clock. -/
  clock : Int
  /-- The `wip_setting` and `wip_info` messages that were handled, the newest first. -/
  heard : List (Msg × Int)

inductive Event where
  | wait (elapsed : Nat)
  | create (self : DriverInput) (container : Container) (name : Option String) (boolean : Bool)
      (handle : Handle)
  /-- An update of another driver's component. -/
  | update (handle : Handle) (value : Value Binary32)
  | activate (index : UInt32) (container : Container) (touch x y : Handle)
  | deactivate
  | message (m : Msg)
  /-- `OnWipSetting` goes on. -/
  | proceed (accepted : Bool)
  | updateWalkInPlace (io : WalkIo Binary32)

def Session.init [Zero D] [One D] (installed : Bool) (driverInput : DriverInput)
    (poseHooks : PoseHooks.State D) (waistDirection : Bool) (clock : Int) : Session D where
  walk := .init installed driverInput poseHooks waistDirection
  pc := .idle
  clock := clock
  heard := []

/-- The component is the treadmill's. -/
def owns (walk : WalkInPlace Binary32 D) (h : Handle) : Prop :=
  ∃ t ∈ walk.treadmill, ∃ a, t.handle a = h

instance (walk : WalkInPlace Binary32 D) (h : Handle) : Decidable (owns walk h) :=
  inferInstanceAs (Decidable (∃ t ∈ walk.treadmill, ∃ a, t.handle a = h))

/-- The frame thread handles a message when it is in no other handler. -/
def onMessage (m : Msg) (s : Session D) : Session D :=
  match m.kind with
  | .wipSetting =>
    let (walk, changed) := s.walk.assignSetting m
    { s with
      walk := walk
      pc := if changed then .release m else .idle
      heard := (m, s.clock) :: s.heard }
  | .wipInfo => { s with walk := s.walk.onWipInfo m s.clock, heard := (m, s.clock) :: s.heard }
  | _ => s

def proceed [Arith Binary32] (accepted : Bool) (s : Session D) : Session D :=
  match s.pc with
  | .idle => s
  | .release m => { s with walk := s.walk.releaseStick, pc := .add m }
  | .add m => { s with walk := s.walk.addTreadmill accepted, pc := .connect m }
  | .connect _ => { s with walk := s.walk.connectTreadmill, pc := .idle }

def activate (index : UInt32) (c : Container) (touch x y : Handle) (s : Session D) : Session D :=
  match s.walk.treadmill with
  | none => s
  | some t =>
    if Fresh s.walk.world.components touch x y then
      let (t, w) := t.activate index c touch x y s.walk.world
      { s with walk := { s.walk with
        treadmill := some t
        treadmillContainers := c :: s.walk.treadmillContainers
        world := w } }
    else s

def step [Arith Binary32] (e : Event) (s : Session D) : Session D :=
  match e with
  | .wait elapsed => { s with clock := s.clock + elapsed }
  | .create self c name boolean h =>
    { s with walk := { s.walk with world := createComponent self c name boolean h s.walk.world } }
  | .update h v =>
    if owns s.walk h then s
    else { s with walk := { s.walk with world := updateComponent h v s.walk.world } }
  | .activate index c touch x y => activate index c touch x y s
  | .deactivate =>
    { s with walk := { s.walk with treadmill := s.walk.treadmill.map Treadmill.deactivate } }
  | .message m => match s.pc with
    | .idle => onMessage m s
    | _ => s
  | .proceed accepted => proceed accepted s
  | .updateWalkInPlace io => match s.pc with
    | .idle => { s with walk := s.walk.updateWalkInPlace io s.clock }
    | _ => s

/-- The parts of `OnWipSetting` in a row are `OnWipSetting`. -/
theorem onWipSetting_eq [Arith Binary32] {s : Session D} {m : Msg} (accepted : Bool)
    (hpc : s.pc = .idle) (hm : m.kind = .wipSetting) :
    (run step [.message m, .proceed accepted, .proceed accepted, .proceed accepted] s).walk =
      s.walk.onWipSetting accepted m := by
  unfold WalkInPlace.onWipSetting
  simp only [run_cons, run_nil, step, hpc, onMessage, hm]
  rcases s.walk.assignSetting m with ⟨walk, changed⟩
  cases changed <;> rfl

/-! ## What the app has said -/

/-- The last `wip_info`. -/
def lastInfo (heard : List (Msg × Int)) : Option (Msg × Int) :=
  heard.find? fun e => e.1.kind = .wipInfo

/-- `open_wip` and `output_as_treadmill` of the last `wip_setting`. -/
def lastSetting (heard : List (Msg × Int)) : Bool × Bool :=
  match heard.find? fun e => e.1.kind = .wipSetting with
  | none => (false, false)
  | some e => (e.1.openWip, e.1.outputAsTreadmill)

/-- The message ends walking: `STOP_WALKING`, `STOPPED`, or another `open_wip` or
`output_as_treadmill` than before. -/
def Stops (m : Msg) (before : List (Msg × Int)) : Prop :=
  m.kind = .wipInfo ∧ (m.wipStatus = WipStatus.stopWalking.toInt32 ∨
      m.wipStatus = WipStatus.stopped.toInt32) ∨
    m.kind = .wipSetting ∧ (m.openWip, m.outputAsTreadmill) ≠ lastSetting before

/-- The app has said `WALKING`, and nothing since then has ended it. -/
inductive Walking : List (Msg × Int) → Prop where
  | heard {m : Msg} {t : Int} {before : List (Msg × Int)} (hk : m.kind = .wipInfo)
      (hw : m.wipStatus = WipStatus.walking.toInt32) : Walking ((m, t) :: before)
  | later {m : Msg} {t : Int} {before : List (Msg × Int)} (h : Walking before)
      (hm : ¬Stops m before) : Walking ((m, t) :: before)

/-- The speed of a `wip_info`, clamped. -/
def speedOf (m : Msg) : Binary32 := fmin (fmax (ofBits m.wipX) 0) 1

/-- What permits an output. -/
structure Permitted (s : Session D) (connected : Bool) : Prop where
  opened : s.walk.wipOpen = true
  connected : connected = true
  walking : s.walk.wipJoystickControl = false ∨ Walking s.heard
  /-- The last `wip_info` is at most 1 s old, and its speed is between 0.03 and 1. -/
  info : ∃ m t, lastInfo s.heard = some (m, t) ∧ 0 ≤ s.clock - t ∧ s.clock - t ≤ seconds 1 ∧
    literal 3 2 < speedOf m ∧ speedOf m ≤ 1

/-! ## What moves -/

/-- A stick override is active. -/
def Overrides (walk : WalkInPlace Binary32 D) : Prop := walk.world.hooks.overriding ≠ none

/-- A component of the treadmill's stick is not at zero. -/
def Deflected (t : Treadmill Binary32) (c : Components Binary32) : Prop :=
  ∃ v : Binary32, (c t.x = some (.scalar v) ∨ c t.y = some (.scalar v)) ∧ (v == 0) = false

/-- The stick of an activated treadmill is not at zero. -/
def TreadmillMoves (walk : WalkInPlace Binary32 D) : Prop :=
  ∃ t, walk.treadmill = some t ∧ t.activated ∧ Deflected t walk.world.components

theorem deflected_iff {t : Treadmill Binary32} {c : Components Binary32} {x y : Binary32}
    (h : Shows t c x y) : Deflected t c ↔ (x == 0) = false ∨ (y == 0) = false := by
  obtain ⟨hx, hy⟩ := h
  constructor
  · rintro ⟨v, hv | hv, h0⟩
    · rw [hx, Option.some.injEq, Value.scalar.injEq] at hv
      exact .inl (hv ▸ h0)
    · rw [hy, Option.some.injEq, Value.scalar.injEq] at hv
      exact .inr (hv ▸ h0)
  · rintro (h0 | h0)
    · exact ⟨x, .inl hx, h0⟩
    · exact ⟨y, .inr hy, h0⟩

/-- **After `SetStick` the treadmill's stick is at zero, unless the speed is not**: where the call
is skipped, the components show the last values, or are at zero since they were created. -/
theorem deflected_setStick [Arith Binary32] {t t' : Treadmill Binary32} {w w' : World Binary32}
    {own : List Container} {y : Binary32} (hm : Mounted t w own) (ha : t.activated)
    (hset : t.setStick 0 y w = (t', w')) (hd : Deflected t' w'.components) :
    (y == 0) = false := by
  have hcases := hm.setStick ha 0 y
  rw [hset] at hcases
  rcases hcases with ⟨rfl, rfl, hx, hy⟩ | ⟨rfl, hshows, -⟩
  · rcases hm.shows with hshows | hshows
    · rcases (deflected_iff hshows).mp hd with h0 | h0
      · rw [Binary32.beq_symm hx] at h0
        cases h0
      · rw [Bool.eq_false_iff]
        intro hy0
        rw [Binary32.beq_trans (Binary32.beq_symm hy) hy0] at h0
        cases h0
    · rcases (deflected_iff hshows).mp hd with h0 | h0 <;>
        exact absurd Binary32.zero_beq_zero (by rw [h0]; simp)
  · rcases (deflected_iff hshows).mp hd with h0 | h0
    · exact absurd Binary32.zero_beq_zero (by rw [h0]; simp)
    · exact h0

/-! ## The components of the treadmill -/

/-- The components of the sticks and those of an activated treadmill are apart. -/
structure Rig (walk : WalkInPlace Binary32 D) : Prop where
  placed : Placed walk.world.components.kind walk.world.hooks.slot walk.world.hooks.pending
  mounted : ∀ t, walk.treadmill = some t → t.activated →
    Mounted t walk.world walk.treadmillContainers

namespace Rig

variable {walk walk' : WalkInPlace Binary32 D}

theorem congr (h : Rig walk) (hworld : walk'.world = walk.world)
    (ht : walk'.treadmill = walk.treadmill)
    (hc : walk'.treadmillContainers = walk.treadmillContainers) : Rig walk' := by
  constructor
  · rw [hworld]
    exact h.placed
  · rw [hworld, ht, hc]
    exact h.mounted

theorem create (h : Rig walk) (self : DriverInput) (c : Container) (name : Option String)
    (boolean : Bool) (k : Handle) :
    Rig { walk with world := createComponent self c name boolean k walk.world } where
  placed := placed_createComponent self c name boolean k h.placed
  mounted t ht ha := (h.mounted t ht ha).create self c name boolean k

theorem update (h : Rig walk) {k : Handle} (v : Value Binary32) (hk : ¬owns walk k) :
    Rig { walk with world := updateComponent k v walk.world } := by
  obtain ⟨sticks, hhooks⟩ := updateComponent_hooks k v walk.world
  have hpending : (updateComponent k v walk.world).hooks.pending = walk.world.hooks.pending := by
    rw [hhooks]
  constructor
  · dsimp only
    rw [hpending]
    exact placed_updateComponent k v h.placed
  · intro t ht ha
    exact (h.mounted t ht ha).update v fun a hka => hk ⟨t, ht, a, hka⟩

theorem drive [Arith Binary32] (h : Rig walk) (hand : Int) (speed dirX dirY : Binary32) :
    Rig { walk with world := Hooks.drive hand speed dirX dirY walk.world } := by
  obtain ⟨o, x, y, hhooks⟩ := drive_frame hand speed dirX dirY walk.world
  constructor
  · dsimp only
    rw [kind_drive, hhooks]
    exact h.placed
  · intro t ht ha
    exact (h.mounted t ht ha).drive hand speed dirX dirY

theorem setStick [Arith Binary32] (h : Rig walk) {t t' : Treadmill Binary32}
    {w' : World Binary32} {x y : Binary32} (ht : walk.treadmill = some t)
    (hset : t.setStick x y walk.world = (t', w')) :
    Rig { walk with treadmill := some t', world := w' } := by
  by_cases ha : t.activated
  · have hm := h.mounted t ht ha
    have hcases := hm.setStick ha x y
    rw [hset] at hcases
    rcases hcases with ⟨rfl, rfl, -, -⟩ | ⟨rfl, -, hm', hhooks, hkind⟩
    · exact h.congr rfl ht.symm rfl
    · constructor
      · dsimp only
        rw [hhooks, hkind]
        exact h.placed
      · intro t'' ht'' _
        cases ht''
        exact hm'
  · have hskip : t.setStick x y walk.world = (t, walk.world) := if_pos (.inl ha)
    rw [hskip] at hset
    cases hset
    exact h.congr rfl ht.symm rfl

theorem resolve (h : Rig walk) (io : WalkIo Binary32) :
    Rig { walk with world := { walk.world with
      hooks := (resolvePending (walk.rolesFor io) walk.world.hooks).1 } } where
  placed := h.placed.resolvePending (walk.rolesFor io)
  mounted t ht ha := (h.mounted t ht ha).resolve fun _ hc => if_pos hc

theorem setConnected [Arith Binary32] (h : Rig walk) {t t' : Treadmill Binary32}
    {w' : World Binary32} {connected : Bool} (ht : walk.treadmill = some t)
    (hset : t.setConnected connected walk.world = (t', w')) :
    Rig { walk with treadmill := some t', world := w' } := by
  have hstored : Rig { walk with
      treadmill := some { t with deviceIsConnected := connected } } := by
    refine ⟨h.placed, ?_⟩
    intro t'' ht'' ha
    cases ht''
    have hm := h.mounted t ht ha
    exact ⟨hm.injective, hm.typed, hm.apart, hm.waiting, hm.shows⟩
  unfold Treadmill.setConnected at hset
  dsimp only at hset
  split at hset
  · cases hset
    exact hstored
  · split at hset
    · exact hstored.setStick rfl hset
    · cases hset
      exact hstored

theorem activate (h : Rig walk) (t : Treadmill Binary32) (index : UInt32) (c : Container)
    {touch x y : Handle} (hfresh : Fresh walk.world.components touch x y) :
    let r := t.activate index c touch x y walk.world
    Rig { walk with
      treadmill := some r.1
      treadmillContainers := c :: walk.treadmillContainers
      world := r.2 } := by
  constructor
  · exact placed_createComponent _ c _ false y (placed_createComponent _ c _ false x
      (placed_createComponent _ c _ true touch h.placed))
  · intro t' ht' _
    cases ht'
    exact mounted_activate h.placed index c hfresh

theorem resolveHooks (h : Rig walk) (io : WalkIo Binary32) (now : Int) :
    Rig (walk.resolveHooks io now) := by
  unfold WalkInPlace.resolveHooks
  split
  next =>
    dsimp only
    split
    next =>
      have hresolved := h.resolve io
      split
      · exact hresolved.congr rfl rfl rfl
      · exact hresolved.congr rfl rfl rfl
    next =>
      split
      · exact h.congr rfl rfl rfl
      · exact h.congr rfl rfl rfl
  next => exact h

theorem timeOutSpeed (h : Rig walk) (now : Int) : Rig (walk.timeOutSpeed now) := by
  unfold WalkInPlace.timeOutSpeed
  split
  · exact h.congr rfl rfl rfl
  · exact h

theorem writeOutput [Arith Binary32] (h : Rig walk) (io : WalkIo Binary32) :
    Rig (walk.writeOutput io) := by
  unfold WalkInPlace.writeOutput
  dsimp only
  split
  · split
    · exact h
    next t ht =>
      exact h.setStick ht rfl
  · exact h.drive _ _ _ _

theorem connectTreadmill [Arith Binary32] (h : Rig walk) : Rig walk.connectTreadmill := by
  unfold WalkInPlace.connectTreadmill
  split
  · exact h
  next t ht => exact h.setConnected ht rfl

theorem updateWalkInPlace [Arith Binary32] (h : Rig walk) (io : WalkIo Binary32) (clock : Int) :
    Rig (walk.updateWalkInPlace io clock) := by
  have hresolved := h.resolveHooks io clock
  unfold WalkInPlace.updateWalkInPlace
  dsimp only
  split
  · exact hresolved
  · have hstamped : Rig { walk.resolveHooks io clock with lastWipOutput := clock } :=
      hresolved.congr rfl rfl rfl
    exact (hstamped.timeOutSpeed clock).writeOutput io

end Rig

theorem rig_onMessage (m : Msg) {s : Session D} (h : Rig s.walk) : Rig (onMessage m s).walk := by
  unfold onMessage
  split
  · obtain ⟨hworld, ht, hc⟩ := s.walk.assignSetting_frame m
    exact h.congr hworld ht hc
  · obtain ⟨speed, walking, hinfo⟩ := s.walk.onWipInfo_frame m s.clock
    dsimp only
    rw [hinfo]
    exact h.congr rfl rfl rfl
  · exact h

theorem rig_proceed [Arith Binary32] (accepted : Bool) {s : Session D} (h : Rig s.walk) :
    Rig (proceed accepted s).walk := by
  unfold proceed
  split
  · exact h
  · exact h.drive _ _ _ _
  · dsimp only
    unfold WalkInPlace.addTreadmill
    split
    · -- a treadmill that is new is not activated
      refine ⟨h.placed, ?_⟩
      intro t ht ha
      cases ht
      exact absurd rfl ha
    · exact h
  · exact h.connectTreadmill

theorem rig_step [Arith Binary32] (e : Event) (s : Session D) (h : Rig s.walk) :
    Rig (step e s).walk := by
  cases e with
  | wait elapsed => exact h
  | create self c name boolean k => exact h.create self c name boolean k
  | update k v =>
    simp only [step]
    split
    · exact h
    next hk => exact h.update v hk
  | activate index c touch x y =>
    simp only [step, activate]
    split
    · exact h
    next t ht =>
      split
      next hfresh => exact h.activate t index c hfresh
      next => exact h
  | deactivate =>
    refine ⟨h.placed, ?_⟩
    intro t ht ha
    obtain ⟨t', -, rfl⟩ := Option.map_eq_some_iff.mp ht
    exact absurd rfl ha
  | message m =>
    simp only [step]
    split
    · exact rig_onMessage m h
    · exact h
  | proceed accepted => exact rig_proceed accepted h
  | updateWalkInPlace io =>
    simp only [step]
    split
    · exact h.updateWalkInPlace io s.clock
    · exact h

end Rebocap.Driver.WipSafety
