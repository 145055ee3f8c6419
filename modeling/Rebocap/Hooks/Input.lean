import Mathlib.Data.Fintype.Basic
import Rebocap.Lib.Scalar

/-!
# Input hooks

vrserver's input components, the hooks that see every driver create and update them, and `Drive`,
which holds a hand controller's stick for walk-in-place. A hook call and a call of the frame
thread are each one step.

* `drive_eq`, `hold_cases` — what a call of `Drive` does
* `Stick.record_held` — an update of a stick's component is recorded
-/

namespace Rebocap.Hooks

open Lib FloatOrder Arith

variable {F : Type}

/-- There are two hands. -/
scoped instance neZero_two : NeZero 2 := ⟨by decide⟩

/-! ## Components -/

/-- `VRInputComponentHandle_t`. Zero is no component. -/
abbrev Handle := UInt64

/-- `PropertyContainerHandle_t`. -/
abbrev Container := UInt64

/-- `IVRDriverInput *`. Zero is null. -/
abbrev DriverInput := UInt64

inductive Value (F : Type) where
  | scalar (v : F)
  | boolean (v : Bool)
deriving DecidableEq

def Value.isBoolean : Value F → Bool
  | .scalar _ => false
  | .boolean _ => true

/-- What a component shows until it is written. -/
def Value.initial [Zero F] (boolean : Bool) : Value F :=
  if boolean then .boolean false else .scalar 0

/-- The components of vrserver by their handles. -/
abbrev Components (F : Type) := Handle → Option (Value F)

namespace Components

/-- vrserver can give the handle to a new component. -/
def Free (c : Components F) (h : Handle) : Prop := h ≠ 0 ∧ (c h).isNone

instance (c : Components F) (h : Handle) : Decidable (c.Free h) :=
  inferInstanceAs (Decidable (_ ∧ _))

/-- The original `CreateScalarComponent` and `CreateBooleanComponent`. -/
def create [Zero F] (c : Components F) (boolean : Bool) (h : Handle) : Components F :=
  if c.Free h then Function.update c h (some (.initial boolean)) else c

/-- The original `UpdateScalarComponent` and `UpdateBooleanComponent`: a handle that is no
component of the type is refused. -/
def write (c : Components F) (h : Handle) (v : Value F) : Components F :=
  match c h with
  | some old => if old.isBoolean = v.isBoolean then Function.update c h (some v) else c
  | none => c

/-- Which components there are, and of which type. -/
def kind (c : Components F) (h : Handle) : Option Bool := (c h).map Value.isBoolean

theorem write_cases (c : Components F) (h : Handle) (v : Value F) :
    c.write h v = c ∨ c.write h v = Function.update c h (some v) := by
  unfold write
  split
  next =>
    split
    · exact .inr rfl
    · exact .inl rfl
  next => exact .inl rfl

theorem write_other {c : Components F} {h k : Handle} {v : Value F} (hk : k ≠ h) :
    c.write h v k = c k := by
  rcases write_cases c h v with hw | hw <;> rw [hw]
  exact Function.update_of_ne hk _ _

theorem write_self {c : Components F} {h : Handle} {v : Value F}
    (hk : c.kind h = some v.isBoolean) : c.write h v h = some v := by
  obtain ⟨old, hc, ho⟩ := Option.map_eq_some_iff.mp hk
  unfold write
  rw [hc]
  dsimp only
  rw [if_pos ho, Function.update_self]

/-- To write what a component shows changes nothing. -/
theorem write_same {c : Components F} {h : Handle} {v : Value F} (hc : c h = some v) :
    c.write h v = c := by
  unfold write
  rw [hc]
  dsimp only
  rw [if_pos rfl]
  exact Function.update_eq_self_iff.mpr hc.symm

theorem write_refused {c : Components F} {h : Handle} {v : Value F}
    (hk : c.kind h ≠ some v.isBoolean) : c.write h v = c := by
  unfold write
  split
  next old hc =>
    rw [if_neg]
    intro ho
    exact hk (by rw [kind, hc, Option.map_some, ho])
  next => rfl

@[simp] theorem kind_write (c : Components F) (h : Handle) (v : Value F) :
    (c.write h v).kind = c.kind := by
  funext k
  by_cases hk : c.kind h = some v.isBoolean
  · by_cases hkh : k = h
    · subst hkh
      rw [kind, write_self hk, hk, Option.map_some]
    · rw [kind, write_other hkh, kind]
  · rw [write_refused hk]

theorem kind_eq_none {c : Components F} {h : Handle} : c.kind h = none ↔ c h = none :=
  Option.map_eq_none_iff

theorem free_iff {c : Components F} {h : Handle} : c.Free h ↔ h ≠ 0 ∧ c.kind h = none := by
  rw [Free, Option.isNone_iff_eq_none, kind_eq_none]

/-- A handle that is free is none of a component's. -/
theorem Free.ne_of_kind {c : Components F} {h k : Handle} {b : Bool} (hfree : c.Free h)
    (hk : c.kind k = some b) : k ≠ h := by
  rintro rfl
  rw [(free_iff.mp hfree).2] at hk
  cases hk

/-- What is noted of a new component leaves what is noted of the others. -/
theorem noted_of_kind {α : Type} {c : Components F} {h k : Handle} {b : Bool} (g : Handle → α)
    (a : α) (hk : c.kind k = some b) : (if c.Free h then Function.update g h a else g) k = g k := by
  split
  next hfree => exact Function.update_of_ne (hfree.ne_of_kind hk) _ _
  next => rfl

theorem create_of_free [Zero F] {c : Components F} {h : Handle} (boolean : Bool)
    (hfree : c.Free h) : c.create boolean h = Function.update c h (some (.initial boolean)) :=
  if_pos hfree

theorem create_of_not_free [Zero F] {c : Components F} {h : Handle} (boolean : Bool)
    (hfree : ¬c.Free h) : c.create boolean h = c :=
  if_neg hfree

theorem kind_create [Zero F] {c : Components F} {boolean : Bool} {h k : Handle} {b : Bool}
    (hk : c.kind k = some b) : (c.create boolean h).kind k = some b := by
  by_cases hfree : c.Free h
  · rw [create_of_free boolean hfree, kind, Function.update_of_ne (hfree.ne_of_kind hk)]
    exact hk
  · rw [create_of_not_free boolean hfree]
    exact hk

theorem kind_create_self [Zero F] {c : Components F} {h : Handle} (boolean : Bool)
    (hfree : c.Free h) : (c.create boolean h).kind h = some boolean := by
  rw [create_of_free boolean hfree, kind, Function.update_self]
  cases boolean <;> rfl

theorem create_other [Zero F] {c : Components F} {boolean : Bool} {h k : Handle} (hk : k ≠ h) :
    c.create boolean h k = c k := by
  by_cases hfree : c.Free h
  · rw [create_of_free boolean hfree, Function.update_of_ne hk]
  · rw [create_of_not_free boolean hfree]

theorem create_self [Zero F] {c : Components F} {h : Handle} (boolean : Bool)
    (hfree : c.Free h) : c.create boolean h h = some (.initial boolean) := by
  rw [create_of_free boolean hfree, Function.update_self]

/-- A creation takes no other handle. -/
theorem Free.create [Zero F] {c : Components F} {h k : Handle} (boolean : Bool) (hfree : c.Free k)
    (hk : k ≠ h) : (c.create boolean h).Free k := by
  refine ⟨hfree.1, ?_⟩
  rw [create_other hk]
  exact hfree.2

theorem create_zero [Zero F] (c : Components F) (boolean : Bool) (h : Handle) :
    c.create boolean h 0 = c 0 := by
  by_cases h0 : h = 0
  · rw [create_of_not_free boolean fun hfree => hfree.1 h0]
  · exact create_other (Ne.symm h0)

theorem create_of_some [Zero F] {c : Components F} {boolean : Bool} {h k : Handle} {v : Value F}
    (hk : c k = some v) : c.create boolean h k = some v := by
  by_cases hfree : c.Free h
  · rw [create_other (hfree.ne_of_kind (congrArg (Option.map Value.isBoolean) hk)), hk]
  · rw [create_of_not_free boolean hfree, hk]

/-- What a creation leaves depends on the other components only through their types. -/
theorem create_congr [Zero F] {c d : Components F} {boolean : Bool} {h k : Handle}
    (hkind : c.kind = d.kind) (hcd : c k = d k) : c.create boolean h k = d.create boolean h k := by
  by_cases hk : k = h
  · subst hk
    by_cases hfree : c.Free k
    · have hfree' : d.Free k := free_iff.mpr (hkind ▸ free_iff.mp hfree)
      rw [create_of_free boolean hfree, create_of_free boolean hfree', Function.update_self,
        Function.update_self]
    · have hfree' : ¬d.Free k := fun hd => hfree (free_iff.mpr (hkind ▸ free_iff.mp hd))
      rw [create_of_not_free boolean hfree, create_of_not_free boolean hfree', hcd]
  · rw [create_other hk, create_other hk, hcd]

theorem kind_create_congr [Zero F] {c d : Components F} (boolean : Bool) (h : Handle)
    (hkind : c.kind = d.kind) : (c.create boolean h).kind = (d.create boolean h).kind := by
  funext k
  by_cases hfree : c.Free h
  · have hfree' : d.Free h := free_iff.mpr (hkind ▸ free_iff.mp hfree)
    by_cases hk : k = h
    · rw [hk, kind_create_self boolean hfree, kind_create_self boolean hfree']
    · rw [kind, create_other hk, kind, create_other hk]
      exact congrFun hkind k
  · have hfree' : ¬d.Free h := fun hd => hfree (free_iff.mpr (hkind ▸ free_iff.mp hd))
    rw [create_of_not_free boolean hfree, create_of_not_free boolean hfree', hkind]

/-- What a write leaves depends on the old value only through its type. -/
theorem write_congr {c d : Components F} {h k : Handle} {v : Value F} (hkind : c.kind = d.kind)
    (hcd : c k = d k) : c.write h v k = d.write h v k := by
  by_cases hk : c.kind h = some v.isBoolean
  · by_cases hkh : k = h
    · subst hkh
      rw [write_self hk, write_self (by rw [← hkind]; exact hk)]
    · rw [write_other hkh, write_other hkh, hcd]
  · rw [write_refused hk, write_refused (by rw [← hkind]; exact hk), hcd]

end Components

/-! ## State of the hooks -/

inductive Axis where
  | x
  | y
  | touch
deriving DecidableEq

/-- Touch components are booleans, the others scalars. -/
def Axis.isBoolean : Axis → Bool
  | .touch => true
  | _ => false

instance : Fintype Axis := ⟨{.x, .y, .touch}, fun a => by cases a <;> simp⟩

structure Stick (F : Type) where
  /-- The creating driver's interface object. -/
  owner : DriverInput
  /-- The controller device the stick belongs to. -/
  container : Container
  x : Handle
  y : Handle
  touch : Handle
  realX : F
  realY : F
  realTouch : Bool

namespace Stick

def complete (s : Stick F) : Prop := s.owner ≠ 0 ∧ s.x ≠ 0 ∧ s.y ≠ 0

instance (s : Stick F) : Decidable s.complete := inferInstanceAs (Decidable (_ ∧ _))

def handle (s : Stick F) : Axis → Handle
  | .x => s.x
  | .y => s.y
  | .touch => s.touch

/-- The recorded value of a component. -/
def real (s : Stick F) : Axis → Value F
  | .x => .scalar s.realX
  | .y => .scalar s.realY
  | .touch => .boolean s.realTouch

end Stick

/-- A stick component whose hand is not known yet. -/
structure Pending where
  owner : DriverInput
  container : Container
  handle : Handle
  axis : Axis
deriving DecidableEq

structure State (F : Type) where
  installed : Bool
  /-- `vr::VRDriverInput()`. -/
  driverInput : DriverInput
  /-- 0 = left hand, 1 = right hand. -/
  sticks : Fin 2 → Stick F
  /-- The stick whose real updates are withheld. -/
  overriding : Option (Fin 2)
  writtenX : F
  writtenY : F
  pending : List Pending
  foreignComponents : Nat

def State.init [Zero F] (installed : Bool) (driverInput : DriverInput) : State F where
  installed := installed
  driverInput := driverInput
  sticks := fun _ => ⟨0, 0, 0, 0, 0, 0, 0, false⟩
  overriding := none
  writtenX := 0
  writtenY := 0
  pending := []
  foreignComponents := 0

/-- The component that a stick holds for an axis. -/
def State.slot (s : State F) (i : Fin 2) (a : Axis) : Handle := (s.sticks i).handle a

def State.setStick (s : State F) (i : Fin 2) (st : Stick F) : State F :=
  { s with sticks := Function.update s.sticks i st }

@[simp] theorem State.setStick_self (s : State F) (i : Fin 2) (st : Stick F) :
    (s.setStick i st).sticks i = st := by
  simp [State.setStick]

theorem State.setStick_other (s : State F) {i j : Fin 2} (st : Stick F) (hj : j ≠ i) :
    (s.setStick i st).sticks j = s.sticks j := by
  simp [State.setStick, hj]

/-- The hooks and the components of vrserver. -/
structure World (F : Type) where
  hooks : State F
  components : Components F

def World.init [Zero F] (installed : Bool) (driverInput : DriverInput) : World F :=
  ⟨.init installed driverInput, fun _ => none⟩

/-! ## Creating components -/

/-- `EndsWith`. -/
def endsWith (s suffix : String) : Bool := suffix.toList.isSuffixOf s.toList

/-- The axis that `Remember` reads off a component's name. -/
def axisOf (name : String) (boolean : Bool) : Option Axis :=
  if boolean then
    if endsWith name "/input/joystick/touch" ∨ endsWith name "/input/thumbstick/touch" then
      some .touch
    else none
  else if endsWith name "/input/joystick/y" ∨ endsWith name "/input/thumbstick/y" then some .y
  else if endsWith name "/input/joystick/x" ∨ endsWith name "/input/thumbstick/x" then some .x
  else none

theorem axisOf_isBoolean {name : String} {boolean : Bool} {a : Axis}
    (h : axisOf name boolean = some a) : a.isBoolean = boolean := by
  unfold axisOf at h
  split at h
  next hb =>
    split at h
    · cases h
      exact hb.symm
    · cases h
  next hb =>
    rw [Bool.not_eq_true] at hb
    split at h
    · cases h
      exact hb.symm
    · split at h
      · cases h
        exact hb.symm
      · cases h

def remember (self : DriverInput) (c : Container) (name : Option String) (h : Handle)
    (boolean : Bool) (s : State F) : State F :=
  match name with
  | none => s
  | some name =>
    let s := if self ≠ s.driverInput then
        { s with foreignComponents := s.foreignComponents + 1 }
      else s
    match axisOf name boolean with
    | none => s
    | some axis =>
      -- drop the oldest, some devices never get a role
      let kept := if s.pending.length ≥ 64 then s.pending.drop 1 else s.pending
      { s with pending := kept ++ [⟨self, c, h, axis⟩] }

/-- What `HookCreateBoolean` and `HookCreateScalar` share. `h` is the handle of the component that
vrserver creates; a handle in use stands for a call that fails. -/
def hookCreate [Zero F] (self : DriverInput) (c : Container) (name : Option String)
    (boolean : Bool) (h : Handle) (w : World F) : World F where
  hooks := if w.components.Free h then remember self c name h boolean w.hooks else w.hooks
  components := w.components.create boolean h

def hookCreateBoolean [Zero F] (self : DriverInput) (c : Container) (name : Option String)
    (h : Handle) (w : World F) : World F :=
  hookCreate self c name true h w

def hookCreateScalar [Zero F] (self : DriverInput) (c : Container) (name : Option String)
    (h : Handle) (w : World F) : World F :=
  hookCreate self c name false h w

/-! ## Updates -/

/-- `HookUpdateScalar` for one stick: none where the component is not the stick's. -/
def Stick.recordScalar (h : Handle) (v : F) (s : Stick F) : Option (Stick F) :=
  if h = 0 ∨ (h ≠ s.x ∧ h ≠ s.y) then none
  else if h = s.x then some { s with realX := v }
  else some { s with realY := v }

/-- `HookUpdateBoolean` for one stick. -/
def Stick.recordBoolean (h : Handle) (v : Bool) (s : Stick F) : Option (Stick F) :=
  if h = 0 ∨ h ≠ s.touch then none else some { s with realTouch := v }

/-- The loop of the update hooks. It says whether the update is forwarded. -/
def recordLoop (record : Stick F → Option (Stick F)) : List (Fin 2) → State F → State F × Bool
  | [], s => (s, true)
  | i :: is, s =>
    match record (s.sticks i) with
    | none => recordLoop record is s
    | some st =>
      if s.overriding = some i then (s.setStick i st, false)
      else recordLoop record is (s.setStick i st)

/-- The end of the update hooks. -/
def forward (h : Handle) (v : Value F) (r : State F × Bool) (c : Components F) : World F :=
  ⟨r.1, if r.2 then c.write h v else c⟩

def hookUpdateScalar (h : Handle) (v : F) (w : World F) : World F :=
  forward h (.scalar v) (recordLoop (Stick.recordScalar h v) [0, 1] w.hooks) w.components

def hookUpdateBoolean (h : Handle) (v : Bool) (w : World F) : World F :=
  forward h (.boolean v) (recordLoop (Stick.recordBoolean h v) [0, 1] w.hooks) w.components

/-- An update by a component's driver. -/
def hookUpdate (h : Handle) : Value F → World F → World F
  | .scalar v => hookUpdateScalar h v
  | .boolean v => hookUpdateBoolean h v

/-! ### What an update records -/

/-- A hook call for one stick, by the type of the value. -/
def Stick.record (h : Handle) : Value F → Stick F → Option (Stick F)
  | .scalar v => recordScalar h v
  | .boolean v => recordBoolean h v

def Stick.setReal (s : Stick F) : Axis → Value F → Stick F
  | .x, .scalar v => { s with realX := v }
  | .y, .scalar v => { s with realY := v }
  | .touch, .boolean v => { s with realTouch := v }
  | _, _ => s

theorem Stick.real_setReal_self (s : Stick F) {a : Axis} {v : Value F}
    (hk : a.isBoolean = v.isBoolean) : (s.setReal a v).real a = v := by
  cases a <;> cases v <;> first | rfl | cases hk

theorem Stick.real_setReal_other (s : Stick F) {a b : Axis} (v : Value F) (hb : b ≠ a) :
    (s.setReal a v).real b = s.real b := by
  cases a <;> cases v <;> cases b <;> first | rfl | exact absurd rfl hb

theorem Stick.record_eq_none {s : Stick F} {h : Handle} {v : Value F}
    (hs : ∀ a, a.isBoolean = v.isBoolean → h ≠ 0 → s.handle a ≠ h) : s.record h v = none := by
  by_cases h0 : h = 0
  · cases v
    · exact if_pos (.inl h0)
    · exact if_pos (.inl h0)
  · cases v with
    | scalar v => exact if_pos (.inr ⟨(hs .x rfl h0).symm, (hs .y rfl h0).symm⟩)
    | boolean v => exact if_pos (.inr (hs .touch rfl h0).symm)

theorem Stick.record_held {s : Stick F} {h : Handle} {v : Value F} {a : Axis}
    (hinj : ∀ b, s.handle b = s.handle a → b = a) (h0 : h ≠ 0) (ha : s.handle a = h)
    (hk : a.isBoolean = v.isBoolean) : s.record h v = some (s.setReal a v) := by
  subst ha
  cases v with
  | scalar v =>
    cases a with
    | x =>
      have hn : ¬(s.x = 0 ∨ s.x ≠ s.x ∧ s.x ≠ s.y) := not_or.mpr ⟨h0, by simp⟩
      exact (if_neg hn).trans (if_pos rfl)
    | y =>
      have hn : ¬(s.y = 0 ∨ s.y ≠ s.x ∧ s.y ≠ s.y) := not_or.mpr ⟨h0, by simp⟩
      have hx : s.y ≠ s.x := fun he => Axis.noConfusion (hinj .x he.symm)
      exact (if_neg hn).trans (if_neg hx)
    | touch => cases hk
  | boolean v =>
    cases a with
    | x => cases hk
    | y => cases hk
    | touch =>
      have hn : ¬(s.touch = 0 ∨ s.touch ≠ s.touch) := not_or.mpr ⟨h0, by simp⟩
      exact if_neg hn

theorem hookUpdate_eq (h : Handle) (v : Value F) (w : World F) :
    hookUpdate h v w = forward h v (recordLoop (Stick.record h v) [0, 1] w.hooks) w.components := by
  cases v <;> rfl

/-- An update changes the recorded values only. -/
theorem recordLoop_frame (record : Stick F → Option (Stick F)) :
    ∀ (is : List (Fin 2)) (s : State F),
      ∃ sticks, (recordLoop record is s).1 = { s with sticks := sticks } := by
  intro is
  induction is with
  | nil =>
    intro s
    exact ⟨s.sticks, rfl⟩
  | cons i is ih =>
    intro s
    unfold recordLoop
    split
    · exact ih s
    next st _ =>
      split
      · exact ⟨_, rfl⟩
      · obtain ⟨sticks, h⟩ := ih (s.setStick i st)
        exact ⟨sticks, h⟩

theorem hookUpdate_frame (h : Handle) (v : Value F) (w : World F) :
    ∃ sticks, (hookUpdate h v w).hooks = { w.hooks with sticks := sticks } := by
  rw [hookUpdate_eq]
  exact recordLoop_frame _ _ _

/-! ## Hands -/

/-- `vr::TrackedControllerRole_LeftHand` and its neighbours. -/
def leftHandRole : Int := 1
def rightHandRole : Int := 2
def treadmillRole : Int := 4

/-- The stick of a role, in `ResolvePending`. -/
def handOfRole (role : Int) : Option (Fin 2) :=
  if role ≠ leftHandRole ∧ role ≠ rightHandRole then none
  else some (if role = leftHandRole then 0 else 1)

def Stick.capture (p : Pending) (s : Stick F) : Stick F :=
  let s := { s with owner := p.owner, container := p.container }
  match p.axis with
  | .x => { s with x := p.handle }
  | .y => { s with y := p.handle }
  | .touch => { s with touch := p.handle }

/-- The loop of `ResolvePending`. `roles` is the role property of a container, none where it
cannot be read. -/
def resolveLoop (roles : Container → Option Int) (keep : List Pending) (completed : Bool) :
    List Pending → State F → State F × List Pending × Bool
  | [], s => (s, keep, completed)
  | p :: todo, s =>
    match roles p.container with
    | none => resolveLoop roles (keep ++ [p]) completed todo s -- role not set yet
    | some role =>
      match handOfRole role with
      | none => resolveLoop roles keep completed todo s
      | some i =>
        let st := (s.sticks i).capture p
        resolveLoop roles keep
          (completed || (!decide (s.sticks i).complete && decide st.complete)) todo
          (s.setStick i st)

/-- The result says whether a stick became complete. -/
def resolvePending (roles : Container → Option Int) (s : State F) : State F × Bool :=
  let todo := s.pending
  let s := { s with pending := [] }
  if todo.isEmpty then (s, false)
  else
    let (s, keep, completed) := resolveLoop roles [] false todo s
    ({ s with pending := s.pending ++ keep }, completed)

/-! ## Driving a stick -/

section Drive

variable [FloatOrder F] [Arith F]

/-- The values of a stick, written to its components. -/
def Components.writeStick (c : Components F) (s : Stick F) (x y : F) (touch : Bool) :
    Components F :=
  let c := (c.write s.x (.scalar x)).write s.y (.scalar y)
  if s.touch ≠ 0 then c.write s.touch (.boolean touch) else c

/-- A deflected real stick sets the direction. -/
def driveVector (rx ry speed dirX dirY : F) : F × F :=
  let len := hypot rx ry
  if literal 15 2 < len then (rx / len * speed, ry / len * speed)
  else (dirX * speed, dirY * speed)

/-- The stick that `Drive` is to hold: none where it is to release. -/
def driven (s : State F) (hand : Int) (speed : F) : Option (Fin 2) :=
  if speed ≤ 0 then none
  else if hand = 0 ∧ (s.sticks 0).complete then some 0
  else if hand = 1 ∧ (s.sticks 1).complete then some 1
  else none

/-- The real values are written back and updates pass through again. -/
def release (i : Fin 2) (w : World F) : World F where
  hooks := { w.hooks with overriding := none }
  components :=
    let s := w.hooks.sticks i
    w.components.writeStick s s.realX s.realY s.realTouch

/-- `Drive` with a speed of zero. -/
def releaseCurrent (w : World F) : World F :=
  match w.hooks.overriding with
  | none => w
  | some i => release i w

/-- The second half of `Drive`, after the other stick is released. -/
def hold (i : Fin 2) (speed dirX dirY : F) (w : World F) : World F :=
  let s := w.hooks.sticks i
  let v := driveVector s.realX s.realY speed dirX dirY
  if w.hooks.overriding = some i ∧ v.1 == w.hooks.writtenX ∧ v.2 == w.hooks.writtenY then w
  else
    { hooks := { w.hooks with overriding := some i, writtenX := v.1, writtenY := v.2 }
      components := w.components.writeStick s v.1 v.2 true }

def drive (hand : Int) (speed dirX dirY : F) (w : World F) : World F :=
  match driven w.hooks hand speed with
  | none => releaseCurrent w
  | some i =>
    -- hand changed, release the other stick
    let w := if w.hooks.overriding ≠ some i then releaseCurrent w else w
    hold i speed dirX dirY w

/-! ### What a call of `Drive` does -/

/-- The stick that a call of `Drive` releases. -/
def released (s : State F) (hand : Int) (speed : F) : Option (Fin 2) :=
  if s.overriding = driven s hand speed then none else s.overriding

/-- **`Drive` releases the stick that it is not to hold any more, and holds the one that it is
to.** -/
theorem drive_eq (hand : Int) (speed dirX dirY : F) (w : World F) :
    drive hand speed dirX dirY w =
      let w' := match released w.hooks hand speed with
        | none => w
        | some i => release i w
      match driven w.hooks hand speed with
      | none => w'
      | some i => hold i speed dirX dirY w' := by
  unfold drive released releaseCurrent
  cases hd : driven w.hooks hand speed with
  | none => cases ho : w.hooks.overriding <;> rfl
  | some i =>
    cases ho : w.hooks.overriding with
    | none => rfl
    | some j =>
      dsimp only
      by_cases hij : some j = some i
      · rw [if_neg (not_not.mpr hij), if_pos hij]
      · rw [if_pos hij, if_neg hij]

omit [Arith F] in
theorem overriding_of_released {s : State F} {hand : Int} {speed : F} {i : Fin 2}
    (h : released s hand speed = some i) : s.overriding = some i := by
  unfold released at h
  split at h
  · cases h
  · exact h

omit [Arith F] in
theorem overriding_of_not_released {s : State F} {hand : Int} {speed : F}
    (h : released s hand speed = none) :
    s.overriding = none ∨ s.overriding = driven s hand speed := by
  unfold released at h
  split at h
  next he => exact .inr he
  next => exact .inl h

theorem hold_cases (i : Fin 2) (speed dirX dirY : F) (w : World F) :
    (w.hooks.overriding = some i ∧ hold i speed dirX dirY w = w) ∨
      ∃ x y, hold i speed dirX dirY w =
        { hooks := { w.hooks with overriding := some i, writtenX := x, writtenY := y }
          components := w.components.writeStick (w.hooks.sticks i) x y true } := by
  unfold hold
  dsimp only
  split
  next h => exact .inl ⟨h.1, rfl⟩
  next => exact .inr ⟨_, _, rfl⟩

/-- `Drive` changes which stick is held, and the values that it wrote last. -/
theorem drive_frame (hand : Int) (speed dirX dirY : F) (w : World F) :
    ∃ o x y, (drive hand speed dirX dirY w).hooks =
      { w.hooks with overriding := o, writtenX := x, writtenY := y } := by
  have hrelease : ∃ o, (match released w.hooks hand speed with
      | none => w
      | some i => release i w).hooks = { w.hooks with overriding := o } := by
    cases released w.hooks hand speed with
    | none => exact ⟨w.hooks.overriding, rfl⟩
    | some i => exact ⟨none, rfl⟩
  rw [drive_eq]
  obtain ⟨o, ho⟩ := hrelease
  generalize (match released w.hooks hand speed with
      | none => w
      | some i => release i w) = w' at ho
  cases driven w.hooks hand speed with
  | none => exact ⟨o, w.hooks.writtenX, w.hooks.writtenY, ho⟩
  | some i =>
    dsimp only
    rcases hold_cases i speed dirX dirY w' with ⟨-, hw⟩ | ⟨x, y, hw⟩
    · rw [hw]
      exact ⟨o, w.hooks.writtenX, w.hooks.writtenY, ho⟩
    · rw [hw, ho]
      exact ⟨some i, x, y, rfl⟩

end Drive

end Rebocap.Hooks
