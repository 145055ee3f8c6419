import Rebocap.Hooks.Handles
import Rebocap.Hooks.Pose

/-!
# `Treadmill`

Walk-in-place output as a controller of its own. Its stick's components are the driver's, so they
are created and written through the hooks like any other's.

* `setStick_eq`, `Mounted.setStick` — what `SetStick` writes and leaves in the components
* `mounted_activate` — the components of an activated treadmill are in no captured stick
-/

namespace Rebocap.Driver

open Lib FloatOrder Arith Hooks

variable {F : Type}

/-! ## Components of the driver -/

/-- `CreateBooleanComponent` and `CreateScalarComponent` in vrserver's vtable. -/
def createComponent [Zero F] (self : DriverInput) (c : Container) (name : Option String)
    (boolean : Bool) (h : Handle) (w : World F) : World F :=
  if w.hooks.installed then hookCreate self c name boolean h w
  else { w with components := w.components.create boolean h }

/-- `UpdateScalarComponent` and `UpdateBooleanComponent` in vrserver's vtable. -/
def updateComponent (h : Handle) (v : Value F) (w : World F) : World F :=
  if w.hooks.installed then hookUpdate h v w
  else { w with components := w.components.write h v }

theorem updateComponent_free {s : State F} {h : Handle} (c : Components F) (v : Value F)
    (hfree : ∀ i a, s.slot i a ≠ h) : updateComponent h v ⟨s, c⟩ = ⟨s, c.write h v⟩ := by
  unfold updateComponent
  split
  · exact hookUpdate_free fun i a _ _ => hfree i a
  · rfl

theorem updateComponent_hooks (h : Handle) (v : Value F) (w : World F) :
    ∃ sticks, (updateComponent h v w).hooks = { w.hooks with sticks := sticks } := by
  unfold updateComponent
  split
  · exact hookUpdate_frame h v w
  · exact ⟨w.hooks.sticks, rfl⟩

theorem updateComponent_other {w : World F} {h k : Handle} (v : Value F) (hk : k ≠ h) :
    (updateComponent h v w).components k = w.components k := by
  unfold updateComponent
  split
  · exact hookUpdate_other v hk
  · exact Components.write_other hk

theorem placed_updateComponent {w : World F} {waiting : List Pending} (h : Handle) (v : Value F)
    (hw : Placed w.components.kind w.hooks.slot waiting) :
    Placed (updateComponent h v w).components.kind (updateComponent h v w).hooks.slot waiting := by
  unfold updateComponent
  split
  · rw [kind_hookUpdate, slot_hookUpdate]
    exact hw
  · rw [Components.kind_write]
    exact hw

/-! ## The device -/

structure Treadmill (F : Type) where
  index : UInt32
  deviceIsConnected : Bool
  x : Handle
  y : Handle
  touch : Handle
  lastX : F
  lastY : F

namespace Treadmill

def init [Zero F] : Treadmill F where
  index := PoseHooks.indexInvalid
  deviceIsConnected := false
  x := 0
  y := 0
  touch := 0
  lastX := 0
  lastY := 0

def activated (t : Treadmill F) : Prop := t.index ≠ PoseHooks.indexInvalid

instance (t : Treadmill F) : Decidable t.activated := inferInstanceAs (Decidable (_ ≠ _))

def handle (t : Treadmill F) : Axis → Handle
  | .x => t.x
  | .y => t.y
  | .touch => t.touch

/-- `Activate`, of whose components the driver only uses the joystick's. `touch`, `x` and `y` are
the handles that vrserver gives them. -/
def activate [Zero F] (index : UInt32) (c : Container) (touch x y : Handle) (t : Treadmill F)
    (w : World F) : Treadmill F × World F :=
  let self := w.hooks.driverInput
  let w := createComponent self c (some "/input/joystick/touch") true touch w
  let w := createComponent self c (some "/input/joystick/x") false x w
  let w := createComponent self c (some "/input/joystick/y") false y w
  ({ t with index := index, touch := touch, x := x, y := y }, w)

def deactivate (t : Treadmill F) : Treadmill F := { t with index := PoseHooks.indexInvalid }

variable [FloatOrder F] [Arith F]

def setStick (x y : F) (t : Treadmill F) (w : World F) : Treadmill F × World F :=
  if ¬t.activated ∨ (x == t.lastX ∧ y == t.lastY) then (t, w)
  else
    let w := updateComponent t.x (.scalar x) w
    let w := updateComponent t.y (.scalar y) w
    let w := updateComponent t.touch (.boolean (literal 3 2 < hypot x y)) w
    ({ t with lastX := x, lastY := y }, w)

/-- `SetStick` that skips nothing. -/
def writeStick (x y : F) (t : Treadmill F) (w : World F) : World F :=
  if ¬t.activated then w
  else
    let w := updateComponent t.x (.scalar x) w
    let w := updateComponent t.y (.scalar y) w
    updateComponent t.touch (.boolean (literal 3 2 < hypot x y)) w

/-- The values compare as equal to the last ones. -/
def Remembers (t : Treadmill F) (x y : F) : Prop := x == t.lastX ∧ y == t.lastY

instance (t : Treadmill F) (x y : F) : Decidable (t.Remembers x y) :=
  inferInstanceAs (Decidable (_ ∧ _))

theorem setStick_eq (x y : F) (t : Treadmill F) (w : World F) :
    t.setStick x y w = if t.activated ∧ ¬t.Remembers x y then
      ({ t with lastX := x, lastY := y }, t.writeStick x y w) else (t, w) := by
  unfold setStick writeStick Remembers
  by_cases ha : t.activated <;> by_cases hs : x == t.lastX ∧ y == t.lastY <;> simp [ha, hs]

/-- The state is stored even before activation, because SteamVR may call `Activate` later. -/
def setConnected (connected : Bool) (t : Treadmill F) (w : World F) : Treadmill F × World F :=
  let t := { t with deviceIsConnected := connected }
  if ¬t.activated then (t, w)
  else if ¬connected then t.setStick 0 0 w
  else (t, w)

end Treadmill

/-! ## Its components -/

/-- The joystick's components show the values. -/
def Shows (t : Treadmill F) (c : Components F) (x y : F) : Prop :=
  c t.x = some (.scalar x) ∧ c t.y = some (.scalar y)

/-- The components hold the stick. -/
def Treadmill.Holds (t : Treadmill F) (c : Components F) (x y : F) (touch : Bool) : Prop :=
  ∀ a, c (t.handle a) = some (axisValue x y touch a)

/-- The components of an activated treadmill: no stick holds them, none can come to hold them, and
they show what `SetStick` wrote last, or nothing was written since they were created. `own` are
the containers of the treadmill. -/
structure Mounted [Zero F] (t : Treadmill F) (w : World F) (own : List Container) : Prop where
  injective : ∀ {a b}, t.handle a = t.handle b → a = b
  typed : ∀ a, w.components.kind (t.handle a) = some a.isBoolean
  apart : ∀ a i b, w.hooks.slot i b ≠ t.handle a
  waiting : ∀ p ∈ w.hooks.pending, ∀ a, p.handle = t.handle a → p.container ∈ own
  shows : Shows t w.components t.lastX t.lastY ∨ Shows t w.components 0 0

namespace Mounted

variable {t : Treadmill F} {w w' : World F} {own own' : List Container}

/-- What leaves the treadmill's components alone. -/
theorem frame [Zero F] (hm : Mounted t w own)
    (hc : ∀ a, w'.components (t.handle a) = w.components (t.handle a))
    (hslot : ∀ a i b, w'.hooks.slot i b ≠ t.handle a)
    (hwaiting : ∀ p ∈ w'.hooks.pending, ∀ a, p.handle = t.handle a → p.container ∈ own') :
    Mounted t w' own' where
  injective := hm.injective
  typed a := by
    rw [← hm.typed a, Components.kind, hc a, Components.kind]
  apart := hslot
  waiting := hwaiting
  shows := by
    have hx : w'.components t.x = w.components t.x := hc .x
    have hy : w'.components t.y = w.components t.y := hc .y
    unfold Shows
    rw [hx, hy]
    exact hm.shows

theorem create [Zero F] (hm : Mounted t w own) (self : DriverInput) (c : Container)
    (name : Option String) (boolean : Bool) (h : Handle) :
    Mounted t (createComponent self c name boolean h w) own := by
  have hvalue : ∀ a, (w.components.create boolean h) (t.handle a) = w.components (t.handle a) := by
    intro a
    obtain ⟨v, hv, -⟩ := Option.map_eq_some_iff.mp (hm.typed a)
    rw [hv]
    exact Components.create_of_some hv
  unfold createComponent
  split
  · obtain ⟨n, waiting, hhooks, hwaiting⟩ := hookCreate_frame self c name boolean h w
    refine hm.frame hvalue ?_ ?_
    · rw [hhooks]
      exact hm.apart
    · rw [hhooks]
      intro p hp a ha
      rcases hwaiting p hp with hp | ⟨hfree, hh, -⟩
      · exact hm.waiting p hp a ha
      · exact absurd (ha.symm.trans hh) (hfree.ne_of_kind (hm.typed a))
  · exact hm.frame hvalue hm.apart hm.waiting

/-- An update of another driver's component. -/
theorem update [Zero F] (hm : Mounted t w own) {h : Handle} (v : Value F)
    (hh : ∀ a, t.handle a ≠ h) : Mounted t (updateComponent h v w) own := by
  unfold updateComponent
  split
  · obtain ⟨sticks, hhooks⟩ := hookUpdate_frame h v w
    refine hm.frame (fun a => hookUpdate_other v (hh a)) ?_ ?_
    · rw [slot_hookUpdate]
      exact hm.apart
    · rw [hhooks]
      exact hm.waiting
  · exact hm.frame (fun a => Components.write_other (hh a)) hm.apart hm.waiting

/-- The components of the treadmill's containers are never captured. -/
theorem resolve [Zero F] (hm : Mounted t w own) {roles : Container → Option Int}
    (hroles : ∀ c ∈ own, roles c = some treadmillRole) :
    Mounted t { w with hooks := (resolvePending roles w.hooks).1 } own := by
  have hkept := resolvePending_invariant roles
    (fun s waiting => (∀ a i b, s.slot i b ≠ t.handle a) ∧
      ∀ p ∈ waiting, ∀ a, p.handle = t.handle a → p.container ∈ own)
    ?_ ?_ ?_ ⟨hm.apart, hm.waiting⟩
  · exact hm.frame (fun _ => rfl) hkept.1 hkept.2
  · intro s waiting waiting' hs
    exact hs
  · rintro s keep p todo ⟨hapart, hwaiting⟩
    have hsub : (keep ++ todo).Sublist (keep ++ p :: todo) := by simp
    exact ⟨hapart, fun q hq => hwaiting q (hsub.subset hq)⟩
  · rintro s keep p todo role i hrole hi ⟨hapart, hwaiting⟩
    have hsub : (keep ++ todo).Sublist (keep ++ p :: todo) := by simp
    refine ⟨?_, fun q hq => hwaiting q (hsub.subset hq)⟩
    intro a j b
    rw [slot_capture]
    by_cases hj : j = i ∧ b = p.axis
    · rw [hj.1, hj.2, captureSlot_self]
      intro ha
      rw [hroles p.container (hwaiting p (by simp) a ha), Option.some.injEq] at hrole
      subst hrole
      cases hi
    · rw [captureSlot_other hj]
      exact hapart a j b

theorem drive [FloatOrder F] [Arith F] (hm : Mounted t w own) (hand : Int)
    (speed dirX dirY : F) : Mounted t (drive hand speed dirX dirY w) own := by
  obtain ⟨o, x, y, hhooks⟩ := drive_frame hand speed dirX dirY w
  refine hm.frame (fun a => drive_other hand speed dirX dirY fun i b => hm.apart a i b) ?_ ?_
  · rw [hhooks]
    exact hm.apart
  · rw [hhooks]
    exact hm.waiting

/-- No captured stick holds the components, so each is written as it is. -/
theorem writeStick_eq [FloatOrder F] [Arith F] (hm : Mounted t w own) (ha : t.activated)
    (x y : F) :
    t.writeStick x y w = ⟨w.hooks, ((w.components.write t.x (.scalar x)).write t.y
      (.scalar y)).write t.touch (.boolean (literal 3 2 < hypot x y))⟩ := by
  obtain ⟨hooks, c⟩ := w
  have hx : ∀ i b, hooks.slot i b ≠ t.x := hm.apart .x
  have hy : ∀ i b, hooks.slot i b ≠ t.y := hm.apart .y
  have htouch : ∀ i b, hooks.slot i b ≠ t.touch := hm.apart .touch
  unfold Treadmill.writeStick
  rw [if_neg (not_not.mpr ha)]
  dsimp only
  rw [updateComponent_free _ _ hx, updateComponent_free _ _ hy, updateComponent_free _ _ htouch]

/-- **What is written is in the components.** -/
theorem holds_writeStick [FloatOrder F] [Arith F] (hm : Mounted t w own) (ha : t.activated)
    (x y : F) : t.Holds (t.writeStick x y w).components x y (literal 3 2 < hypot x y) := by
  have hne : ∀ {a b}, a ≠ b → t.handle a ≠ t.handle b := fun hab he => hab (hm.injective he)
  have hxy : t.x ≠ t.y := hne (a := .x) (b := .y) (by decide)
  have hxtouch : t.x ≠ t.touch := hne (a := .x) (b := .touch) (by decide)
  have hytouch : t.y ≠ t.touch := hne (a := .y) (b := .touch) (by decide)
  rw [hm.writeStick_eq ha]
  intro a
  cases a with
  | x =>
    show Components.write _ _ _ t.x = _
    rw [Components.write_other hxtouch, Components.write_other hxy]
    exact Components.write_self (hm.typed .x)
  | y =>
    show Components.write _ _ _ t.y = _
    rw [Components.write_other hytouch]
    refine Components.write_self ?_
    rw [Components.kind_write]
    exact hm.typed .y
  | touch =>
    refine Components.write_self ?_
    simp only [Components.kind_write]
    exact hm.typed .touch

/-- **`SetStick` leaves the values in the components**, or they are there already: it skips the
values of the last call. -/
theorem setStick [FloatOrder F] [Arith F] (hm : Mounted t w own) (ha : t.activated) (x y : F) :
    let (t', w') := t.setStick x y w
    (t' = t ∧ w' = w ∧ (x == t.lastX) = true ∧ (y == t.lastY) = true) ∨
      (t' = { t with lastX := x, lastY := y } ∧ Shows t w'.components x y ∧
        Mounted t' w' own ∧ w'.hooks = w.hooks ∧ w'.components.kind = w.components.kind) := by
  rw [Treadmill.setStick_eq]
  by_cases hsame : t.Remembers x y
  · rw [if_neg fun h => h.2 hsame]
    exact .inl ⟨rfl, rfl, hsame.1, hsame.2⟩
  · rw [if_pos ⟨ha, hsame⟩]
    have hholds := hm.holds_writeStick ha x y
    have hshows : Shows t (t.writeStick x y w).components x y := ⟨hholds .x, hholds .y⟩
    have hhooks : (t.writeStick x y w).hooks = w.hooks := by rw [hm.writeStick_eq ha]
    have hkind : (t.writeStick x y w).components.kind = w.components.kind := by
      rw [hm.writeStick_eq ha]
      simp only [Components.kind_write]
    refine .inr ⟨rfl, hshows, ⟨hm.injective, ?_, ?_, ?_, .inl hshows⟩, hhooks, hkind⟩
    · intro a
      rw [hkind]
      exact hm.typed a
    · rw [hhooks]
      exact hm.apart
    · rw [hhooks]
      exact hm.waiting

end Mounted

/-! ## Activation -/

section Create

variable [Zero F] (self : DriverInput) (c : Container) (name : Option String) (boolean : Bool)
  (h : Handle) (w : World F)

theorem createComponent_components :
    (createComponent self c name boolean h w).components = w.components.create boolean h := by
  unfold createComponent
  split <;> rfl

theorem createComponent_hooks :
    ∃ n waiting, (createComponent self c name boolean h w).hooks =
      { w.hooks with foreignComponents := n, pending := waiting } := by
  unfold createComponent
  split
  · obtain ⟨n, waiting, hhooks, -⟩ := hookCreate_frame self c name boolean h w
    exact ⟨n, waiting, hhooks⟩
  · exact ⟨w.hooks.foreignComponents, w.hooks.pending, rfl⟩

theorem createComponent_slot :
    (createComponent self c name boolean h w).hooks.slot = w.hooks.slot := by
  obtain ⟨n, waiting, hhooks⟩ := createComponent_hooks self c name boolean h w
  rw [hhooks]
  rfl

variable {self c name boolean h w} in
theorem createComponent_waiting {p : Pending}
    (hp : p ∈ (createComponent self c name boolean h w).hooks.pending) :
    p ∈ w.hooks.pending ∨ p.container = c := by
  unfold createComponent at hp
  split at hp
  · obtain ⟨n, waiting, hhooks, hwaiting⟩ := hookCreate_frame self c name boolean h w
    rw [hhooks] at hp
    rcases hwaiting p hp with hp | ⟨-, -, -, hc⟩
    · exact .inl hp
    · exact .inr hc
  · exact .inl hp

end Create

/-- The handles that vrserver gives to the components of an activation. -/
structure Fresh (c : Components F) (touch x y : Handle) : Prop where
  touch_free : c.Free touch
  x_free : c.Free x
  y_free : c.Free y
  touch_x : touch ≠ x
  touch_y : touch ≠ y
  x_y : x ≠ y

instance (c : Components F) (touch x y : Handle) : Decidable (Fresh c touch x y) :=
  decidable_of_iff (c.Free touch ∧ c.Free x ∧ c.Free y ∧ touch ≠ x ∧ touch ≠ y ∧ x ≠ y)
    ⟨fun ⟨h1, h2, h3, h4, h5, h6⟩ => ⟨h1, h2, h3, h4, h5, h6⟩,
      fun ⟨h1, h2, h3, h4, h5, h6⟩ => ⟨h1, h2, h3, h4, h5, h6⟩⟩

theorem placed_createComponent [Zero F] {w : World F} (self : DriverInput) (c : Container)
    (name : Option String) (boolean : Bool) (h : Handle)
    (hw : Placed w.components.kind w.hooks.slot w.hooks.pending) :
    let w' := createComponent self c name boolean h w
    Placed w'.components.kind w'.hooks.slot w'.hooks.pending := by
  unfold createComponent
  split
  · exact hw.hookCreate self c name boolean h
  · exact hw.grow fun _ _ => Components.kind_create

/-- What an activation's components show. -/
theorem activate_components [Zero F] (t : Treadmill F) {w : World F} (index : UInt32)
    (c : Container) {touch x y : Handle} (hfresh : Fresh w.components touch x y) :
    let (t', w') := t.activate index c touch x y w
    w'.components t'.touch = some (.boolean false) ∧ Shows t' w'.components 0 0 := by
  unfold Treadmill.activate Shows
  dsimp only
  simp only [createComponent_components]
  refine ⟨?_, ?_, ?_⟩
  · rw [Components.create_other hfresh.touch_y, Components.create_other hfresh.touch_x,
      Components.create_self true hfresh.touch_free, Value.initial, if_pos rfl]
  · rw [Components.create_other hfresh.x_y,
      Components.create_self false (hfresh.x_free.create true hfresh.touch_x.symm), Value.initial,
      if_neg Bool.false_ne_true]
  · rw [Components.create_self false
      ((hfresh.y_free.create true hfresh.touch_y.symm).create false hfresh.x_y.symm),
      Value.initial, if_neg Bool.false_ne_true]

/-- The hooks see an activation as new components only. -/
theorem activate_hooks [Zero F] (t : Treadmill F) (w : World F) (index : UInt32) (c : Container)
    (touch x y : Handle) :
    ∃ n waiting, (t.activate index c touch x y w).2.hooks =
      { w.hooks with foreignComponents := n, pending := waiting } := by
  unfold Treadmill.activate
  dsimp only
  obtain ⟨_, _, h1⟩ := createComponent_hooks w.hooks.driverInput c
    (some "/input/joystick/touch") true touch w
  generalize createComponent w.hooks.driverInput c (some "/input/joystick/touch") true touch w
    = w1 at h1
  obtain ⟨_, _, h2⟩ := createComponent_hooks w.hooks.driverInput c
    (some "/input/joystick/x") false x w1
  generalize createComponent w.hooks.driverInput c (some "/input/joystick/x") false x w1 = w2 at h2
  obtain ⟨n, waiting, h3⟩ := createComponent_hooks w.hooks.driverInput c
    (some "/input/joystick/y") false y w2
  exact ⟨n, waiting, by rw [h3, h2, h1]⟩

/-- **An activation makes components of the treadmill's own**, at zero. -/
theorem mounted_activate [Zero F] {t : Treadmill F} {w : World F} {own : List Container}
    (hw : Placed w.components.kind w.hooks.slot w.hooks.pending) (index : UInt32) (c : Container)
    {touch x y : Handle} (hfresh : Fresh w.components touch x y) :
    let (t', w') := t.activate index c touch x y w
    Mounted t' w' (c :: own) := by
  obtain ⟨htouch, hx, hy⟩ := activate_components t index c hfresh
  have hnew : ∀ a k, Treadmill.handle { t with index := index, touch := touch, x := x, y := y } a
      = k → w.components.Free k := by
    intro a k ha
    subst ha
    cases a with
    | x => exact hfresh.x_free
    | y => exact hfresh.y_free
    | touch => exact hfresh.touch_free
  refine ⟨?_, ?_, ?_, ?_, .inr ⟨hx, hy⟩⟩
  · intro a b hab
    cases a <;> cases b <;> first
      | rfl
      | exact absurd hab hfresh.x_y
      | exact absurd hab.symm hfresh.x_y
      | exact absurd hab hfresh.touch_x
      | exact absurd hab.symm hfresh.touch_x
      | exact absurd hab hfresh.touch_y
      | exact absurd hab.symm hfresh.touch_y
  · intro a
    cases a with
    | x => exact congrArg (Option.map Value.isBoolean) hx
    | y => exact congrArg (Option.map Value.isBoolean) hy
    | touch => exact congrArg (Option.map Value.isBoolean) htouch
  · intro a i b hib
    rw [createComponent_slot, createComponent_slot, createComponent_slot] at hib
    have hfree := hnew a _ hib.symm
    exact hfree.ne_of_kind (hw.typed hfree.1) rfl
  · intro p hp a ha
    rcases createComponent_waiting hp with hp | hc
    · rcases createComponent_waiting hp with hp | hc
      · rcases createComponent_waiting hp with hp | hc
        · exact absurd rfl ((hnew a _ ha.symm).ne_of_kind (hw.waiting_typed p hp).2)
        · exact hc ▸ List.mem_cons_self
      · exact hc ▸ List.mem_cons_self
    · exact hc ▸ List.mem_cons_self

end Rebocap.Driver
