import Rebocap.Hooks.Handles
import Rebocap.Lib.RatScalar
import Rebocap.Lib.Run

/-!
# What a stick is made of

`ResolvePending` looks at one component at a time and at its role alone. So the parts of a stick
are the last components that waited for each axis of the hand, and its owner and container are of
the last one of all.

* `resolvePending_slot`, `resolvePending_owner` — the stick after `ResolvePending`
* `CaptureSession.onePhysical_iff` — when a complete stick is one physical stick
* `CaptureSession.not_onePhysical` — two controllers that report the left hand
-/

namespace Rebocap.Hooks

open Lib

variable {F : Type}

/-! ## What is captured -/

/-- The components of a list whose role is the hand's. -/
def caught (roles : Container → Option Int) (i : Fin 2) (todo : List Pending) : List Pending :=
  todo.filter fun p => (roles p.container).bind handOfRole = some i

/-- The last component that is captured for a hand. -/
def lastOf (roles : Container → Option Int) (i : Fin 2) (todo : List Pending) : Option Pending :=
  (caught roles i todo).getLast?

/-- The last component that is captured for an axis of a hand. -/
def lastFor (roles : Container → Option Int) (i : Fin 2) (a : Axis) (todo : List Pending) :
    Option Pending :=
  ((caught roles i todo).filter fun p => p.axis = a).getLast?

theorem elim_getLast?_cons {α β : Type} (a : α) (l : List α) (b : β) (f : α → β) :
    (a :: l).getLast?.elim b f = l.getLast?.elim (f a) f := by
  rw [List.getLast?_cons]
  cases l.getLast? <;> rfl

section Caught

variable {roles : Container → Option Int} {p : Pending} {todo : List Pending} {i : Fin 2}

theorem caught_cons_self (h : (roles p.container).bind handOfRole = some i) :
    caught roles i (p :: todo) = p :: caught roles i todo :=
  List.filter_cons_of_pos (by simpa using h)

theorem caught_cons_other (h : (roles p.container).bind handOfRole ≠ some i) :
    caught roles i (p :: todo) = caught roles i todo :=
  List.filter_cons_of_neg (by simpa using h)

/-- The first component is the last one for an axis where there is no other. -/
theorem elim_lastFor_cons {β : Type} {a : Axis} (b : β) (f : Pending → β) :
    (lastFor roles i a (p :: todo)).elim b f = (lastFor roles i a todo).elim
      (if (roles p.container).bind handOfRole = some i ∧ p.axis = a then f p else b) f := by
  unfold lastFor
  by_cases hi : (roles p.container).bind handOfRole = some i
  · rw [caught_cons_self hi]
    by_cases ha : p.axis = a
    · rw [List.filter_cons_of_pos (by simpa using ha), elim_getLast?_cons, if_pos ⟨hi, ha⟩]
    · rw [List.filter_cons_of_neg (by simpa using ha), if_neg fun h => ha h.2]
  · rw [caught_cons_other hi, if_neg fun h => hi h.1]

theorem elim_lastOf_cons {β : Type} (b : β) (f : Pending → β) :
    (lastOf roles i (p :: todo)).elim b f = (lastOf roles i todo).elim
      (if (roles p.container).bind handOfRole = some i then f p else b) f := by
  unfold lastOf
  by_cases hi : (roles p.container).bind handOfRole = some i
  · rw [caught_cons_self hi, elim_getLast?_cons, if_pos hi]
  · rw [caught_cons_other hi, if_neg hi]

theorem lastFor_mem {a : Axis} (h : lastFor roles i a todo = some p) :
    p ∈ todo ∧ p.axis = a ∧ p ∈ caught roles i todo := by
  have hmem := List.mem_filter.mp (List.mem_of_getLast? h)
  exact ⟨(List.mem_filter.mp hmem.1).1, by simpa using hmem.2, hmem.1⟩

/-- The last component of all is the last one for its axis. -/
theorem lastFor_of_lastOf (h : lastOf roles i todo = some p) :
    lastFor roles i p.axis todo = some p := by
  obtain ⟨before, hlist⟩ := List.getLast?_eq_some_iff.mp h
  unfold lastFor
  rw [hlist, List.filter_append, List.filter_cons_of_pos (by simp), List.filter_nil,
    List.getLast?_append, List.getLast?_singleton, Option.some_or]

end Caught

/-! ## The stick after `ResolvePending` -/

/-- A capture gives the stick of its hand the owner and the container of the component. -/
theorem capture_parts (p : Pending) (i j : Fin 2) (s : State F) :
    ((s.setStick j ((s.sticks j).capture p)).sticks i).owner =
        (if j = i then p.owner else (s.sticks i).owner) ∧
      ((s.setStick j ((s.sticks j).capture p)).sticks i).container =
        (if j = i then p.container else (s.sticks i).container) := by
  by_cases hij : j = i
  · subst hij
    rw [State.setStick_self, if_pos rfl, if_pos rfl]
    unfold Stick.capture
    cases p.axis <;> exact ⟨rfl, rfl⟩
  · rw [State.setStick_other _ _ (Ne.symm hij), if_neg hij, if_neg hij]
    exact ⟨rfl, rfl⟩

theorem resolveLoop_parts (roles : Container → Option Int) (i : Fin 2) :
    ∀ (todo keep : List Pending) (completed : Bool) (s : State F),
      let s' := (resolveLoop roles keep completed todo s).1
      (∀ a, s'.slot i a = (lastFor roles i a todo).elim (s.slot i a) Pending.handle) ∧
        (s'.sticks i).owner = (lastOf roles i todo).elim (s.sticks i).owner Pending.owner ∧
        (s'.sticks i).container =
          (lastOf roles i todo).elim (s.sticks i).container Pending.container := by
  intro todo
  induction todo with
  | nil =>
    intro keep completed s
    exact ⟨fun _ => rfl, rfl, rfl⟩
  | cons p todo ih =>
    intro keep completed s
    unfold resolveLoop
    simp only [elim_lastFor_cons, elim_lastOf_cons]
    cases hr : roles p.container with
    | none => simpa using ih (keep ++ [p]) completed s
    | some role =>
      cases hhand : handOfRole role with
      | none => simpa [hhand] using ih keep completed s
      | some j =>
        -- what is captured here stays only where nothing behind it is captured
        obtain ⟨hslot, howner, hcontainer⟩ := ih keep
          (completed || (!decide (s.sticks j).complete &&
            decide ((s.sticks j).capture p).complete)) (s.setStick j ((s.sticks j).capture p))
        obtain ⟨hpowner, hpcontainer⟩ := capture_parts p i j s
        rw [hpowner] at howner
        rw [hpcontainer] at hcontainer
        simp only [Option.bind_some, hhand, Option.some.injEq]
        refine ⟨fun a => ?_, howner, hcontainer⟩
        refine (hslot a).trans ?_
        rw [slot_capture]
        unfold captureSlot
        simp only [eq_comm]

theorem resolvePending_parts (roles : Container → Option Int) (i : Fin 2) (s : State F) :
    let s' := (resolvePending roles s).1
    (∀ a, s'.slot i a = (lastFor roles i a s.pending).elim (s.slot i a) Pending.handle) ∧
      (s'.sticks i).owner = (lastOf roles i s.pending).elim (s.sticks i).owner Pending.owner ∧
      (s'.sticks i).container =
        (lastOf roles i s.pending).elim (s.sticks i).container Pending.container := by
  unfold resolvePending
  dsimp only
  split
  next h =>
    rw [List.isEmpty_iff.mp h]
    exact ⟨fun _ => rfl, rfl, rfl⟩
  next => exact resolveLoop_parts roles i s.pending [] false { s with pending := [] }

/-- **After `ResolvePending` a stick holds, for each axis, the last component that waited for
it.** -/
theorem resolvePending_slot (roles : Container → Option Int) (i : Fin 2) (a : Axis)
    (s : State F) : (resolvePending roles s).1.slot i a =
      (lastFor roles i a s.pending).elim (s.slot i a) Pending.handle :=
  (resolvePending_parts roles i s).1 a

/-- **Its owner is that of the last component that waited for the hand.** -/
theorem resolvePending_owner (roles : Container → Option Int) (i : Fin 2) (s : State F) :
    ((resolvePending roles s).1.sticks i).owner =
      (lastOf roles i s.pending).elim (s.sticks i).owner Pending.owner :=
  (resolvePending_parts roles i s).2.1

theorem resolvePending_container (roles : Container → Option Int) (i : Fin 2) (s : State F) :
    ((resolvePending roles s).1.sticks i).container =
      (lastOf roles i s.pending).elim (s.sticks i).container Pending.container :=
  (resolvePending_parts roles i s).2.2

/-- `ResolvePending` adds nothing to the list. -/
theorem pending_resolvePending (roles : Container → Option Int) (s : State F) {p : Pending}
    (hp : p ∈ (resolvePending roles s).1.pending) : p ∈ s.pending := by
  refine resolvePending_invariant roles (fun _ waiting => ∀ q ∈ waiting, q ∈ s.pending)
    ?_ ?_ ?_ (fun _ h => h) p hp
  · exact fun _ _ _ h => h
  · exact fun _ keep q todo h r hr =>
      h r ((((List.sublist_cons_self q todo).append_left keep).subset) hr)
  · exact fun _ keep q todo _ _ _ _ h r hr =>
      h r ((((List.sublist_cons_self q todo).append_left keep).subset) hr)

/-! ## Sessions -/

/-- Who created a component, for which device, and under which path. -/
structure Origin where
  owner : DriverInput
  container : Container
  path : List Char
deriving DecidableEq

/-- The path of the stick that a component is a part of. -/
def pathOf (name : Option String) : List Char :=
  match name with
  | none => []
  | some name => (name.toList.reverse.dropWhile (· ≠ '/')).reverse

/-- The hooks with the origins of vrserver's components. -/
structure CaptureSession (F : Type) where
  world : World F
  origin : Handle → Option Origin

namespace CaptureSession

inductive Event where
  | create (self : DriverInput) (c : Container) (name : Option String) (boolean : Bool)
    (h : Handle)
  /-- With the roles that can be read. -/
  | resolve (roles : Container → Option Int)

def init [Zero F] (installed : Bool) (driverInput : DriverInput) : CaptureSession F :=
  ⟨.init installed driverInput, fun _ => none⟩

def step [Zero F] (e : Event) (s : CaptureSession F) : CaptureSession F :=
  match e with
  | .create self c name boolean h =>
    { world := hookCreate self c name boolean h s.world
      origin := if s.world.components.Free h then
          Function.update s.origin h (some ⟨self, c, pathOf name⟩)
        else s.origin }
  | .resolve roles =>
    { s with world := { s.world with hooks := (resolvePending roles s.world.hooks).1 } }

/-- The components of a complete stick have one origin, which is the stick's. -/
def OnePhysical (s : CaptureSession F) : Prop :=
  ∀ i, (s.world.hooks.sticks i).complete →
    ∃ path, ∀ a, s.world.hooks.slot i a ≠ 0 →
      s.origin (s.world.hooks.slot i a) =
        some ⟨(s.world.hooks.sticks i).owner, (s.world.hooks.sticks i).container, path⟩

/-- What an axis of a stick is given: the last component that waits for it, or else what it has. -/
def given (roles : Container → Option Int) (s : CaptureSession F) (i : Fin 2) (a : Axis) :
    Handle :=
  (lastFor roles i a s.world.hooks.pending).elim (s.world.hooks.slot i a) Pending.handle

/-- Where components wait for a hand and both its axes are given, all that it is given has one
origin. -/
def OneOrigin (e : Event) (s : CaptureSession F) : Prop :=
  match e with
  | .create .. => True
  | .resolve roles => ∀ i p, lastOf roles i s.world.hooks.pending = some p → p.owner ≠ 0 →
    given roles s i .x ≠ 0 → given roles s i .y ≠ 0 →
      ∃ o, ∀ a, given roles s i a ≠ 0 → s.origin (given roles s i a) = some o

/-! ### What holds throughout -/

structure Inv (s : CaptureSession F) : Prop where
  waiting : ∀ p ∈ s.world.hooks.pending, p.handle ≠ 0 ∧
    (∃ b, s.world.components.kind p.handle = some b) ∧
      ∃ path, s.origin p.handle = some ⟨p.owner, p.container, path⟩
  held : ∀ i a, s.world.hooks.slot i a ≠ 0 →
    ∃ b, s.world.components.kind (s.world.hooks.slot i a) = some b
  one : OnePhysical s

theorem inv_init [Zero F] (installed : Bool) (driverInput : DriverInput) :
    Inv (init installed driverInput : CaptureSession F) where
  waiting p hp := absurd hp (by simp [init, World.init, State.init])
  held i a h0 := by
    cases a <;> exact absurd rfl h0
  one i hi := absurd rfl hi.1

section Step

variable [Zero F] {s : CaptureSession F}

theorem Inv.create (hs : Inv s) (self : DriverInput) (c : Container) (name : Option String)
    (boolean : Bool) (h : Handle) : Inv (step (.create self c name boolean h) s) := by
  have hkind : ∀ {k b}, s.world.components.kind k = some b →
      (s.world.components.create boolean h).kind k = some b := Components.kind_create
  have horigin : ∀ {k b}, s.world.components.kind k = some b →
      (step (.create self c name boolean h) s).origin k = s.origin k := by
    intro k b hk
    exact Components.noted_of_kind s.origin _ hk
  obtain ⟨n, waiting, hhooks, -⟩ := hookCreate_frame self c name boolean h s.world
  have hsticks : (step (.create self c name boolean h) s).world.hooks.sticks =
      s.world.hooks.sticks := by
    show (hookCreate self c name boolean h s.world).hooks.sticks = _
    rw [hhooks]
  have hslot : (step (.create self c name boolean h) s).world.hooks.slot =
      s.world.hooks.slot := by
    funext i a
    rw [State.slot, hsticks, State.slot]
  have hold : ∀ p ∈ s.world.hooks.pending, p.handle ≠ 0 ∧
      (∃ b, (s.world.components.create boolean h).kind p.handle = some b) ∧
        ∃ path, (step (.create self c name boolean h) s).origin p.handle =
          some ⟨p.owner, p.container, path⟩ := by
    intro p hp
    obtain ⟨h0, ⟨b, hb⟩, path, hpath⟩ := hs.waiting p hp
    exact ⟨h0, ⟨b, hkind hb⟩, path, by rw [horigin hb, hpath]⟩
  constructor
  · intro p hp
    -- a call that fails remembers nothing
    by_cases hfree : s.world.components.Free h
    · obtain ⟨m, waiting', hr, hwaiting⟩ := remember_cases self c name h boolean s.world.hooks
      have hnext : (step (.create self c name boolean h) s).world.hooks.pending = waiting' := by
        show (if s.world.components.Free h then _ else _ : State F).pending = _
        rw [if_pos hfree, hr]
      rw [hnext] at hp
      rcases hwaiting with rfl | ⟨a, kept, -, hkept, rfl⟩
      · exact hold p hp
      · rcases List.mem_append.mp hp with hp | hp
        · exact hold p (hkept.subset hp)
        · rw [List.mem_singleton.mp hp]
          refine ⟨hfree.1, ⟨boolean, Components.kind_create_self boolean hfree⟩, pathOf name, ?_⟩
          show (if s.world.components.Free h then _ else _ : Handle → Option Origin) h = _
          rw [if_pos hfree, Function.update_self]
    · have hsame : (step (.create self c name boolean h) s).world.hooks = s.world.hooks :=
        if_neg hfree
      rw [hsame] at hp
      exact hold p hp
  · intro i a h0
    rw [hslot] at h0 ⊢
    obtain ⟨b, hb⟩ := hs.held i a h0
    exact ⟨b, hkind hb⟩
  · intro i hi
    rw [hsticks] at hi ⊢
    rw [hslot]
    obtain ⟨path, hpath⟩ := hs.one i hi
    refine ⟨path, fun a h0 => ?_⟩
    obtain ⟨b, hb⟩ := hs.held i a h0
    rw [horigin hb]
    exact hpath a h0

/-- The parts of a stick after `ResolvePending`. -/
theorem resolve_slot (roles : Container → Option Int) (i : Fin 2) (a : Axis) :
    (step (.resolve roles) s).world.hooks.slot i a = given roles s i a :=
  resolvePending_slot roles i a s.world.hooks

omit [Zero F] in
/-- What an axis is given is a component. -/
theorem Inv.given (hs : Inv s) {roles : Container → Option Int} {i : Fin 2} {a : Axis}
    (h0 : CaptureSession.given roles s i a ≠ 0) :
    ∃ b, s.world.components.kind (CaptureSession.given roles s i a) = some b := by
  unfold CaptureSession.given at h0 ⊢
  cases hl : lastFor roles i a s.world.hooks.pending with
  | none =>
    rw [hl] at h0
    exact hs.held i a h0
  | some p => exact (hs.waiting p (lastFor_mem hl).1).2.1

/-- The last component that waits for a hand gives the stick its owner and its container. -/
theorem Inv.lastOf (hs : Inv s) {roles : Container → Option Int} {i : Fin 2} {p : Pending}
    (hl : Hooks.lastOf roles i s.world.hooks.pending = some p) :
    ((step (.resolve roles) s).world.hooks.sticks i).owner = p.owner ∧
      ((step (.resolve roles) s).world.hooks.sticks i).container = p.container ∧
        CaptureSession.given roles s i p.axis ≠ 0 ∧
          ∃ path, s.origin (CaptureSession.given roles s i p.axis) =
            some ⟨p.owner, p.container, path⟩ := by
  have hfor := lastFor_of_lastOf hl
  have hgiven : CaptureSession.given roles s i p.axis = p.handle := by
    unfold CaptureSession.given
    rw [hfor]
    rfl
  obtain ⟨h0, -, horigin⟩ := hs.waiting p (lastFor_mem hfor).1
  rw [hgiven]
  refine ⟨?_, ?_, h0, horigin⟩
  · refine (resolvePending_owner roles i s.world.hooks).trans ?_
    rw [hl]
    rfl
  · refine (resolvePending_container roles i s.world.hooks).trans ?_
    rw [hl]
    rfl

/-- A hand for which nothing waits keeps its stick. -/
theorem resolve_none {roles : Container → Option Int} {i : Fin 2}
    (hl : lastOf roles i s.world.hooks.pending = none) :
    (step (.resolve roles) s).world.hooks.slot i = s.world.hooks.slot i ∧
      ((step (.resolve roles) s).world.hooks.sticks i).owner = (s.world.hooks.sticks i).owner ∧
        ((step (.resolve roles) s).world.hooks.sticks i).container =
          (s.world.hooks.sticks i).container := by
  have hempty : caught roles i s.world.hooks.pending = [] := List.getLast?_eq_none_iff.mp hl
  refine ⟨?_, ?_, ?_⟩
  · funext a
    refine (resolvePending_slot roles i a s.world.hooks).trans ?_
    unfold lastFor
    rw [hempty]
    rfl
  · refine (resolvePending_owner roles i s.world.hooks).trans ?_
    rw [hl]
    rfl
  · refine (resolvePending_container roles i s.world.hooks).trans ?_
    rw [hl]
    rfl

/-- A stick after `ResolvePending` has one origin exactly if what it is given has. -/
theorem onePhysical_resolve (hs : Inv s) (roles : Container → Option Int) :
    OnePhysical (step (.resolve roles) s) ↔ OneOrigin (.resolve roles) s := by
  constructor
  · intro h i p hl hp hx hy
    obtain ⟨howner, -, -, -⟩ := hs.lastOf hl
    obtain ⟨path, hpath⟩ := h i ⟨by rw [howner]; exact hp,
      by rw [← resolve_slot] at hx; exact hx, by rw [← resolve_slot] at hy; exact hy⟩
    refine ⟨⟨((step (.resolve roles) s).world.hooks.sticks i).owner,
      ((step (.resolve roles) s).world.hooks.sticks i).container, path⟩, fun a h0 => ?_⟩
    rw [← resolve_slot] at h0 ⊢
    exact hpath a h0
  · intro h i hi
    cases hl : lastOf roles i s.world.hooks.pending with
    | none =>
      -- nothing waits for the hand, and its stick was one before
      obtain ⟨hslot, howner, hcontainer⟩ := resolve_none hl
      have hcomplete : (s.world.hooks.sticks i).complete := by
        refine ⟨?_, ?_, ?_⟩
        · rw [← howner]
          exact hi.1
        · show s.world.hooks.slot i .x ≠ 0
          rw [← hslot]
          exact hi.2.1
        · show s.world.hooks.slot i .y ≠ 0
          rw [← hslot]
          exact hi.2.2
      obtain ⟨path, hpath⟩ := hs.one i hcomplete
      refine ⟨path, fun a h0 => ?_⟩
      rw [hslot] at h0 ⊢
      rw [howner, hcontainer]
      exact hpath a h0
    | some p =>
      -- the stick is given the origin of `p`, so that is the one origin of what it holds
      obtain ⟨howner, hcontainer, hself, path, hpath⟩ := hs.lastOf hl
      have hx : given roles s i .x ≠ 0 := by
        rw [← resolve_slot]
        exact hi.2.1
      have hy : given roles s i .y ≠ 0 := by
        rw [← resolve_slot]
        exact hi.2.2
      obtain ⟨o, ho⟩ := h i p hl (howner ▸ hi.1) hx hy
      have hsame : o = ⟨p.owner, p.container, path⟩ :=
        Option.some.inj ((ho p.axis hself).symm.trans hpath)
      refine ⟨path, fun a h0 => ?_⟩
      rw [howner, hcontainer, ← hsame]
      rw [resolve_slot] at h0 ⊢
      exact ho a h0

theorem inv_step (e : Event) (s : CaptureSession F) (h : OneOrigin e s) (hs : Inv s) :
    Inv (step e s) := by
  cases e with
  | create self c name boolean k => exact hs.create self c name boolean k
  | resolve roles =>
    refine ⟨?_, ?_, (onePhysical_resolve hs roles).mpr h⟩
    · exact fun p hp => hs.waiting p (pending_resolvePending roles s.world.hooks hp)
    · intro i a h0
      rw [resolve_slot] at h0 ⊢
      exact hs.given h0

/-- **Complete sticks are one physical stick each exactly in the runs in which all that a
`ResolvePending` gives to a hand has one origin.** -/
theorem onePhysical_iff (installed : Bool) (driverInput : DriverInput) (es : List Event) :
    (∀ n, OnePhysical (run step (es.take n) (init installed driverInput : CaptureSession F))) ↔
      Meets OneOrigin step es (init installed driverInput : CaptureSession F) := by
  have hinit : Inv (init installed driverInput : CaptureSession F) :=
    inv_init installed driverInput
  rw [forall_take_iff es hinit.one]
  refine Meets.iff_of_invariant inv_step ?_ es hinit
  intro e s hs
  cases e with
  | create self c name boolean k =>
    exact ⟨fun _ => trivial, fun _ => (hs.create self c name boolean k).one⟩
  | resolve roles => exact onePhysical_resolve hs roles

end Step

/-- Two controllers that report the left hand. The second one has a horizontal axis so far. -/
def twoControllers : List Event :=
  [.create 1 1 (some "/input/joystick/x") false 1, .create 1 1 (some "/input/joystick/y") false 2,
    .create 2 2 (some "/input/thumbstick/x") false 3, .resolve fun _ => some leftHandRole]

/-- The left stick has one axis of each. -/
theorem not_onePhysical :
    ¬∀ es : List Event, OnePhysical (run step es (init true 1 : CaptureSession ℚ)) := by
  intro h
  obtain ⟨path, hpath⟩ := h twoControllers 0 (by decide +kernel)
  have hx := hpath .x (by decide +kernel)
  have hy := hpath .y (by decide +kernel)
  have hxorigin : (run step twoControllers (init true 1 : CaptureSession ℚ)).origin
      ((run step twoControllers (init true 1 : CaptureSession ℚ)).world.hooks.slot 0 .x) =
        some ⟨2, 2, "/input/thumbstick/".toList⟩ := by
    decide +kernel
  have hyorigin : (run step twoControllers (init true 1 : CaptureSession ℚ)).origin
      ((run step twoControllers (init true 1 : CaptureSession ℚ)).world.hooks.slot 0 .y) =
        some ⟨1, 1, "/input/joystick/".toList⟩ := by
    decide +kernel
  rw [hxorigin] at hx
  rw [hyorigin] at hy
  have howner := congrArg (Option.map Origin.owner) (hx.trans hy.symm)
  exact absurd howner (by decide)

end CaptureSession

end Rebocap.Hooks
