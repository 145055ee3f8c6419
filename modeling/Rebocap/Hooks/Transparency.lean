import Rebocap.Hooks.Handles
import Rebocap.Lib.RatScalar
import Rebocap.Lib.Run

/-!
# What the hooks leave of the drivers' updates

Next to the components of vrserver, a session keeps the components as they are without the hooks:
each shows what its driver last wrote. A released stick is to show the same.

* `transparent` — it does, in a run where no release writes a value that was recorded before the
  capture, and no injected component is replaced in its stick
* `not_transparent` — a stick that stands still when it is captured is released to the centre
-/

namespace Rebocap.Hooks

open Lib

variable {F : Type}

/-! ## Sessions -/

structure Session (F : Type) where
  world : World F
  /-- The components without the hooks. -/
  plain : Components F
  /-- The driver has written the component while a stick held it. -/
  written : Handle → Bool

inductive Event (F : Type) where
  | create (self : DriverInput) (container : Container) (name : Option String) (boolean : Bool)
      (handle : Handle)
  | update (handle : Handle) (value : Value F)
  | resolvePending (roles : Container → Option Int)
  | drive (hand : Int) (speed dirX dirY : F)

/-- A stick holds the component, for an axis of the type. -/
def State.Holds (s : State F) (h : Handle) (boolean : Bool) : Prop :=
  h ≠ 0 ∧ ∃ i a, a.isBoolean = boolean ∧ s.slot i a = h

instance (s : State F) (h : Handle) (boolean : Bool) : Decidable (s.Holds h boolean) :=
  inferInstanceAs (Decidable (_ ∧ _))

def Session.init [Zero F] (driverInput : DriverInput) : Session F where
  world := .init true driverInput
  plain := fun _ => none
  written := fun _ => false

def step [FloatOrder F] [Arith F] (e : Event F) (s : Session F) : Session F :=
  match e with
  | .create self c name boolean h =>
    { s with
      world := hookCreate self c name boolean h s.world
      plain := s.plain.create boolean h }
  | .update h v =>
    { world := hookUpdate h v s.world
      plain := s.plain.write h v
      written := if s.world.hooks.Holds h v.isBoolean then Function.update s.written h true
        else s.written }
  | .resolvePending roles =>
    { s with world := { s.world with hooks := (resolvePending roles s.world.hooks).1 } }
  | .drive hand speed dirX dirY => { s with world := drive hand speed dirX dirY s.world }

/-- Every component outside the overridden stick shows what its driver last wrote. -/
def Transparent (s : Session F) : Prop :=
  ∀ h, s.world.components h = s.plain h ∨
    ∃ i a, s.world.hooks.overriding = some i ∧ s.world.hooks.slot i a = h

/-- The stick has recorded for an axis what the component's driver did not write: the driver has
not written the component since the capture, and its last value before is another one. -/
def Stale (s : Session F) (i : Fin 2) (a : Axis) : Prop :=
  s.world.hooks.slot i a ≠ 0 ∧ s.written (s.world.hooks.slot i a) = false ∧
    s.plain (s.world.hooks.slot i a) ≠ some ((s.world.hooks.sticks i).real a)

instance [DecidableEq F] (s : Session F) (i : Fin 2) (a : Axis) : Decidable (Stale s i a) :=
  inferInstanceAs (Decidable (_ ∧ _ ∧ _))

/-- The step releases no stick with a stale value, and takes no component that shows an injected
value out of the overridden stick. -/
def Harmless [FloatOrder F] : Event F → Session F → Prop
  | .resolvePending roles, s =>
    ∀ p ∈ s.world.hooks.pending, ∀ role i, roles p.container = some role →
      handOfRole role = some i → s.world.hooks.overriding = some i →
      s.world.components (s.world.hooks.slot i p.axis) = s.plain (s.world.hooks.slot i p.axis)
  | .drive hand speed _ _, s =>
    ∀ i, released s.world.hooks hand speed = some i → ∀ a, ¬Stale s i a
  | _, _ => True

/-! ## Invariant -/

/-- What holds of the hooks while `waiting` are the components that wait for their hand. -/
structure Tracked (c plain : Components F) (written : Handle → Bool) (s : State F)
    (waiting : List Pending) : Prop where
  placed : Placed c.kind s.slot waiting
  kinds : c.kind = plain.kind
  zero : c.kind 0 = none
  created : ∀ h, written h = true → c.kind h ≠ none
  recorded : ∀ i a, written (s.slot i a) = true → plain (s.slot i a) = some ((s.sticks i).real a)
  unwritten : ∀ p ∈ waiting, written p.handle = false
  shown : ∀ h, c h ≠ plain h → ∃ i a, s.overriding = some i ∧ s.slot i a = h

namespace Tracked

variable {c plain : Components F} {written : Handle → Bool} {s : State F} {waiting : List Pending}

theorem agree_zero (hs : Tracked c plain written s waiting) : c 0 = plain 0 := by
  have hplain : plain.kind 0 = none := by rw [← hs.kinds]; exact hs.zero
  rw [Components.kind_eq_none.mp hs.zero, Components.kind_eq_none.mp hplain]

/-- Without a stale value a stick has recorded what its drivers last wrote. -/
theorem real_of_fresh {i : Fin 2} {a : Axis} (hs : Tracked c plain written s waiting)
    (h : ¬(written (s.slot i a) = false ∧ plain (s.slot i a) ≠ some ((s.sticks i).real a))) :
    plain (s.slot i a) = some ((s.sticks i).real a) := by
  by_contra hne
  cases hw : written (s.slot i a) with
  | true => exact hne (hs.recorded i a hw)
  | false => exact h ⟨hw, hne⟩

theorem create [Zero F] {w : World F} (self : DriverInput) (k : Container) (name : Option String)
    (boolean : Bool) (h : Handle)
    (hs : Tracked w.components plain written w.hooks w.hooks.pending) :
    let w' := hookCreate self k name boolean h w
    Tracked w'.components (plain.create boolean h) written w'.hooks w'.hooks.pending := by
  obtain ⟨n, waiting', hhooks, hwaiting⟩ := hookCreate_frame self k name boolean h w
  have hplaced := hs.placed.hookCreate self k name boolean h
  dsimp only at hplaced ⊢
  rw [hhooks] at hplaced ⊢
  constructor
  · exact hplaced
  · exact Components.kind_create_congr boolean h hs.kinds
  · rw [Components.kind_eq_none]
    exact (Components.create_zero _ _ _).trans (Components.kind_eq_none.mp hs.zero)
  · intro k hk hnone
    cases hkind : w.components.kind k with
    | none => exact hs.created k hk hkind
    | some b =>
      rw [show (hookCreate self _ name boolean h w).components.kind k = some b from
        Components.kind_create hkind] at hnone
      cases hnone
  · intro i a hw
    exact Components.create_of_some (hs.recorded i a hw)
  · intro p hp
    rcases hwaiting p hp with hp | ⟨hfree, rfl, -⟩
    · exact hs.unwritten p hp
    · rw [Bool.eq_false_iff]
      intro hw
      exact hs.created _ hw (Components.free_iff.mp hfree).2
  · intro k hk
    exact hs.shown k fun he => hk (Components.create_congr hs.kinds he)

theorem updateHeld {w : World F} {i : Fin 2} {a : Axis} {v : Value F}
    (hs : Tracked w.components plain written w.hooks waiting) (h0 : w.hooks.slot i a ≠ 0)
    (ha : a.isBoolean = v.isBoolean) :
    let w' := hookUpdate (w.hooks.slot i a) v w
    Tracked w'.components (plain.write (w.hooks.slot i a) v)
      (Function.update written (w.hooks.slot i a) true) w'.hooks waiting := by
  have hslot := slot_hookUpdate (w.hooks.slot i a) v w
  have hkind := kind_hookUpdate (w.hooks.slot i a) v w
  dsimp only
  constructor
  · rw [hkind, hslot]
    exact hs.placed
  · rw [hkind, Components.kind_write, hs.kinds]
  · rw [hkind, hs.zero]
  · intro k hk
    rw [hkind]
    by_cases hki : k = w.hooks.slot i a
    · rw [hki, hs.placed.typed h0]
      simp
    · rw [Function.update_of_ne hki] at hk
      exact hs.created k hk
  · intro j b hwritten
    rw [hslot] at hwritten ⊢
    refine recorded_held hs.placed hs.kinds h0 ha fun hji => ?_
    rw [Function.update_of_ne hji] at hwritten
    exact hs.recorded j b hwritten
  · intro p hp
    rw [Function.update_of_ne (hs.placed.apart p hp i a).symm]
    exact hs.unwritten p hp
  · intro k hk
    have ho : (hookUpdate (w.hooks.slot i a) v w).hooks.overriding = w.hooks.overriding := by
      rw [hookUpdate_held hs.placed h0 ha]
      rfl
    rw [hslot, ho]
    by_contra hn
    refine hk (shown_held hs.placed hs.kinds h0 ha ?_ ?_)
    · rintro rfl hi
      exact hn ⟨i, a, hi, rfl⟩
    · by_contra hne
      exact hn (hs.shown k hne)

theorem updateFree {w : World F} {h : Handle} {v : Value F}
    (hs : Tracked w.components plain written w.hooks waiting)
    (hfree : ∀ i a, a.isBoolean = v.isBoolean → h ≠ 0 → w.hooks.slot i a ≠ h) :
    let w' := hookUpdate h v w
    Tracked w'.components (plain.write h v) written w'.hooks waiting := by
  rw [hookUpdate_free hfree]
  constructor
  · rw [Components.kind_write]
    exact hs.placed
  · rw [Components.kind_write, Components.kind_write, hs.kinds]
  · rw [Components.kind_write, hs.zero]
  · rw [Components.kind_write]
    exact hs.created
  · intro i a hwritten
    -- a component whose driver has written it exists
    have h0 : w.hooks.slot i a ≠ 0 := by
      intro h0
      rw [h0] at hwritten
      exact hs.created 0 hwritten hs.zero
    exact (write_unheld hs.placed hs.kinds hfree h0).trans (hs.recorded i a hwritten)
  · exact hs.unwritten
  · intro k hk
    exact hs.shown k fun he => hk (Components.write_congr hs.kinds he)

theorem update {w : World F} (h : Handle) (v : Value F)
    (hs : Tracked w.components plain written w.hooks waiting) :
    let w' := hookUpdate h v w
    Tracked w'.components (plain.write h v)
      (if w.hooks.Holds h v.isBoolean then Function.update written h true else written)
      w'.hooks waiting := by
  by_cases hheld : w.hooks.Holds h v.isBoolean
  · rw [if_pos hheld]
    obtain ⟨h0, i, a, ha, rfl⟩ := hheld
    exact hs.updateHeld h0 ha
  · rw [if_neg hheld]
    exact hs.updateFree fun i a ha h0 he => hheld ⟨h0, i, a, ha, he⟩

theorem resolve {w : World F} (roles : Container → Option Int)
    (hs : Tracked w.components plain written w.hooks w.hooks.pending)
    (hok : ∀ p ∈ w.hooks.pending, ∀ role i, roles p.container = some role →
      handOfRole role = some i → w.hooks.overriding = some i →
      w.components (w.hooks.slot i p.axis) = plain (w.hooks.slot i p.axis)) :
    Tracked w.components plain written (resolvePending roles w.hooks).1
      (resolvePending roles w.hooks).1.pending := by
  -- a component captured in the loop shows its driver's value, as the replaced ones do
  refine (resolvePending_invariant roles
    (fun s waiting => Tracked w.components plain written s waiting ∧
      ∀ p ∈ waiting, ∀ role i, roles p.container = some role → handOfRole role = some i →
        s.overriding = some i → w.components (s.slot i p.axis) = plain (s.slot i p.axis))
    ?_ ?_ ?_ ⟨hs, hok⟩).1
  · intro s waiting waiting' hs
    exact ⟨⟨hs.1.placed, hs.1.kinds, hs.1.zero, hs.1.created, hs.1.recorded, hs.1.unwritten,
      hs.1.shown⟩, hs.2⟩
  · intro s keep p todo hs
    have hsub : (keep ++ todo).Sublist (keep ++ p :: todo) := by simp
    exact ⟨⟨hs.1.placed.sublist hsub, hs.1.kinds, hs.1.zero, hs.1.created, hs.1.recorded,
      fun q hq => hs.1.unwritten q (hsub.subset hq), hs.1.shown⟩,
      fun q hq => hs.2 q (hsub.subset hq)⟩
  · rintro s keep p todo role i hrole hi ⟨hs, hok⟩
    have hp : p ∈ keep ++ p :: todo := by simp
    have hsub : (keep ++ todo).Sublist (keep ++ p :: todo) := by simp
    have hshown : w.components p.handle = plain p.handle := by
      by_contra hne
      obtain ⟨j, a, -, hj⟩ := hs.shown _ hne
      exact hs.placed.apart p hp j a hj
    constructor
    · constructor
      · rw [slot_capture]
        exact hs.placed.capture i
      · exact hs.kinds
      · exact hs.zero
      · exact hs.created
      · intro j a hw
        rw [slot_capture] at hw ⊢
        by_cases hj : j = i ∧ a = p.axis
        · rw [hj.1, hj.2, captureSlot_self, hs.unwritten p hp] at hw
          cases hw
        · rw [captureSlot_other hj] at hw ⊢
          rw [hs.recorded j a hw]
          by_cases hji : j = i
          · rw [hji, State.setStick_self, real_capture]
          · rw [State.setStick_other _ _ hji]
      · exact fun q hq => hs.unwritten q (hsub.subset hq)
      · intro k hk
        obtain ⟨j, a, ho, hja⟩ := hs.shown k hk
        refine ⟨j, a, ho, ?_⟩
        rw [slot_capture, captureSlot_other, hja]
        rintro ⟨rfl, rfl⟩
        rw [← hja] at hk
        exact hk (hok p hp role j hrole hi ho)
    · intro q hq role' j hrole' hj ho
      rw [slot_capture]
      by_cases hji : j = i ∧ q.axis = p.axis
      · rw [hji.1, hji.2, captureSlot_self, hshown]
      · rw [captureSlot_other hji]
        exact hok q (hsub.subset hq) role' j hrole' hj ho

theorem release {w : World F} {i : Fin 2} (ho : w.hooks.overriding = some i)
    (hs : Tracked w.components plain written w.hooks waiting)
    (hok : ∀ a, ¬(w.hooks.slot i a ≠ 0 ∧ written (w.hooks.slot i a) = false ∧
      plain (w.hooks.slot i a) ≠ some ((w.hooks.sticks i).real a))) :
    Tracked (release i w).components plain written (release i w).hooks waiting ∧
      (release i w).hooks.overriding = none := by
  have hkinds : (Hooks.release i w).components.kind = w.components.kind :=
    kind_writeStick _ _ _ _ _
  refine ⟨⟨?_, ?_, ?_, ?_, hs.recorded, hs.unwritten, ?_⟩, rfl⟩
  · rw [hkinds]
    exact hs.placed
  · rw [hkinds, hs.kinds]
  · rw [hkinds, hs.zero]
  · rw [hkinds]
    exact hs.created
  · intro k hk
    exfalso
    by_cases h0 : k = 0
    · subst h0
      have hzero : (Hooks.release i w).components 0 = none := by
        rw [← Components.kind_eq_none, hkinds, hs.zero]
      rw [hzero, ← hs.agree_zero, Components.kind_eq_none.mp hs.zero] at hk
      exact hk rfl
    · by_cases hheld : ∃ a, w.hooks.slot i a = k
      · obtain ⟨a, rfl⟩ := hheld
        refine hk ?_
        rw [hs.real_of_fresh fun hstale => hok a ⟨h0, hstale⟩, ← axisValue_real]
        exact writeStick_slot _ _ _ hs.placed h0
      · have hother : ∀ a, (w.hooks.sticks i).handle a ≠ k := fun a ha => hheld ⟨a, ha⟩
        have hsame : (Hooks.release i w).components k = w.components k :=
          writeStick_other _ _ _ hother
        rw [hsame] at hk
        obtain ⟨j, a, hj, hja⟩ := hs.shown k hk
        rw [ho, Option.some.injEq] at hj
        exact hheld ⟨a, hj ▸ hja⟩

theorem hold [FloatOrder F] [Arith F] {w : World F} {i : Fin 2} (speed dirX dirY : F)
    (ho : w.hooks.overriding = none ∨ w.hooks.overriding = some i)
    (hs : Tracked w.components plain written w.hooks waiting) :
    Tracked (hold i speed dirX dirY w).components plain written (hold i speed dirX dirY w).hooks
      waiting := by
  rcases hold_cases i speed dirX dirY w with ⟨-, hw⟩ | ⟨x, y, hw⟩
  · rw [hw]
    exact hs
  · rw [hw]
    constructor
    · rw [kind_writeStick]
      exact hs.placed
    · rw [kind_writeStick, hs.kinds]
    · rw [kind_writeStick, hs.zero]
    · rw [kind_writeStick]
      exact hs.created
    · exact hs.recorded
    · exact hs.unwritten
    · intro k hk
      by_cases hheld : ∃ a, w.hooks.slot i a = k
      · obtain ⟨a, ha⟩ := hheld
        exact ⟨i, a, rfl, ha⟩
      · dsimp only at hk
        rw [writeStick_other _ _ _ fun a ha => hheld ⟨a, ha⟩] at hk
        obtain ⟨j, a, hj, hja⟩ := hs.shown k hk
        rcases ho with ho | ho <;> rw [ho] at hj <;> cases hj
        exact absurd ⟨a, hja⟩ hheld

theorem drive [FloatOrder F] [Arith F] {w : World F} (hand : Int) (speed dirX dirY : F)
    (hs : Tracked w.components plain written w.hooks waiting)
    (hok : ∀ i, released w.hooks hand speed = some i →
      ∀ a, ¬(w.hooks.slot i a ≠ 0 ∧ written (w.hooks.slot i a) = false ∧
        plain (w.hooks.slot i a) ≠ some ((w.hooks.sticks i).real a))) :
    let w' := drive hand speed dirX dirY w
    Tracked w'.components plain written w'.hooks waiting := by
  rw [drive_eq]
  cases hr : released w.hooks hand speed with
  | none =>
    cases hd : driven w.hooks hand speed with
    | none => exact hs
    | some i => exact hs.hold speed dirX dirY (hd ▸ overriding_of_not_released hr)
  | some j =>
    obtain ⟨hreleased, hnone⟩ := hs.release (overriding_of_released hr) (hok j hr)
    cases driven w.hooks hand speed with
    | none => exact hreleased
    | some i => exact hreleased.hold speed dirX dirY (.inl hnone)

end Tracked

/-! ## Runs -/

def Session.Tracked (s : Session F) : Prop :=
  Hooks.Tracked s.world.components s.plain s.written s.world.hooks s.world.hooks.pending

theorem tracked_init [Zero F] (driverInput : DriverInput) :
    (Session.init driverInput : Session F).Tracked where
  placed := placed_init _ true driverInput
  kinds := rfl
  zero := rfl
  created := fun _ h => nomatch h
  recorded := fun _ _ h => nomatch h
  unwritten := fun _ h => nomatch h
  shown := fun _ h => absurd rfl h

section Runs

variable [FloatOrder F] [Arith F]

theorem tracked_step (e : Event F) (s : Session F) (hok : Harmless e s) (hs : s.Tracked) :
    (step e s).Tracked := by
  cases e with
  | create self c name boolean h => exact Tracked.create self c name boolean h hs
  | update h v =>
    obtain ⟨sticks, hframe⟩ := hookUpdate_frame h v s.world
    have hpending : (hookUpdate h v s.world).hooks.pending = s.world.hooks.pending := by
      rw [hframe]
    unfold Session.Tracked step
    dsimp only
    rw [hpending]
    exact Tracked.update h v hs
  | resolvePending roles => exact Tracked.resolve roles hs hok
  | drive hand speed dirX dirY =>
    obtain ⟨o, x, y, hframe⟩ := drive_frame hand speed dirX dirY s.world
    have hpending : (drive hand speed dirX dirY s.world).hooks.pending =
        s.world.hooks.pending := by
      rw [hframe]
    unfold Session.Tracked step
    dsimp only
    rw [hpending]
    exact Tracked.drive hand speed dirX dirY hs hok

/-- **A run that releases no stick with a stale value and takes no injected component out of its
stick leaves every component at its driver's last value**, except those of the stick that it
holds. -/
theorem transparent (driverInput : DriverInput) (es : List (Event F))
    (hes : Meets Harmless step es (Session.init driverInput)) :
    let s := run step es (Session.init driverInput)
    Transparent s ∧ (s.world.hooks.overriding = none → s.world.components = s.plain) := by
  have hs : (run step es (Session.init driverInput)).Tracked :=
    run_invariant_of_meets tracked_step es hes (tracked_init driverInput)
  constructor
  · intro h
    by_cases hne : (run step es (Session.init driverInput)).world.components h =
        (run step es (Session.init driverInput)).plain h
    · exact .inl hne
    · exact .inr (hs.shown h hne)
  · intro hnone
    funext h
    by_contra hne
    obtain ⟨i, a, ho, -⟩ := hs.shown h hne
    rw [hnone] at ho
    cases ho

end Runs

/-- The components of a left stick, deflected to the right. -/
def leftCreated : List (Event ℚ) :=
  [.create 7 9 (some "/input/joystick/x") false 1, .create 7 9 (some "/input/joystick/y") false 2,
    .update 1 (.scalar 1)]

def leftCapture : Event ℚ := .resolvePending fun _ => some leftHandRole

/-- A stick whose driver writes it after the capture can be held and released. -/
theorem transparent_walk :
    let s := run step (leftCreated ++ [leftCapture, .update 1 (.scalar 0), .drive 0 1 0 1,
      .drive 0 0 0 1]) (Session.init 3)
    Transparent s ∧ (s.world.hooks.overriding = none → s.world.components = s.plain) := by
  have hnone : (run step leftCreated (Session.init 3)).world.hooks.overriding = none := by
    decide +kernel
  refine transparent 3 _ ⟨trivial, trivial, trivial, ?_, trivial, ?_, ?_, trivial⟩
  · intro p _ role i _ _ ho
    cases hnone.symm.trans ho
  · intro i _ a
    revert i a
    decide +kernel
  · intro i _ a
    revert i a
    decide +kernel

/-- A stick that is deflected and still when it is captured is released to the centre. -/
theorem not_transparent :
    ¬∀ es : List (Event ℚ), let s := run step es (Session.init 3)
      s.world.hooks.overriding = none → s.world.components = s.plain := by
  intro h
  have hx := congrFun (h (leftCreated ++ [leftCapture, .drive 0 1 0 1, .drive 0 0 0 1])
    (by decide +kernel)) 1
  exact absurd hx (by decide +kernel)

/-- A component that is replaced while its stick is held keeps the injected value. -/
example :
    let s := run step (leftCreated ++ [.update 2 (.scalar 0), leftCapture, .drive 0 1 0 1,
      .create 7 9 (some "/input/joystick/y") false 3, leftCapture, .drive 0 0 0 1]) (Session.init 3)
    s.world.hooks.overriding = none ∧ s.world.components 2 = some (.scalar (1 : ℚ)) ∧
      s.plain 2 = some (.scalar 0) := by decide +kernel

end Rebocap.Hooks
