import Rebocap.Driver.Treadmill
import Rebocap.Lib.RatScalar
import Rebocap.Lib.Run

/-!
# The stick that a treadmill remembers

`SetStick` skips values that equal those of the last call. `Activate` makes new components, at
zero, and those values stay as they are.

* `writeStick_same`, `coherent_iff_shown` — what a call can skip
* `coherent_iff` — the runs in which nothing is skipped that would make a difference
* `not_coherent` — a treadmill that is activated again
-/

namespace Rebocap.Driver.Treadmill

open Lib FloatOrder Arith Hooks

variable {F : Type} [FloatOrder F] [Arith F]

/-! ## Calls -/

inductive Call (F : Type) where
  | activate (index : UInt32) (c : Container) (touch x y : Handle)
  | deactivate
  | setConnected (connected : Bool)
  | setStick (x y : F)

/-- The stick that a call is to leave in the components. -/
def Call.stick : Call F → Option (F × F × Bool)
  | .setStick x y => some (x, y, literal 3 2 < hypot x y)
  | .setConnected false => some (0, 0, false)
  | _ => none

theorem setConnected_eq (connected : Bool) (t : Treadmill F) (w : World F) :
    t.setConnected connected w =
      if connected then ({ t with deviceIsConnected := connected }, w)
      else setStick 0 0 { t with deviceIsConnected := connected } w := by
  cases connected with
  | true =>
    unfold setConnected
    dsimp only
    split <;> rfl
  | false =>
    rw [setStick_eq]
    unfold setConnected
    dsimp only
    rw [setStick_eq]
    by_cases ha : activated { t with deviceIsConnected := false } <;> simp [ha]

/-! ## Components -/

/-- What the components hold already makes no difference. -/
theorem writeStick_same {t : Treadmill F} {w : World F} {own : List Container}
    (hm : Mounted t w own) (ha : t.activated) {x y : F}
    (h : Holds t w.components x y (literal 3 2 < hypot x y)) : t.writeStick x y w = w := by
  have hx : w.components t.x = some (.scalar x) := h .x
  have hy : w.components t.y = some (.scalar y) := h .y
  have htouch : w.components t.touch = some (.boolean (literal 3 2 < hypot x y)) := h .touch
  rw [hm.writeStick_eq ha, Components.write_same hx, Components.write_same hy,
    Components.write_same htouch]

/-! ## Sessions -/

structure Session (F : Type) where
  treadmill : Treadmill F
  world : World F
  /-- The world in which `SetStick` skips nothing. -/
  plain : World F
  /-- A stick was written since the last activation. -/
  written : Bool

def Session.init (w : World F) : Session F where
  treadmill := .init
  world := w
  plain := w
  written := false

def Session.setStick (x y : F) (s : Session F) : Session F :=
  let (t, w) := s.treadmill.setStick x y s.world
  { treadmill := t
    world := w
    plain := s.treadmill.writeStick x y s.plain
    written := s.written || decide (s.treadmill.activated ∧ ¬s.treadmill.Remembers x y) }

/-- vrserver gives new handles to the components of an activation. -/
def step (e : Call F) (s : Session F) : Session F :=
  match e with
  | .activate index c touch x y =>
    if Fresh s.world.components touch x y then
      let (t, w) := s.treadmill.activate index c touch x y s.world
      { treadmill := t
        world := w
        plain := (s.treadmill.activate index c touch x y s.plain).2
        written := false }
    else s
  | .deactivate => { s with treadmill := s.treadmill.deactivate }
  | .setConnected connected =>
    let (t, w) := s.treadmill.setConnected connected s.world
    let s' := if connected then s else s.setStick 0 0
    { s' with treadmill := t, world := w }
  | .setStick x y => s.setStick x y

/-- The stick that the components hold: the last one, or none yet. -/
def Session.shown (s : Session F) : F × F :=
  if s.written then (s.treadmill.lastX, s.treadmill.lastY) else (0, 0)

/-- The call leaves its stick in the components, and vrserver as if nothing were skipped. -/
def Coherent (e : Call F) (s : Session F) : Prop :=
  let s' := step e s
  s'.world = s'.plain ∧ ∀ x y touch, e.stick = some (x, y, touch) → s.treadmill.activated →
    Holds s'.treadmill s'.world.components x y touch

/-- A stick that compares as equal to the last one is the one that the components hold. -/
def Shown (e : Call F) (s : Session F) : Prop :=
  ∀ x y touch, e.stick = some (x, y, touch) → s.treadmill.activated →
    s.treadmill.Remembers x y → (x, y) = s.shown

/-! ## What the components hold -/

structure Session.Known (s : Session F) : Prop where
  placed : Placed s.world.components.kind s.world.hooks.slot s.world.hooks.pending
  mounted : s.treadmill.activated → ∃ own, Mounted s.treadmill s.world own
  holds : s.treadmill.activated → Holds s.treadmill s.world.components s.shown.1 s.shown.2
    (literal 3 2 < hypot s.shown.1 s.shown.2)

theorem known_init {w : World F}
    (hw : Placed w.components.kind w.hooks.slot w.hooks.pending) : (Session.init w).Known where
  placed := hw
  mounted := fun ha => absurd rfl ha
  holds := fun ha => absurd rfl ha

theorem session_setStick (x y : F) (s : Session F) :
    s.setStick x y = if s.treadmill.activated ∧ ¬s.treadmill.Remembers x y then
      { treadmill := { s.treadmill with lastX := x, lastY := y }
        world := s.treadmill.writeStick x y s.world
        plain := s.treadmill.writeStick x y s.plain
        written := true }
    else { s with plain := s.treadmill.writeStick x y s.plain } := by
  unfold Session.setStick
  by_cases hw : s.treadmill.activated ∧ ¬s.treadmill.Remembers x y
  · simp [setStick_eq, hw]
  · rw [setStick_eq, if_neg hw, if_neg hw, decide_eq_false hw, Bool.or_false]

/-- `SetConnected` is `SetStick` where it leaves a stick. -/
theorem step_of_stick {e : Call F} {x y : F} {touch : Bool} (he : e.stick = some (x, y, touch))
    (s : Session F) : ∃ connected, step e s = Session.setStick x y
      { s with treadmill := { s.treadmill with deviceIsConnected := connected } } := by
  cases e with
  | activate | deactivate => cases he
  | setStick x y =>
    cases he
    exact ⟨s.treadmill.deviceIsConnected, rfl⟩
  | setConnected connected =>
    cases connected with
    | true => cases he
    | false =>
      cases he
      refine ⟨false, ?_⟩
      simp only [step, setConnected_eq, Bool.false_eq_true, if_false]
      rfl

theorem known_setStick (x y : F) {s : Session F} (h : s.Known) : (s.setStick x y).Known := by
  rw [session_setStick]
  by_cases hw : s.treadmill.activated ∧ ¬s.treadmill.Remembers x y
  · obtain ⟨own, hm⟩ := h.mounted hw.1
    rw [if_pos hw]
    have hset := hm.setStick hw.1 x y
    rw [setStick_eq, if_pos hw] at hset
    rcases hset with ⟨-, -, hx, hy⟩ | ⟨-, -, hm', hhooks, hkind⟩
    · exact absurd ⟨hx, hy⟩ hw.2
    · exact {
        placed := by
          rw [hhooks, hkind]
          exact h.placed
        mounted := fun _ => ⟨own, hm'⟩
        holds := fun _ => hm.holds_writeStick hw.1 x y }
  · rw [if_neg hw]
    exact { placed := h.placed, mounted := h.mounted, holds := h.holds }

/-- `SetConnected` keeps a pose that the stick does not depend on. -/
theorem known_connected (connected : Bool) {s : Session F} (h : s.Known) :
    Session.Known { s with treadmill := { s.treadmill with deviceIsConnected := connected } } where
  placed := h.placed
  mounted := fun ha => by
    obtain ⟨own, hm⟩ := h.mounted ha
    exact ⟨own, hm.injective, hm.typed, hm.apart, hm.waiting, hm.shows⟩
  holds := h.holds

omit [FloatOrder F] [Arith F] in
/-- Components hold one stick. -/
theorem Holds.stick_eq {t : Treadmill F} {c : Components F} {x y x' y' : F} {touch touch' : Bool}
    (h : Holds t c x y touch) (h' : Holds t c x' y' touch') : (x, y) = (x', y') := by
  have hx : some (Value.scalar x) = some (.scalar x') := (h .x).symm.trans (h' .x)
  have hy : some (Value.scalar y) = some (.scalar y') := (h .y).symm.trans (h' .y)
  simp_all

/-- A stick that is skipped is there. -/
theorem coherent_setStick {x y : F} {s : Session F} (h : s.Known) (hplain : s.world = s.plain)
    (hshown : s.treadmill.activated → s.treadmill.Remembers x y → (x, y) = s.shown) :
    (s.setStick x y).world = (s.setStick x y).plain ∧
      (s.treadmill.activated → Holds (s.setStick x y).treadmill (s.setStick x y).world.components
        x y (literal 3 2 < hypot x y)) := by
  rw [session_setStick, ← hplain]
  by_cases ha : s.treadmill.activated
  · obtain ⟨own, hm⟩ := h.mounted ha
    by_cases hr : s.treadmill.Remembers x y
    · have hholds := h.holds ha
      rw [← hshown ha hr] at hholds
      rw [if_neg fun hw => hw.2 hr]
      exact ⟨(writeStick_same hm ha hholds).symm, fun _ => hholds⟩
    · rw [if_pos ⟨ha, hr⟩]
      exact ⟨rfl, fun _ => hm.holds_writeStick ha x y⟩
  · rw [if_neg fun hw => ha hw.1]
    exact ⟨(if_pos ha).symm, fun h => absurd h ha⟩

section Zero

variable (hzero : ¬(literal 3 2 : F) < hypot 0 0)

include hzero

theorem stick_touch {e : Call F} {x y : F} {touch : Bool} (he : e.stick = some (x, y, touch)) :
    touch = decide (literal 3 2 < hypot x y) := by
  cases e with
  | activate | deactivate => cases he
  | setStick x y =>
    cases he
    rfl
  | setConnected connected =>
    cases connected with
    | true => cases he
    | false =>
      cases he
      exact (decide_eq_false hzero).symm

theorem known_activate (index : UInt32) (c : Container) {touch x y : Handle} {s : Session F}
    (hfresh : Fresh s.world.components touch x y) (h : s.Known) :
    (step (.activate index c touch x y) s).Known := by
  obtain ⟨htouch, hx, hy⟩ := activate_components s.treadmill index c hfresh
  have hm : let r := s.treadmill.activate index c touch x y s.world
      Mounted r.1 r.2 [c] := mounted_activate h.placed index c hfresh
  rw [step, if_pos hfresh]
  exact {
    placed := placed_createComponent _ _ _ _ _
      (placed_createComponent _ _ _ _ _ (placed_createComponent _ _ _ _ _ h.placed))
    mounted := fun _ => ⟨[c], hm⟩
    holds := fun _ a => by
      have hfalse : false = decide ((literal 3 2 : F) < hypot 0 0) := (decide_eq_false hzero).symm
      cases a with
      | x => exact hx
      | y => exact hy
      | touch => exact htouch.trans (congrArg (fun b => some (Value.boolean b)) hfalse) }

theorem known_step (e : Call F) {s : Session F} (h : s.Known) : (step e s).Known := by
  have hstick : ∀ {x y touch}, e.stick = some (x, y, touch) → (step e s).Known := by
    intro x y touch he
    obtain ⟨connected, hstep⟩ := step_of_stick he s
    rw [hstep]
    exact known_setStick x y (known_connected connected h)
  cases e with
  | activate index c touch x y =>
    by_cases hfresh : Fresh s.world.components touch x y
    · exact known_activate hzero index c hfresh h
    · rw [step, if_neg hfresh]
      exact h
  | deactivate =>
    exact {
      placed := h.placed
      mounted := fun ha => absurd rfl ha
      holds := fun ha => absurd rfl ha }
  | setStick x y => exact hstick rfl
  | setConnected connected =>
    cases connected with
    | false => exact hstick rfl
    | true =>
      have hstep : step (.setConnected true) s =
          { s with treadmill := { s.treadmill with deviceIsConnected := true } } := by
        simp [step, setConnected_eq]
      rw [hstep]
      exact known_connected true h

/-- **A call does what it should if and only if it skips no stick that is not there.** -/
theorem coherent_iff_shown (e : Call F) {s : Session F} (h : s.Known ∧ s.world = s.plain) :
    Coherent e s ↔ Shown e s := by
  obtain ⟨hknown, hplain⟩ := h
  constructor
  · rintro ⟨-, hholds⟩ x y touch he ha hremembers
    obtain ⟨connected, hstep⟩ := step_of_stick he s
    have hheld := hholds x y touch he ha
    rw [hstep, session_setStick, if_neg fun hw => hw.2 hremembers] at hheld
    exact hheld.stick_eq (hknown.holds ha)
  · intro hshown
    have hstick : ∀ {x y touch}, e.stick = some (x, y, touch) → Coherent e s := by
      intro x y touch he
      obtain ⟨connected, hstep⟩ := step_of_stick he s
      obtain ⟨hworld, hholds⟩ := coherent_setStick (known_connected connected hknown) hplain
        (hshown x y touch he)
      rw [Coherent, hstep]
      refine ⟨hworld, fun x' y' touch' he' ha => ?_⟩
      rw [he, Option.some.injEq] at he'
      cases he'
      rw [stick_touch hzero he]
      exact hholds ha
    cases e with
    | activate index c touch x y =>
      refine ⟨?_, fun _ _ _ he => nomatch he⟩
      rw [step]
      split
      · rw [hplain]
      · exact hplain
    | deactivate => exact ⟨hplain, fun _ _ _ he => nomatch he⟩
    | setStick x y => exact hstick rfl
    | setConnected connected =>
      cases connected with
      | false => exact hstick rfl
      | true =>
        refine ⟨?_, fun _ _ _ he => nomatch he⟩
        rw [step, setConnected_eq]
        exact hplain

/-- **The components hold what the calls say, and vrserver sees nothing of what is skipped, in a
run whose calls never skip a stick that the components do not hold**: a stick that equals the last
one is left of this activation, or it is zero. -/
theorem coherent_iff {w : World F}
    (hw : Placed w.components.kind w.hooks.slot w.hooks.pending) (es : List (Call F)) :
    Meets Coherent step es (Session.init w) ↔ Meets Shown step es (Session.init w) := by
  have hstep : ∀ e (s : Session F), Shown e s → s.Known ∧ s.world = s.plain →
      (step e s).Known ∧ (step e s).world = (step e s).plain := by
    intro e s hshown h
    exact ⟨known_step hzero e h.1, ((coherent_iff_shown hzero e h).mpr hshown).1⟩
  have hiff : ∀ e (s : Session F), s.Known ∧ s.world = s.plain → (Coherent e s ↔ Shown e s) :=
    fun e _ h => coherent_iff_shown hzero e h
  exact Meets.iff_of_invariant hstep hiff es ⟨known_init hw, rfl⟩

end Zero

/-- A stick that is held over an activation. -/
def heldOver : List (Call ℚ) :=
  [.activate 5 1 1 2 3, .setStick 0 1, .deactivate, .activate 5 1 4 5 6, .setStick 0 1]

theorem coherent_iff_heldOver : Meets Coherent step heldOver (Session.init (World.init false 0)) ↔
    Meets Shown step heldOver (Session.init (World.init false 0)) :=
  coherent_iff (by decide +kernel) (placed_init _ false 0) heldOver

/-- It is not written to the new components. -/
theorem not_coherent :
    ¬∀ es : List (Call ℚ), Meets Coherent step es (Session.init (World.init false 0)) := by
  intro h
  have hlast := (h heldOver).2.2.2.2.1
  have hheld := hlast.2 0 1 _ rfl (by decide) .y
  exact absurd hheld (by decide)

end Rebocap.Driver.Treadmill
