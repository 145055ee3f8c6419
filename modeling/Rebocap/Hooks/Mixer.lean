import Rebocap.Hooks.Handles
import Rebocap.Lib.Run

/-!
# What an override shows

Between two captures the hooks are a mixer: the stick that is held shows the vector that `Drive`
computed for it last, and everything else what its driver wrote last. `Drive` does not write a
vector that compares equal to the last one.

* `Mixing.mixes_run` — the hooks keep to this, and so do they without the comparison
* `Mixing.mixed` — for `float` a held axis differs from the vector in the sign of a zero at most
* `Mixing.not_exact` — and it can differ in that
-/

namespace Rebocap.Hooks

open Lib FloatOrder Arith

variable {F : Type}

/-! ## `Drive` without the comparison -/

section Drive

variable [FloatOrder F] [Arith F]

/-- The vector that `Drive` computes for a stick. -/
def driveVectorOf (i : Fin 2) (speed dirX dirY : F) (w : World F) : F × F :=
  driveVector (w.hooks.sticks i).realX (w.hooks.sticks i).realY speed dirX dirY

/-- `hold` without the comparison with the last values. -/
def inject (i : Fin 2) (speed dirX dirY : F) (w : World F) : World F :=
  let v := driveVectorOf i speed dirX dirY w
  { hooks := { w.hooks with overriding := some i, writtenX := v.1, writtenY := v.2 }
    components := w.components.writeStick (w.hooks.sticks i) v.1 v.2 true }

/-- `Drive`, with what it does to hold a stick. -/
def driveWith (holder : Fin 2 → F → F → F → World F → World F) (hand : Int) (speed dirX dirY : F)
    (w : World F) : World F :=
  match driven w.hooks hand speed with
  | none => releaseCurrent w
  | some i =>
    holder i speed dirX dirY (if w.hooks.overriding ≠ some i then releaseCurrent w else w)

theorem driveWith_hold (hand : Int) (speed dirX dirY : F) (w : World F) :
    driveWith hold hand speed dirX dirY w = drive hand speed dirX dirY w := rfl

end Drive

/-! ## Sessions -/

/-- The hooks, with what the drivers wrote and what `Drive` computed. -/
structure Mixing (F : Type) where
  world : World F
  /-- What the components' drivers wrote last. -/
  plain : Components F
  /-- What `Drive` computed last for each stick. -/
  vector : Fin 2 → F × F

namespace Mixing

inductive Event (F : Type) where
  | drive (hand : Int) (speed dirX dirY : F)
  | update (handle : Handle) (value : Value F)

/-- What vrserver shows at the start counts as written by the drivers. -/
def start [Zero F] (w : World F) : Mixing F := ⟨w, w.components, fun _ => (0, 0)⟩

def stepWith [FloatOrder F] [Arith F] (holder : Fin 2 → F → F → F → World F → World F)
    (e : Event F) (s : Mixing F) : Mixing F :=
  match e with
  | .drive hand speed dirX dirY =>
    { s with
      world := driveWith holder hand speed dirX dirY s.world
      vector := match driven s.world.hooks hand speed with
        | none => s.vector
        | some i => Function.update s.vector i (driveVectorOf i speed dirX dirY s.world) }
  | .update h v => { s with world := hookUpdate h v s.world, plain := s.plain.write h v }

/-- No stick is held, and vrserver shows what the sticks have recorded, each component once. -/
structure Start (w : World F) : Prop where
  idle : w.hooks.overriding = none
  distinct : ∀ {i j a b}, w.hooks.slot i a ≠ 0 → w.hooks.slot i a = w.hooks.slot j b →
    i = j ∧ a = b
  recorded : ∀ i a, w.hooks.slot i a ≠ 0 →
    w.components (w.hooks.slot i a) = some ((w.hooks.sticks i).real a)

/-- The component is one of the stick that is held. -/
def Overridden (s : Mixing F) (k : Handle) : Prop :=
  k ≠ 0 ∧ ∃ i a, s.world.hooks.overriding = some i ∧ s.world.hooks.slot i a = k

/-- The hooks are a mixer, where `same v x` says that an axis with the vector's component `v` may
show `x`. -/
structure Mixes (same : F → F → Prop) (s : Mixing F) : Prop where
  placed : Placed s.world.components.kind s.world.hooks.slot []
  kinds : s.plain.kind = s.world.components.kind
  real : ∀ i a, s.world.hooks.slot i a ≠ 0 →
    s.plain (s.world.hooks.slot i a) = some ((s.world.hooks.sticks i).real a)
  complete : ∀ i, s.world.hooks.overriding = some i → (s.world.hooks.sticks i).complete
  vector : ∀ i, s.world.hooks.overriding = some i →
    same (s.vector i).1 s.world.hooks.writtenX ∧ same (s.vector i).2 s.world.hooks.writtenY
  shown : ∀ i a, s.world.hooks.overriding = some i → s.world.hooks.slot i a ≠ 0 →
    s.world.components (s.world.hooks.slot i a) =
      some (axisValue s.world.hooks.writtenX s.world.hooks.writtenY true a)
  others : ∀ k, ¬s.Overridden k → s.world.components k = s.plain k

theorem mixes_start [Zero F] {same : F → F → Prop} {w : World F} (hw : Start w) :
    Mixes same (start w) := by
  have hidle : ∀ {i}, (start w).world.hooks.overriding ≠ some i := by
    intro i hi
    cases hw.idle.symm.trans hi
  have htyped : ∀ {i a}, w.hooks.slot i a ≠ 0 →
      w.components.kind (w.hooks.slot i a) = some a.isBoolean := by
    intro i a h0
    rw [Components.kind, hw.recorded i a h0]
    cases a <;> rfl
  refine ⟨⟨hw.distinct, htyped, List.nodup_nil, ?_, ?_⟩, rfl, hw.recorded, ?_, ?_, ?_, ?_⟩
  · exact fun p hp => by cases hp
  · exact fun p hp => by cases hp
  · exact fun i hi => absurd hi hidle
  · exact fun i hi => absurd hi hidle
  · exact fun i a hi => absurd hi hidle
  · exact fun k _ => rfl

/-! ## Updates -/

variable {same : F → F → Prop} {s : Mixing F}

theorem complete_setReal (st : Stick F) (a : Axis) (v : Value F) :
    (st.setReal a v).complete ↔ st.complete := by
  cases a <;> cases v <;> rfl

/-- An update of a component that a stick holds is recorded, and withheld from vrserver while the
stick is held. -/
theorem Mixes.updateHeld (hs : Mixes same s) {i : Fin 2} {a : Axis} {v : Value F}
    (h0 : s.world.hooks.slot i a ≠ 0) (ha : a.isBoolean = v.isBoolean) :
    Mixes same { s with
      world := hookUpdate (s.world.hooks.slot i a) v s.world
      plain := s.plain.write (s.world.hooks.slot i a) v } := by
  have hupdate := hookUpdate_held hs.placed h0 ha
  have hslot := slot_hookUpdate (s.world.hooks.slot i a) v s.world
  have hkind := kind_hookUpdate (s.world.hooks.slot i a) v s.world
  have hhooks : (hookUpdate (s.world.hooks.slot i a) v s.world).hooks =
      s.world.hooks.setStick i ((s.world.hooks.sticks i).setReal a v) := by
    rw [hupdate]
  constructor
  · rw [hkind, hslot]
    exact hs.placed
  · rw [hkind, Components.kind_write, hs.kinds]
  · intro j b hj
    dsimp only at hj ⊢
    rw [hslot] at hj ⊢
    exact recorded_held hs.placed hs.kinds.symm h0 ha fun _ => hs.real j b hj
  · intro j hj
    dsimp only at hj ⊢
    rw [hhooks] at hj ⊢
    by_cases hi : j = i
    · subst hi
      rw [State.setStick_self, complete_setReal]
      exact hs.complete j hj
    · rw [State.setStick_other _ _ hi]
      exact hs.complete j hj
  · intro j hj
    dsimp only at hj ⊢
    rw [hhooks] at hj ⊢
    exact hs.vector j hj
  · intro j b hj hb
    dsimp only at hj hb ⊢
    rw [hslot] at hb ⊢
    rw [hupdate] at hj ⊢
    have hshown := hs.shown j b hj hb
    dsimp only
    split
    · -- the update is withheld
      exact hshown
    next ho =>
      -- the stick is not the one that is held, so the component is another one
      have hji : s.world.hooks.slot j b ≠ s.world.hooks.slot i a := by
        intro hji
        obtain ⟨rfl, -⟩ := hs.placed.unique h0 hji.symm
        exact ho hj
      rw [Components.write_other hji]
      exact hshown
  · intro k hk
    have hk' : ¬s.Overridden k := by
      rintro ⟨hk0, j, b, hj, hb⟩
      refine hk ⟨hk0, j, b, ?_, ?_⟩
      · dsimp only
        rw [hhooks]
        exact hj
      · dsimp only
        rw [hslot]
        exact hb
    refine shown_held hs.placed hs.kinds.symm h0 ha ?_ (hs.others k hk')
    rintro rfl hi
    exact hk' ⟨h0, i, a, hi, rfl⟩

/-- An update of another component reaches vrserver. -/
theorem Mixes.updateFree (hs : Mixes same s) {h : Handle} {v : Value F}
    (hfree : ∀ i a, a.isBoolean = v.isBoolean → h ≠ 0 → s.world.hooks.slot i a ≠ h) :
    Mixes same { s with world := hookUpdate h v s.world, plain := s.plain.write h v } := by
  rw [hookUpdate_free hfree]
  constructor
  · rw [Components.kind_write]
    exact hs.placed
  · rw [Components.kind_write, Components.kind_write, hs.kinds]
  · intro i a h0
    exact (write_unheld hs.placed hs.kinds.symm hfree h0).trans (hs.real i a h0)
  · exact hs.complete
  · exact hs.vector
  · intro i a hi h0
    exact (write_unheld hs.placed rfl hfree h0).trans (hs.shown i a hi h0)
  · intro k hk
    exact Components.write_congr hs.kinds.symm (hs.others k hk)

theorem Mixes.update (hs : Mixes same s) (h : Handle) (v : Value F) :
    Mixes same { s with world := hookUpdate h v s.world, plain := s.plain.write h v } := by
  by_cases hheld : ∃ i a, a.isBoolean = v.isBoolean ∧ h ≠ 0 ∧ s.world.hooks.slot i a = h
  · obtain ⟨i, a, ha, h0, rfl⟩ := hheld
    exact hs.updateHeld h0 ha
  · exact hs.updateFree fun i a ha h0 hia => hheld ⟨i, a, ha, h0, hia⟩

/-! ## Releasing and holding -/

/-- A complete stick has its axes, so nothing is written to no component. -/
theorem writeStick_zero {c : Components F} {st : Stick F} (hst : st.complete) (x y : F)
    (touch : Bool) : c.writeStick st x y touch 0 = c 0 := by
  unfold Components.writeStick
  split
  next htouch =>
    rw [Components.write_other htouch.symm, Components.write_other hst.2.2.symm,
      Components.write_other hst.2.1.symm]
  next => rw [Components.write_other hst.2.2.symm, Components.write_other hst.2.1.symm]

/-- What is written to the components of a stick. -/
theorem Mixes.writeStick (hs : Mixes same s) {i : Fin 2}
    (hi : (s.world.hooks.sticks i).complete) (x y : F) (touch : Bool) (k : Handle) :
    (∃ a, k ≠ 0 ∧ s.world.hooks.slot i a = k ∧
        s.world.components.writeStick (s.world.hooks.sticks i) x y touch k =
          some (axisValue x y touch a)) ∨
      (∀ a, s.world.hooks.slot i a = k → k = 0) ∧
        s.world.components.writeStick (s.world.hooks.sticks i) x y touch k =
          s.world.components k := by
  by_cases hk0 : k = 0
  · subst hk0
    exact .inr ⟨fun _ _ => rfl, writeStick_zero hi x y touch⟩
  · by_cases hk : ∃ a, s.world.hooks.slot i a = k
    · obtain ⟨a, rfl⟩ := hk
      exact .inl ⟨a, hk0, rfl, writeStick_slot x y touch hs.placed hk0⟩
    · refine .inr ⟨fun a ha => absurd ⟨a, ha⟩ hk, ?_⟩
      exact writeStick_other x y touch fun a ha => hk ⟨a, ha⟩

/-- **A release shows what the drivers wrote last, everywhere.** -/
theorem Mixes.restores (hs : Mixes same s) {i : Fin 2}
    (hi : s.world.hooks.overriding = some i) : (Hooks.release i s.world).components = s.plain := by
  funext k
  show s.world.components.writeStick (s.world.hooks.sticks i) _ _ _ k = _
  rcases hs.writeStick (hs.complete i hi) (s.world.hooks.sticks i).realX
    (s.world.hooks.sticks i).realY (s.world.hooks.sticks i).realTouch k with
    ⟨a, hk0, rfl, hk⟩ | ⟨hk0, hk⟩
  · rw [hk, axisValue_real, hs.real i a hk0]
  · rw [hk]
    refine hs.others k ?_
    rintro ⟨hk0', j, a, hj, ha⟩
    cases hi.symm.trans hj
    exact hk0' (hk0 a ha)

theorem Mixes.release (hs : Mixes same s) {i : Fin 2} (hi : s.world.hooks.overriding = some i) :
    Mixes same { s with world := Hooks.release i s.world } := by
  have hkind : (Hooks.release i s.world).components.kind = s.world.components.kind :=
    kind_writeStick _ _ _ _ _
  have hnone : ∀ {j}, (Hooks.release i s.world).hooks.overriding ≠ some j := fun h => by cases h
  constructor
  · rw [hkind]
    exact hs.placed
  · rw [hkind]
    exact hs.kinds
  · exact hs.real
  · exact fun j hj => absurd hj hnone
  · exact fun j hj => absurd hj hnone
  · exact fun j a hj => absurd hj hnone
  · exact fun k _ => congrFun (hs.restores hi) k

section Hold

variable [FloatOrder F] [Arith F] {holder : Fin 2 → F → F → F → World F → World F}

/-- A way to hold a stick: write the vector, or leave one that may stand for it. -/
def Holds (same : F → F → Prop) (holder : Fin 2 → F → F → F → World F → World F) : Prop :=
  ∀ i speed dirX dirY w, holder i speed dirX dirY w = inject i speed dirX dirY w ∨
    holder i speed dirX dirY w = w ∧ w.hooks.overriding = some i ∧
      same (driveVectorOf i speed dirX dirY w).1 w.hooks.writtenX ∧
      same (driveVectorOf i speed dirX dirY w).2 w.hooks.writtenY

/-- `Drive` leaves a vector that compares equal. -/
def SameOrEqual (v x : F) : Prop := x = v ∨ (v == x) = true

theorem holds_hold : Holds (F := F) SameOrEqual Hooks.hold := by
  intro i speed dirX dirY w
  unfold Hooks.hold
  dsimp only
  split
  next h => exact .inr ⟨rfl, h.1, .inr h.2.1, .inr h.2.2⟩
  next => exact .inl rfl

/-- Without the comparison every vector is written. -/
def Exact (v x : F) : Prop := x = v

omit [FloatOrder F] [Arith F] in
theorem exact_self (v : F) : Exact v v := rfl

theorem holds_inject : Holds (F := F) Exact inject := fun _ _ _ _ _ => .inl rfl

/-- A stick that is held while no other is. -/
theorem Mixes.hold (hsame : ∀ v, same v v) (hholder : Holds same holder) (hs : Mixes same s)
    {i : Fin 2} (speed dirX dirY : F) (hc : (s.world.hooks.sticks i).complete)
    (ho : s.world.hooks.overriding = none ∨ s.world.hooks.overriding = some i) :
    Mixes same { s with
      world := holder i speed dirX dirY s.world
      vector := Function.update s.vector i (driveVectorOf i speed dirX dirY s.world) } := by
  rcases hholder i speed dirX dirY s.world with hinject | ⟨hsuppressed, hi, hx, hy⟩
  · -- the vector is written to the components of `i` and to no others
    rw [hinject]
    have hkind : (inject i speed dirX dirY s.world).components.kind = s.world.components.kind :=
      kind_writeStick _ _ _ _ _
    have hself : ∀ {j}, (inject i speed dirX dirY s.world).hooks.overriding = some j → j = i :=
      fun h => (Option.some.inj h).symm
    have hwrite := hs.writeStick hc (driveVectorOf i speed dirX dirY s.world).1
      (driveVectorOf i speed dirX dirY s.world).2 true
    constructor
    · rw [hkind]
      exact hs.placed
    · rw [hkind]
      exact hs.kinds
    · exact hs.real
    · intro j hj
      rw [hself hj]
      exact hc
    · intro j hj
      rw [hself hj]
      dsimp only
      rw [Function.update_self]
      exact ⟨hsame _, hsame _⟩
    · intro j a hj h0
      rw [hself hj] at h0 ⊢
      exact writeStick_slot _ _ true hs.placed h0
    · intro k hk
      rcases hwrite k with ⟨a, hk0, ha, -⟩ | ⟨-, hsamek⟩
      · exact absurd ⟨hk0, i, a, rfl, ha⟩ hk
      · refine hsamek.trans (hs.others k ?_)
        rintro ⟨hk0, j, a, hj, ha⟩
        rcases ho with ho | ho
        · cases ho.symm.trans hj
        · cases ho.symm.trans hj
          exact hk ⟨hk0, i, a, rfl, ha⟩
  · -- nothing is written, and what is shown may stand for the new vector
    rw [hsuppressed]
    refine ⟨hs.placed, hs.kinds, hs.real, hs.complete, ?_, hs.shown, hs.others⟩
    intro j hj
    cases hi.symm.trans hj
    dsimp only
    rw [Function.update_self]
    exact ⟨hx, hy⟩

omit [Arith F] in
theorem complete_of_driven {s : State F} {hand : Int} {speed : F} {i : Fin 2}
    (h : driven s hand speed = some i) : (s.sticks i).complete := by
  unfold driven at h
  split at h
  · cases h
  · split at h
    next h0 =>
      cases h
      exact h0.2
    next =>
      split at h
      next h1 =>
        cases h
        exact h1.2
      next => cases h

/-! ## Runs -/

omit [FloatOrder F] [Arith F] in
/-- A stick that is not to be held any more is released first. -/
theorem Mixes.releaseCurrent (hs : Mixes same s) :
    Mixes same { s with world := Hooks.releaseCurrent s.world } ∧
      (Hooks.releaseCurrent s.world).hooks.overriding = none ∧
      (Hooks.releaseCurrent s.world).hooks.sticks = s.world.hooks.sticks := by
  unfold Hooks.releaseCurrent
  cases ho : s.world.hooks.overriding with
  | none => exact ⟨hs, ho, rfl⟩
  | some i => exact ⟨hs.release ho, rfl, rfl⟩

theorem mixes_step (hsame : ∀ v, same v v) (hholder : Holds same holder) (e : Event F)
    (s : Mixing F) (hs : Mixes same s) : Mixes same (stepWith holder e s) := by
  cases e with
  | update h v => exact hs.update h v
  | drive hand speed dirX dirY =>
    obtain ⟨hreleased, hnone, hsticks⟩ := hs.releaseCurrent
    unfold stepWith driveWith
    dsimp only
    cases hd : driven s.world.hooks hand speed with
    | none => exact hreleased
    | some i =>
      have hc := complete_of_driven hd
      dsimp only
      split
      next =>
        -- the release keeps the real values that the vector is computed from
        have hhold' := hreleased.hold hsame hholder speed dirX dirY (by rw [hsticks]; exact hc)
          (.inl hnone)
        unfold driveVectorOf at hhold'
        rw [hsticks] at hhold'
        exact hhold'
      next ho => exact hs.hold hsame hholder speed dirX dirY hc (.inr (not_not.mp ho))

/-- **The hooks are a mixer in every run**, with any way to hold a stick. -/
theorem mixes_run (hsame : ∀ v, same v v) (hholder : Holds same holder) {w : World F} (hw : Start w)
    (es : List (Event F)) : Mixes same (run (stepWith holder) es (start w)) :=
  run_invariant (mixes_step hsame hholder) es (mixes_start hw)

/-! ## What is shown -/

/-- While a stick is held it shows its vector and its touch is true. Everything else shows what its
driver wrote last, which the sticks have recorded. The stick that is held is restored before
another one is. -/
structure Ideal (same : F → F → Prop) (s : Mixing F) : Prop where
  x : ∀ i, s.world.hooks.overriding = some i →
    ∃ x, s.world.components (s.world.hooks.slot i .x) = some (.scalar x) ∧ same (s.vector i).1 x
  y : ∀ i, s.world.hooks.overriding = some i →
    ∃ y, s.world.components (s.world.hooks.slot i .y) = some (.scalar y) ∧ same (s.vector i).2 y
  touch : ∀ i, s.world.hooks.overriding = some i → s.world.hooks.slot i .touch ≠ 0 →
    s.world.components (s.world.hooks.slot i .touch) = some (.boolean true)
  others : ∀ k, ¬s.Overridden k → s.world.components k = s.plain k
  real : ∀ i a, s.world.hooks.slot i a ≠ 0 →
    s.plain (s.world.hooks.slot i a) = some ((s.world.hooks.sticks i).real a)
  restores : ∀ j hand speed dirX dirY, s.world.hooks.overriding = some j →
    driven s.world.hooks hand speed ≠ some j →
      (Hooks.release j s.world).components = s.plain ∧
        drive hand speed dirX dirY s.world =
          match driven s.world.hooks hand speed with
          | none => Hooks.release j s.world
          | some i => Hooks.hold i speed dirX dirY (Hooks.release j s.world)

theorem Mixes.ideal (hs : Mixes same s) : Ideal same s where
  x i hi := ⟨_, hs.shown i .x hi (hs.complete i hi).2.1, (hs.vector i hi).1⟩
  y i hi := ⟨_, hs.shown i .y hi (hs.complete i hi).2.2, (hs.vector i hi).2⟩
  touch i hi h0 := hs.shown i .touch hi h0
  others := hs.others
  real := hs.real
  restores j hand speed dirX dirY hj hd := by
    refine ⟨hs.restores hj, ?_⟩
    have hreleased : released s.world.hooks hand speed = some j := by
      unfold released
      rw [hj, if_neg (Ne.symm hd)]
    have hdrive := drive_eq hand speed dirX dirY s.world
    rw [hreleased] at hdrive
    exact hdrive

/-! ### Without the comparison -/

/-- Two sessions that differ in what vrserver shows. -/
structure Twin (s u : Mixing F) : Prop where
  plain : u.plain = s.plain
  vector : u.vector = s.vector
  sticks : u.world.hooks.sticks = s.world.hooks.sticks
  overriding : u.world.hooks.overriding = s.world.hooks.overriding

omit [FloatOrder F] [Arith F] in
/-- What an update records depends on the sticks and on which one is held. -/
theorem recordLoop_congr (record : Stick F → Option (Stick F)) :
    ∀ (is : List (Fin 2)) {a b : State F}, a.sticks = b.sticks → a.overriding = b.overriding →
      (recordLoop record is a).1.sticks = (recordLoop record is b).1.sticks ∧
        (recordLoop record is a).1.overriding = (recordLoop record is b).1.overriding := by
  intro is
  induction is with
  | nil =>
    intro a b hsticks ho
    exact ⟨hsticks, ho⟩
  | cons i is ih =>
    intro a b hsticks ho
    have hset : ∀ st, (a.setStick i st).sticks = (b.setStick i st).sticks := by
      intro st
      unfold State.setStick
      rw [hsticks]
    unfold recordLoop
    rw [hsticks, ho]
    cases record (b.sticks i) with
    | none => exact ih hsticks ho
    | some st =>
      dsimp only
      split
      · exact ⟨hset st, ho⟩
      · exact ih (hset st) ho

theorem driveWith_hooks (hholder : Holds same holder) (hand : Int) (speed dirX dirY : F)
    (w : World F) :
    (driveWith holder hand speed dirX dirY w).hooks.sticks = w.hooks.sticks ∧
      (driveWith holder hand speed dirX dirY w).hooks.overriding = driven w.hooks hand speed := by
  have hrelease : (Hooks.releaseCurrent w).hooks.sticks = w.hooks.sticks ∧
      (Hooks.releaseCurrent w).hooks.overriding = none := by
    unfold Hooks.releaseCurrent
    cases ho : w.hooks.overriding with
    | none => exact ⟨rfl, ho⟩
    | some i => exact ⟨rfl, rfl⟩
  have hhold : ∀ i w', (holder i speed dirX dirY w').hooks.sticks = w'.hooks.sticks ∧
      (holder i speed dirX dirY w').hooks.overriding = some i := by
    intro i w'
    rcases hholder i speed dirX dirY w' with hw | ⟨hw, ho, -⟩ <;> rw [hw]
    · exact ⟨rfl, rfl⟩
    · exact ⟨rfl, ho⟩
  unfold driveWith
  cases driven w.hooks hand speed with
  | none => exact hrelease
  | some i =>
    dsimp only
    split
    · exact ⟨(hhold i _).1.trans hrelease.1, (hhold i _).2⟩
    · exact hhold i w

theorem twin_step {same' : F → F → Prop} {holder' : Fin 2 → F → F → F → World F → World F}
    (hholder : Holds same holder) (hholder' : Holds same' holder') (e : Event F)
    {s u : Mixing F} (h : Twin s u) : Twin (stepWith holder e s) (stepWith holder' e u) := by
  cases e with
  | update k v =>
    obtain ⟨hsticks, ho⟩ := recordLoop_congr (Stick.record k v) [0, 1] h.sticks h.overriding
    refine ⟨?_, h.vector, ?_, ?_⟩
    · show u.plain.write k v = s.plain.write k v
      rw [h.plain]
    · show (hookUpdate k v u.world).hooks.sticks = (hookUpdate k v s.world).hooks.sticks
      rw [hookUpdate_eq, hookUpdate_eq]
      exact hsticks
    · show (hookUpdate k v u.world).hooks.overriding = (hookUpdate k v s.world).hooks.overriding
      rw [hookUpdate_eq, hookUpdate_eq]
      exact ho
  | drive hand speed dirX dirY =>
    obtain ⟨hsticks, ho⟩ := driveWith_hooks hholder hand speed dirX dirY s.world
    obtain ⟨hsticks', ho'⟩ := driveWith_hooks hholder' hand speed dirX dirY u.world
    have hdriven : driven u.world.hooks hand speed = driven s.world.hooks hand speed := by
      unfold driven
      rw [h.sticks]
    refine ⟨h.plain, ?_, ?_, ?_⟩
    · unfold stepWith driveVectorOf
      dsimp only
      rw [hdriven, h.vector, h.sticks]
    · exact hsticks'.trans (h.sticks.trans hsticks.symm)
    · exact ho'.trans (hdriven.trans ho.symm)

theorem twin_run {same' : F → F → Prop} {holder' : Fin 2 → F → F → F → World F → World F}
    (hholder : Holds same holder) (hholder' : Holds same' holder') :
    ∀ (es : List (Event F)) {s u : Mixing F}, Twin s u →
      Twin (run (stepWith holder) es s) (run (stepWith holder') es u) := by
  intro es
  induction es with
  | nil =>
    intro s u h
    exact h
  | cons e es ih =>
    intro s u h
    exact ih (twin_step hholder hholder' e h)

/-- `d` is what `c` is, or may stand for it. -/
def SameShown (same : F → F → Prop) (c d : Option (Value F)) : Prop :=
  d = c ∨ ∃ v x, c = some (.scalar v) ∧ d = some (.scalar x) ∧ same v x

omit [FloatOrder F] [Arith F] in
/-- What vrserver shows in both, where the second one shows every vector itself. -/
theorem Mixes.sameShown {u : Mixing F} (hs : Mixes same s) (hu : Mixes Exact u)
    (h : Twin s u) (k : Handle) : SameShown same (u.world.components k) (s.world.components k) := by
  have hslot : u.world.hooks.slot = s.world.hooks.slot := by
    funext i a
    rw [State.slot, h.sticks, State.slot]
  by_cases hk : s.Overridden k
  · obtain ⟨hk0, i, a, hi, rfl⟩ := hk
    have hi' : u.world.hooks.overriding = some i := h.overriding.trans hi
    have hshown := hs.shown i a hi hk0
    have hshown' := hu.shown i a hi' (by rw [hslot]; exact hk0)
    rw [hslot, (hu.vector i hi').1, (hu.vector i hi').2, h.vector] at hshown'
    rw [hshown, hshown']
    cases a with
    | x => exact .inr ⟨_, _, rfl, rfl, (hs.vector i hi).1⟩
    | y => exact .inr ⟨_, _, rfl, rfl, (hs.vector i hi).2⟩
    | touch => exact .inl rfl
  · have hk' : ¬u.Overridden k := by
      rintro ⟨hk0, i, a, hi, ha⟩
      exact hk ⟨hk0, i, a, h.overriding.symm.trans hi, by rw [← hslot]; exact ha⟩
    rw [hs.others k hk, hu.others k hk', h.plain]
    exact .inl rfl

end Hold

/-! ## `float` -/

/-- The same number, where a zero has a sign. -/
def SameNumber (v x : Binary32) : Prop := x = v ∨ v.magnitude = 0 ∧ x.magnitude = 0

theorem Mixes.imp {same same' : F → F → Prop} {s : Mixing F} (h : ∀ v x, same v x → same' v x)
    (hs : Mixes same s) : Mixes same' s :=
  ⟨hs.placed, hs.kinds, hs.real, hs.complete,
    fun i hi => ⟨h _ _ (hs.vector i hi).1, h _ _ (hs.vector i hi).2⟩, hs.shown, hs.others⟩

/-- **In every run of `Drive` and updates the stick that is held shows its vector, up to the sign
of a zero, and all else what its driver wrote last.** A `Drive` that writes every vector shows the
same. -/
theorem mixed [Arith Binary32] {w : World Binary32} (hw : Start w) (es : List (Event Binary32)) :
    let s := run (stepWith hold) es (start w)
    let u := run (stepWith inject) es (start w)
    Ideal SameNumber s ∧
      ∀ k, SameShown SameNumber (u.world.components k) (s.world.components k) := by
  intro s u
  have hs : Mixes SameNumber s := by
    refine (mixes_run (fun v => .inl rfl) holds_hold hw es).imp ?_
    rintro v x (rfl | heq)
    · exact .inl rfl
    · exact Binary32.eq_or_zero_of_beq heq
  have hu : Mixes Exact u := mixes_run exact_self holds_inject hw es
  have htwin : Twin s u := twin_run holds_hold holds_inject es ⟨rfl, rfl, rfl, rfl⟩
  exact ⟨hs.ideal, fun k => hs.sameShown hu htwin k⟩

/-! ### A zero of the other sign -/

/-- `float` where a factor is one and a vector lies along the first axis. -/
@[reducible] def unitArith : Arith Binary32 where
  add x _ := x
  sub x _ := x
  neg x := x
  mul x y := if y = 1 then x else y
  div x _ := x
  sqrt x := x
  cos x := x
  sin x := x
  hypot x y := if y = 0 then ⟨x.bits &&& 0x7FFFFFFF⟩ else y
  copysign x _ := x

/-- A left stick that stands in the centre. -/
def centred : World Binary32 where
  hooks := { (State.init true 7 : State Binary32) with
    sticks := fun i =>
      if i = 0 then ⟨7, 9, 1, 2, 3, 0, 0, false⟩ else ⟨0, 0, 0, 0, 0, 0, 0, false⟩ }
  components h :=
    if h = 1 ∨ h = 2 then some (.scalar 0) else if h = 3 then some (.boolean false) else none

theorem start_centred : Start centred where
  idle := rfl
  distinct := by decide +kernel
  recorded := by decide +kernel

/-- Forward, and then forward with a horizontal part of minus zero. -/
def forwardTwice : List (Event Binary32) :=
  [.drive 0 1 0 1, .drive 0 1 ⟨0x80000000⟩ 1]

/-- Updates in between, and a release. -/
theorem mixed_centred :
    let s := @run _ _ (@stepWith _ _ unitArith (@hold _ _ unitArith))
      (forwardTwice ++ [.update 1 (.scalar 1), .drive (-1) 0 0 1]) (start centred)
    let u := @run _ _ (@stepWith _ _ unitArith (@inject _ _ unitArith))
      (forwardTwice ++ [.update 1 (.scalar 1), .drive (-1) 0 0 1]) (start centred)
    @Ideal _ _ unitArith SameNumber s ∧
      ∀ k, SameShown SameNumber (u.world.components k) (s.world.components k) :=
  @mixed unitArith _ start_centred _

/-- The second vector compares equal to the first one, so the positive zero stays. -/
theorem not_exact :
    ¬∀ (w : World Binary32) (es : List (Event Binary32)), Start w →
      @Ideal _ _ unitArith Exact
        (@run _ _ (@stepWith _ _ unitArith (@hold _ _ unitArith)) es (start w)) := by
  intro h
  let _ : Arith Binary32 := unitArith
  obtain ⟨x, hshown, hvector⟩ := (h centred forwardTwice start_centred).x 0 (by decide +kernel)
  have hzero : (@run _ _ (@stepWith _ _ unitArith (@hold _ _ unitArith)) forwardTwice
      (start centred)).world.components 1 = some (.scalar 0) := by
    decide +kernel
  have hx : x = 0 := by
    have hsame := hshown.symm.trans hzero
    simpa using hsame
  rw [hx] at hvector
  exact absurd hvector (by unfold Exact; decide +kernel)

end Mixing

end Rebocap.Hooks
