import Mathlib.Data.List.Nodup
import Rebocap.Hooks.Input

/-!
# Where a stick component is held

vrserver gives every component a handle of its own and `Remember` keeps it once. So a component
waits for its hand in one place, or one axis of one stick holds it.

* `Placed.hookCreate`, `Placed.resolvePending` — creating and resolving keep this
* `hookUpdate_held`, `hookUpdate_free` — an update is recorded where its component is held
* `drive_overriding`, `drive_other` — which stick `Drive` holds, and that it writes no other
  component
* `resolvePending_invariant` — what every capture keeps, `ResolvePending` keeps
-/

namespace Rebocap.Hooks

open Lib

variable {F : Type}

/-! ## Sticks and waiting components -/

/-- No component is held twice, and each is of its axis' type. -/
structure Placed (kind : Handle → Option Bool) (slot : Fin 2 → Axis → Handle)
    (waiting : List Pending) : Prop where
  unique : ∀ {i j a b}, slot i a ≠ 0 → slot i a = slot j b → i = j ∧ a = b
  typed : ∀ {i a}, slot i a ≠ 0 → kind (slot i a) = some a.isBoolean
  waiting_nodup : (waiting.map Pending.handle).Nodup
  waiting_typed : ∀ p ∈ waiting, p.handle ≠ 0 ∧ kind p.handle = some p.axis.isBoolean
  apart : ∀ p ∈ waiting, ∀ i a, slot i a ≠ p.handle

/-- The components of the sticks after a capture. -/
def captureSlot (slot : Fin 2 → Axis → Handle) (i : Fin 2) (p : Pending) :
    Fin 2 → Axis → Handle :=
  fun j a => if j = i ∧ a = p.axis then p.handle else slot j a

theorem captureSlot_self (slot : Fin 2 → Axis → Handle) (i : Fin 2) (p : Pending) :
    captureSlot slot i p i p.axis = p.handle := if_pos ⟨rfl, rfl⟩

theorem captureSlot_other {slot : Fin 2 → Axis → Handle} {i j : Fin 2} {p : Pending} {a : Axis}
    (h : ¬(j = i ∧ a = p.axis)) : captureSlot slot i p j a = slot j a := if_neg h

namespace Placed

variable {kind kind' : Handle → Option Bool} {slot : Fin 2 → Axis → Handle}
  {waiting fewer : List Pending}

/-- Components that stop waiting. -/
theorem sublist (h : Placed kind slot waiting) (hs : fewer.Sublist waiting) :
    Placed kind slot fewer where
  unique := h.unique
  typed := h.typed
  waiting_nodup := h.waiting_nodup.sublist (hs.map _)
  waiting_typed p hp := h.waiting_typed p (hs.subset hp)
  apart p hp := h.apart p (hs.subset hp)

/-- New components elsewhere. -/
theorem grow (h : Placed kind slot waiting) (hk : ∀ k b, kind k = some b → kind' k = some b) :
    Placed kind' slot waiting where
  unique := h.unique
  typed h0 := hk _ _ (h.typed h0)
  waiting_nodup := h.waiting_nodup
  waiting_typed p hp := ⟨(h.waiting_typed p hp).1, hk _ _ (h.waiting_typed p hp).2⟩
  apart := h.apart

/-- A new component waits. -/
theorem push {p : Pending} (h : Placed kind slot waiting) (h0 : p.handle ≠ 0)
    (hkind : kind p.handle = some p.axis.isBoolean) (hwaiting : ∀ q ∈ waiting, q.handle ≠ p.handle)
    (hslot : ∀ i a, slot i a ≠ p.handle) : Placed kind slot (waiting ++ [p]) where
  unique := h.unique
  typed := h.typed
  waiting_nodup := by
    rw [List.map_append, List.nodup_append]
    refine ⟨h.waiting_nodup, List.nodup_singleton _, ?_⟩
    intro a ha b hb
    obtain ⟨q, hq, rfl⟩ := List.mem_map.mp ha
    rw [List.map_singleton, List.mem_singleton] at hb
    rw [hb]
    exact hwaiting q hq
  waiting_typed q hq := by
    rcases List.mem_append.mp hq with hq | hq
    · exact h.waiting_typed q hq
    · rw [List.mem_singleton.mp hq]
      exact ⟨h0, hkind⟩
  apart q hq := by
    rcases List.mem_append.mp hq with hq | hq
    · exact h.apart q hq
    · rw [List.mem_singleton.mp hq]
      exact hslot

/-- A waiting component is captured. -/
theorem capture {keep todo : List Pending} {p : Pending} (i : Fin 2)
    (h : Placed kind slot (keep ++ p :: todo)) :
    Placed kind (captureSlot slot i p) (keep ++ todo) := by
  have hp : p ∈ keep ++ p :: todo := by simp
  have hrest : Placed kind slot (keep ++ todo) := h.sublist (by simp)
  have hne : ∀ q ∈ keep ++ todo, p.handle ≠ q.handle := by
    have hnd := h.waiting_nodup
    rw [List.map_append, List.map_cons, List.nodup_middle, ← List.map_append] at hnd
    intro q hq he
    exact (List.nodup_cons.mp hnd).1 (List.mem_map.mpr ⟨q, hq, he.symm⟩)
  refine ⟨?_, ?_, hrest.waiting_nodup, hrest.waiting_typed, ?_⟩
  · intro j k a b h0 he
    by_cases hj : j = i ∧ a = p.axis
    · by_cases hk : k = i ∧ b = p.axis
      · exact ⟨hj.1.trans hk.1.symm, hj.2.trans hk.2.symm⟩
      · rw [captureSlot_other hk, hj.1, hj.2, captureSlot_self] at he
        exact absurd he.symm (h.apart p hp k b)
    · by_cases hk : k = i ∧ b = p.axis
      · rw [captureSlot_other hj, hk.1, hk.2, captureSlot_self] at he
        exact absurd he (h.apart p hp j a)
      · rw [captureSlot_other hj] at h0 he
        rw [captureSlot_other hk] at he
        exact h.unique h0 he
  · intro j a h0
    by_cases hj : j = i ∧ a = p.axis
    · rw [hj.1, hj.2, captureSlot_self]
      exact (h.waiting_typed p hp).2
    · rw [captureSlot_other hj] at h0 ⊢
      exact h.typed h0
  · intro q hq j a
    by_cases hj : j = i ∧ a = p.axis
    · rw [hj.1, hj.2, captureSlot_self]
      exact hne q hq
    · rw [captureSlot_other hj]
      exact hrest.apart q hq j a

end Placed

theorem placed_init [Zero F] (kind : Handle → Option Bool) (installed : Bool)
    (driverInput : DriverInput) :
    Placed kind (State.init installed driverInput : State F).slot [] := by
  have hslot : ∀ i a, (State.init installed driverInput : State F).slot i a = 0 := by
    intro i a
    cases a <;> rfl
  refine ⟨?_, ?_, List.nodup_nil, nofun, nofun⟩
  · intro i j a b h0
    exact absurd (hslot i a) h0
  · intro i a h0
    exact absurd (hslot i a) h0

/-! ## Creating -/

/-- What `Remember` does: nothing to the sticks, and the new component waits or does not. -/
theorem remember_cases (self : DriverInput) (c : Container) (name : Option String) (h : Handle)
    (boolean : Bool) (s : State F) :
    ∃ n waiting, remember self c name h boolean s =
        { s with foreignComponents := n, pending := waiting } ∧
      (waiting = s.pending ∨ ∃ a kept, a.isBoolean = boolean ∧ kept.Sublist s.pending ∧
        waiting = kept ++ [⟨self, c, h, a⟩]) := by
  unfold remember
  cases name with
  | none => exact ⟨s.foreignComponents, s.pending, rfl, .inl rfl⟩
  | some name =>
    obtain ⟨n, hn⟩ : ∃ n, (if self ≠ s.driverInput then
        { s with foreignComponents := s.foreignComponents + 1 } else s)
          = { s with foreignComponents := n } := by
      split
      · exact ⟨_, rfl⟩
      · exact ⟨s.foreignComponents, rfl⟩
    dsimp only
    rw [hn]
    cases ha : axisOf name boolean with
    | none => exact ⟨n, s.pending, rfl, .inl rfl⟩
    | some a =>
      refine ⟨n, _, rfl, .inr ⟨a, _, axisOf_isBoolean ha, ?_, rfl⟩⟩
      dsimp only
      split
      · exact List.drop_sublist _ _
      · exact List.Sublist.refl _

/-- `Remember` on its own keeps the list to 64 components. -/
theorem remember_length (self : DriverInput) (c : Container) (name : Option String) (h : Handle)
    (boolean : Bool) (s : State F) :
    (remember self c name h boolean s).pending.length ≤ max 64 s.pending.length := by
  unfold remember
  cases name with
  | none => exact Nat.le_max_right _ _
  | some name =>
    have hseen : (if self ≠ s.driverInput then
        { s with foreignComponents := s.foreignComponents + 1 } else s).pending = s.pending := by
      split <;> rfl
    dsimp only
    cases axisOf name boolean with
    | none =>
      dsimp only
      rw [hseen]
      exact Nat.le_max_right _ _
    | some axis =>
      dsimp only
      rw [hseen, List.length_append, List.length_singleton]
      split
      · rw [List.length_drop]
        omega
      · omega

/-- A creation changes which components wait, and nothing else of the hooks. -/
theorem hookCreate_frame [Zero F] (self : DriverInput) (c : Container) (name : Option String)
    (boolean : Bool) (h : Handle) (w : World F) :
    ∃ n waiting, (hookCreate self c name boolean h w).hooks =
        { w.hooks with foreignComponents := n, pending := waiting } ∧
      ∀ p ∈ waiting, p ∈ w.hooks.pending ∨
        w.components.Free h ∧ p.handle = h ∧ p.axis.isBoolean = boolean ∧ p.container = c := by
  unfold hookCreate
  dsimp only
  by_cases hfree : w.components.Free h
  · rw [if_pos hfree]
    obtain ⟨n, waiting, hr, hwaiting⟩ := remember_cases self c name h boolean w.hooks
    refine ⟨n, waiting, hr, ?_⟩
    intro p hp
    rcases hwaiting with rfl | ⟨a, kept, ha, hkept, rfl⟩
    · exact .inl hp
    · rcases List.mem_append.mp hp with hp | hp
      · exact .inl (hkept.subset hp)
      · rw [List.mem_singleton] at hp
        subst hp
        exact .inr ⟨hfree, rfl, ha, rfl⟩
  · rw [if_neg hfree]
    exact ⟨w.hooks.foreignComponents, w.hooks.pending, rfl, fun p hp => .inl hp⟩

theorem Placed.hookCreate [Zero F] {w : World F} (self : DriverInput) (c : Container)
    (name : Option String) (boolean : Bool) (h : Handle)
    (hw : Placed w.components.kind w.hooks.slot w.hooks.pending) :
    let w' := hookCreate self c name boolean h w
    Placed w'.components.kind w'.hooks.slot w'.hooks.pending := by
  have hgrown : Placed (w.components.create boolean h).kind w.hooks.slot w.hooks.pending :=
    hw.grow fun _ _ => Components.kind_create
  unfold Hooks.hookCreate
  dsimp only
  by_cases hfree : w.components.Free h
  · rw [if_pos hfree]
    obtain ⟨n, waiting, hr, hwaiting⟩ := remember_cases self c name h boolean w.hooks
    rw [hr]
    rcases hwaiting with hp | ⟨a, kept, ha, hkept, hp⟩
    · rw [hp]
      exact hgrown
    · rw [hp]
      refine (hgrown.sublist hkept).push hfree.1 ?_ ?_ ?_
      · rw [ha]
        exact Components.kind_create_self boolean hfree
      · intro q hq
        exact hfree.ne_of_kind (hw.waiting_typed q (hkept.subset hq)).2
      · intro i b hib
        have h0 : w.hooks.slot i b ≠ 0 := by
          rw [show w.hooks.slot i b = h from hib]
          exact hfree.1
        exact hfree.ne_of_kind (hw.typed h0) hib
  · rw [if_neg hfree]
    exact hgrown

/-! ## Resolving -/

theorem slot_capture (s : State F) (i : Fin 2) (p : Pending) :
    (s.setStick i ((s.sticks i).capture p)).slot = captureSlot s.slot i p := by
  funext j a
  by_cases hj : j = i
  · subst hj
    rw [State.slot, State.setStick_self]
    by_cases ha : a = p.axis
    · rw [ha, captureSlot_self]
      unfold Stick.capture
      cases p.axis <;> rfl
    · rw [captureSlot_other fun hc => ha hc.2]
      unfold Stick.capture
      cases hp : p.axis <;> cases a <;> first | rfl | exact absurd hp.symm ha
  · rw [captureSlot_other fun hc => hj hc.1]
    rw [State.slot, State.setStick_other s _ hj, State.slot]

@[simp] theorem real_capture (s : Stick F) (p : Pending) (a : Axis) :
    (s.capture p).real a = s.real a := by
  unfold Stick.capture
  cases p.axis <;> cases a <;> rfl

/-- The loop changes the sticks only. -/
theorem resolveLoop_frame (roles : Container → Option Int) :
    ∀ (todo keep : List Pending) (completed : Bool) (s : State F),
      ∃ sticks, (resolveLoop roles keep completed todo s).1 = { s with sticks := sticks } := by
  intro todo
  induction todo with
  | nil =>
    intro _ _ s
    exact ⟨s.sticks, rfl⟩
  | cons p todo ih =>
    intro keep completed s
    unfold resolveLoop
    split
    · exact ih _ _ s
    · split
      · exact ih _ _ s
      next i _ =>
        obtain ⟨sticks, h⟩ := ih keep _ (s.setStick i ((s.sticks i).capture p))
        exact ⟨sticks, h⟩

theorem resolvePending_frame (roles : Container → Option Int) (s : State F) :
    ∃ sticks waiting, (resolvePending roles s).1 =
      { s with sticks := sticks, pending := waiting } := by
  unfold resolvePending
  dsimp only
  split
  · exact ⟨s.sticks, [], rfl⟩
  · obtain ⟨sticks, h⟩ := resolveLoop_frame roles s.pending [] false { s with pending := [] }
    rw [h]
    exact ⟨sticks, _, rfl⟩

section Invariant

variable {roles : Container → Option Int} {P : State F → List Pending → Prop}

theorem resolveLoop_invariant
    (hdrop : ∀ s keep p todo, P s (keep ++ p :: todo) → P s (keep ++ todo))
    (hcapture : ∀ s keep p todo role i, roles p.container = some role →
      handOfRole role = some i → P s (keep ++ p :: todo) →
      P (s.setStick i ((s.sticks i).capture p)) (keep ++ todo)) :
    ∀ (todo keep : List Pending) (completed : Bool) (s : State F), P s (keep ++ todo) →
      P (resolveLoop roles keep completed todo s).1
        (resolveLoop roles keep completed todo s).2.1 := by
  intro todo
  induction todo with
  | nil =>
    intro keep completed s h
    rw [List.append_nil] at h
    exact h
  | cons p todo ih =>
    intro keep completed s h
    unfold resolveLoop
    split
    next =>
      refine ih (keep ++ [p]) completed s ?_
      rw [List.append_assoc]
      exact h
    next role hrole =>
      split
      next => exact ih keep completed s (hdrop s keep p todo h)
      next i hi => exact ih keep _ _ (hcapture s keep p todo role i hrole hi h)

/-- **What every capture keeps, `ResolvePending` keeps.** `P` is about the sticks, and about the
components that wait for their hand. -/
theorem resolvePending_invariant (roles : Container → Option Int)
    (P : State F → List Pending → Prop)
    (hpending : ∀ s waiting waiting', P s waiting → P { s with pending := waiting' } waiting)
    (hdrop : ∀ s keep p todo, P s (keep ++ p :: todo) → P s (keep ++ todo))
    (hcapture : ∀ s keep p todo role i, roles p.container = some role →
      handOfRole role = some i → P s (keep ++ p :: todo) →
      P (s.setStick i ((s.sticks i).capture p)) (keep ++ todo))
    {s : State F} (h : P s s.pending) :
    P (resolvePending roles s).1 (resolvePending roles s).1.pending := by
  unfold resolvePending
  dsimp only
  split
  next hempty =>
    rw [List.isEmpty_iff] at hempty
    have hcleared := hpending s s.pending [] h
    rw [hempty] at hcleared
    exact hcleared
  next =>
    have hloop := resolveLoop_invariant hdrop hcapture s.pending [] false _
      (hpending s s.pending [] h)
    obtain ⟨sticks, hframe⟩ := resolveLoop_frame roles s.pending [] false { s with pending := [] }
    rw [hframe] at hloop ⊢
    exact hpending _ _ _ hloop

end Invariant

theorem Placed.resolvePending {kind : Handle → Option Bool} (roles : Container → Option Int)
    {s : State F} (h : Placed kind s.slot s.pending) :
    Placed kind (resolvePending roles s).1.slot (resolvePending roles s).1.pending := by
  refine resolvePending_invariant roles (fun s waiting => Placed kind s.slot waiting)
    ?_ ?_ ?_ h
  · intro s waiting waiting' hs
    exact hs
  · intro s keep p todo hs
    exact hs.sublist (by simp)
  · intro s keep p todo role i _ _ hs
    rw [slot_capture]
    exact hs.capture i

/-! ## Updates -/

/-- An update of a component that no stick holds is forwarded. -/
theorem hookUpdate_free {w : World F} {h : Handle} {v : Value F}
    (hfree : ∀ i a, a.isBoolean = v.isBoolean → h ≠ 0 → w.hooks.slot i a ≠ h) :
    hookUpdate h v w = { w with components := w.components.write h v } := by
  rw [hookUpdate_eq]
  unfold recordLoop
  rw [Stick.record_eq_none (hfree 0)]
  unfold recordLoop
  rw [Stick.record_eq_none (hfree 1)]
  rfl

/-- An update of a component that a stick holds is recorded, and withheld in an override. -/
theorem hookUpdate_held {w : World F} {waiting : List Pending} {i : Fin 2} {a : Axis}
    {v : Value F} (hw : Placed w.components.kind w.hooks.slot waiting)
    (h0 : w.hooks.slot i a ≠ 0) (hk : a.isBoolean = v.isBoolean) :
    hookUpdate (w.hooks.slot i a) v w =
      { hooks := w.hooks.setStick i ((w.hooks.sticks i).setReal a v)
        components := if w.hooks.overriding = some i then w.components
          else w.components.write (w.hooks.slot i a) v } := by
  have hheld : (w.hooks.sticks i).record (w.hooks.slot i a) v =
      some ((w.hooks.sticks i).setReal a v) := by
    refine Stick.record_held ?_ h0 rfl hk
    intro b hb
    exact ((hw.unique h0 hb.symm).2).symm
  have hother : ∀ j, j ≠ i →
      (w.hooks.sticks j).record (w.hooks.slot i a) v = none := by
    intro j hj
    refine Stick.record_eq_none ?_
    intro b _ _ hb
    exact hj (hw.unique h0 hb.symm).1.symm
  rw [hookUpdate_eq]
  match i with
  | 0 =>
    unfold recordLoop
    rw [hheld]
    dsimp only
    split
    next => rfl
    next =>
      unfold recordLoop
      rw [State.setStick_other _ _ (by decide), hother 1 (by decide)]
      rfl
  | 1 =>
    unfold recordLoop
    rw [hother 0 (by decide)]
    unfold recordLoop
    rw [hheld]
    dsimp only
    split
    · rfl
    · rfl

/-- What the sticks have recorded is still what their drivers wrote last. -/
theorem recorded_held {w : World F} {waiting : List Pending} {plain : Components F} {i j : Fin 2}
    {a b : Axis} {v : Value F} (hw : Placed w.components.kind w.hooks.slot waiting)
    (hkinds : w.components.kind = plain.kind) (h0 : w.hooks.slot i a ≠ 0)
    (hk : a.isBoolean = v.isBoolean)
    (h : w.hooks.slot j b ≠ w.hooks.slot i a →
      plain (w.hooks.slot j b) = some ((w.hooks.sticks j).real b)) :
    plain.write (w.hooks.slot i a) v (w.hooks.slot j b) =
      some (((hookUpdate (w.hooks.slot i a) v w).hooks.sticks j).real b) := by
  rw [hookUpdate_held hw h0 hk]
  dsimp only
  -- the component itself, another one of its stick, or one of the other stick
  by_cases hji : w.hooks.slot j b = w.hooks.slot i a
  · obtain ⟨rfl, rfl⟩ := hw.unique h0 hji.symm
    rw [State.setStick_self, Stick.real_setReal_self _ hk]
    refine Components.write_self ?_
    rw [← hkinds, hw.typed h0, hk]
  · rw [Components.write_other hji, h hji]
    by_cases hi : j = i
    · subst hi
      have hb : b ≠ a := fun hb => hji (by rw [hb])
      rw [State.setStick_self, Stick.real_setReal_other _ _ hb]
    · rw [State.setStick_other _ _ hi]

/-- vrserver shows what the drivers wrote last, where it did before. -/
theorem shown_held {w : World F} {waiting : List Pending} {plain : Components F} {i : Fin 2}
    {a : Axis} {v : Value F} {k : Handle} (hw : Placed w.components.kind w.hooks.slot waiting)
    (hkinds : w.components.kind = plain.kind) (h0 : w.hooks.slot i a ≠ 0)
    (hk : a.isBoolean = v.isBoolean)
    (hwithheld : k = w.hooks.slot i a → w.hooks.overriding ≠ some i)
    (h : w.components k = plain k) :
    (hookUpdate (w.hooks.slot i a) v w).components k =
      plain.write (w.hooks.slot i a) v k := by
  rw [hookUpdate_held hw h0 hk]
  dsimp only
  by_cases hki : k = w.hooks.slot i a
  · rw [if_neg (hwithheld hki)]
    exact Components.write_congr hkinds h
  · rw [Components.write_other hki]
    split
    · exact h
    · rw [Components.write_other hki]
      exact h

/-- An update of another component changes no value of a stick, not even by its type. -/
theorem write_unheld {w : World F} {waiting : List Pending} {c : Components F} {h : Handle}
    {v : Value F} (hw : Placed w.components.kind w.hooks.slot waiting)
    (hkinds : w.components.kind = c.kind)
    (hfree : ∀ i a, a.isBoolean = v.isBoolean → h ≠ 0 → w.hooks.slot i a ≠ h) {i : Fin 2}
    {a : Axis} (h0 : w.hooks.slot i a ≠ 0) :
    c.write h v (w.hooks.slot i a) = c (w.hooks.slot i a) := by
  by_cases hia : w.hooks.slot i a = h
  · rw [Components.write_refused]
    intro hk
    rw [← hkinds, ← hia, hw.typed h0, Option.some.injEq] at hk
    exact hfree i a hk (hia ▸ h0) hia
  · exact Components.write_other hia

theorem handle_of_record {s st : Stick F} {h : Handle} {v : Value F}
    (hr : s.record h v = some st) : st.handle = s.handle := by
  funext a
  cases v with
  | scalar v =>
    change s.recordScalar h v = some st at hr
    unfold Stick.recordScalar at hr
    split at hr
    · cases hr
    · split at hr <;> cases hr <;> cases a <;> rfl
  | boolean v =>
    change s.recordBoolean h v = some st at hr
    unfold Stick.recordBoolean at hr
    split at hr
    · cases hr
    · cases hr
      cases a <;> rfl

theorem slot_setStick {s : State F} {i : Fin 2} {st : Stick F}
    (hst : st.handle = (s.sticks i).handle) : (s.setStick i st).slot = s.slot := by
  funext j b
  by_cases hj : j = i
  · subst hj
    rw [State.slot, State.setStick_self, hst, State.slot]
  · rw [State.slot, State.setStick_other s _ hj, State.slot]

theorem slot_recordLoop (h : Handle) (v : Value F) :
    ∀ (is : List (Fin 2)) (s : State F), (recordLoop (Stick.record h v) is s).1.slot = s.slot := by
  intro is
  induction is with
  | nil =>
    intro s
    rfl
  | cons i is ih =>
    intro s
    unfold recordLoop
    split
    · exact ih s
    next st hst =>
      split
      · exact slot_setStick (handle_of_record hst)
      · exact (ih _).trans (slot_setStick (handle_of_record hst))

/-- An update leaves the sticks their components. -/
theorem slot_hookUpdate (h : Handle) (v : Value F) (w : World F) :
    (hookUpdate h v w).hooks.slot = w.hooks.slot := by
  rw [hookUpdate_eq]
  exact slot_recordLoop h v [0, 1] w.hooks

/-! ## Writing a stick -/

/-- The values that `writeStick` writes. -/
def axisValue (x y : F) (touch : Bool) : Axis → Value F
  | .x => .scalar x
  | .y => .scalar y
  | .touch => .boolean touch

theorem axisValue_real (s : Stick F) : axisValue s.realX s.realY s.realTouch = s.real := by
  funext a
  cases a <;> rfl

@[simp] theorem kind_writeStick (c : Components F) (s : Stick F) (x y : F) (touch : Bool) :
    (c.writeStick s x y touch).kind = c.kind := by
  unfold Components.writeStick
  dsimp only
  split <;> simp only [Components.kind_write]

theorem writeStick_other {c : Components F} {s : Stick F} {h : Handle} (x y : F) (touch : Bool)
    (hs : ∀ a, s.handle a ≠ h) : c.writeStick s x y touch h = c h := by
  have hx : h ≠ s.x := (hs .x).symm
  have hy : h ≠ s.y := (hs .y).symm
  have htouch : h ≠ s.touch := (hs .touch).symm
  unfold Components.writeStick
  split
  · rw [Components.write_other htouch, Components.write_other hy, Components.write_other hx]
  · rw [Components.write_other hy, Components.write_other hx]

theorem writeStick_slot {c : Components F} {s : State F} {waiting : List Pending} {i : Fin 2}
    {a : Axis} (x y : F) (touch : Bool) (hs : Placed c.kind s.slot waiting)
    (h0 : s.slot i a ≠ 0) :
    c.writeStick (s.sticks i) x y touch (s.slot i a) = some (axisValue x y touch a) := by
  have hne : ∀ b, b ≠ a → s.slot i a ≠ (s.sticks i).handle b := by
    intro b hb he
    exact hb (hs.unique h0 he).2.symm
  have hkind : c.kind (s.slot i a) = some (axisValue x y touch a).isBoolean := by
    rw [hs.typed h0]
    cases a <;> rfl
  unfold Components.writeStick
  cases a with
  | x =>
    have hy : s.slot i .x ≠ (s.sticks i).y := hne .y (by decide)
    have htouch : s.slot i .x ≠ (s.sticks i).touch := hne .touch (by decide)
    have hself : c.write (s.sticks i).x (.scalar x) (s.slot i .x) = some (.scalar x) :=
      Components.write_self hkind
    split
    · rw [Components.write_other htouch, Components.write_other hy, hself, axisValue]
    · rw [Components.write_other hy, hself, axisValue]
  | y =>
    have htouch : s.slot i .y ≠ (s.sticks i).touch := hne .touch (by decide)
    have hself : (c.write (s.sticks i).x (.scalar x)).write (s.sticks i).y (.scalar y)
        (s.slot i .y) = some (.scalar y) := by
      refine Components.write_self ?_
      rw [Components.kind_write]
      exact hkind
    split
    · rw [Components.write_other htouch, hself, axisValue]
    · rw [hself, axisValue]
  | touch =>
    have htouch : (s.sticks i).touch ≠ 0 := h0
    rw [if_pos htouch]
    refine Components.write_self ?_
    simp only [Components.kind_write]
    exact hkind

/-! ## Components outside the sticks -/

/-- An update writes no other component. -/
theorem hookUpdate_other {w : World F} {h k : Handle} (v : Value F) (hk : k ≠ h) :
    (hookUpdate h v w).components k = w.components k := by
  rw [hookUpdate_eq, forward]
  split
  · exact Components.write_other hk
  · rfl

@[simp] theorem kind_hookUpdate (h : Handle) (v : Value F) (w : World F) :
    (hookUpdate h v w).components.kind = w.components.kind := by
  rw [hookUpdate_eq, forward]
  split
  · exact Components.kind_write _ _ _
  · rfl

theorem release_other {w : World F} {i : Fin 2} {k : Handle} (hk : ∀ a, w.hooks.slot i a ≠ k) :
    (release i w).components k = w.components k :=
  writeStick_other _ _ _ hk

section Drive

variable [FloatOrder F] [Arith F]

theorem hold_other {w : World F} {i : Fin 2} {k : Handle} (speed dirX dirY : F)
    (hk : ∀ a, w.hooks.slot i a ≠ k) :
    (hold i speed dirX dirY w).components k = w.components k := by
  rcases hold_cases i speed dirX dirY w with ⟨-, hw⟩ | ⟨x, y, hw⟩ <;> rw [hw]
  exact writeStick_other _ _ _ hk

/-- `Drive` writes the components of the sticks only. -/
theorem drive_other {w : World F} {k : Handle} (hand : Int) (speed dirX dirY : F)
    (hk : ∀ i a, w.hooks.slot i a ≠ k) :
    (drive hand speed dirX dirY w).components k = w.components k := by
  rw [drive_eq]
  cases released w.hooks hand speed with
  | none =>
    cases driven w.hooks hand speed with
    | none => rfl
    | some i => exact hold_other speed dirX dirY (hk i)
  | some j =>
    cases driven w.hooks hand speed with
    | none => exact release_other (hk j)
    | some i =>
      exact (hold_other (w := release j w) speed dirX dirY (hk i)).trans (release_other (hk j))

@[simp] theorem kind_hold (i : Fin 2) (speed dirX dirY : F) (w : World F) :
    (hold i speed dirX dirY w).components.kind = w.components.kind := by
  rcases hold_cases i speed dirX dirY w with ⟨-, hw⟩ | ⟨x, y, hw⟩ <;> rw [hw]
  exact kind_writeStick _ _ _ _ _

@[simp] theorem kind_drive (hand : Int) (speed dirX dirY : F) (w : World F) :
    (drive hand speed dirX dirY w).components.kind = w.components.kind := by
  rw [drive_eq]
  cases released w.hooks hand speed with
  | none =>
    cases driven w.hooks hand speed with
    | none => rfl
    | some i => exact kind_hold i speed dirX dirY w
  | some j =>
    have hrelease : (release j w).components.kind = w.components.kind :=
      kind_writeStick _ _ _ _ _
    cases driven w.hooks hand speed with
    | none => exact hrelease
    | some i => exact (kind_hold i speed dirX dirY _).trans hrelease

/-- **After `Drive` the stick is held that it was called for**, and no other. -/
theorem drive_overriding (hand : Int) (speed dirX dirY : F) (w : World F) :
    (drive hand speed dirX dirY w).hooks.overriding = driven w.hooks hand speed := by
  rw [drive_eq]
  have hhold : ∀ i w', (hold i speed dirX dirY w').hooks.overriding = some i := by
    intro i w'
    rcases hold_cases i speed dirX dirY w' with ⟨ho, hw⟩ | ⟨x, y, hw⟩ <;> rw [hw]
    exact ho
  cases hd : driven w.hooks hand speed with
  | some i => exact hhold i _
  | none =>
    cases hr : released w.hooks hand speed with
    | none =>
      rcases overriding_of_not_released hr with ho | ho
      · exact ho
      · exact ho.trans hd
    | some j => rfl

end Drive

end Rebocap.Hooks
