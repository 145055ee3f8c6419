import Rebocap.Hooks.Handles
import Rebocap.Lib.RatScalar
import Rebocap.Lib.Run

/-!
# The pending list

`ResolvePending` takes the list in one locked step and puts back the components without a role in
another. Drivers create components in between, and `Remember` looks at the list alone.

* `PendingSession.run_round` — without a creation in between this is `resolvePending`
* `PendingSession.sound_iff` — when the list stays short and in order, and the sticks keep the
  components created last
* `PendingSession.not_sound` — a creation between the two steps
-/

namespace Rebocap.Hooks

open Lib

variable {F : Type}

/-! ## Sessions -/

/-- The hooks, and where the frame thread is in `ResolvePending`. -/
structure PendingSession (F : Type) where
  world : World F
  /-- What the loop has still to look at. -/
  todo : List Pending
  keep : List Pending
  /-- When a component was created. -/
  born : Handle → Nat
  created : Nat
  /-- What this call of `ResolvePending` has captured. -/
  fresh : List (Fin 2 × Pending)
  /-- What the calls before it have captured. -/
  earlier : List (Fin 2 × Pending)

namespace PendingSession

inductive Event where
  | create (self : DriverInput) (c : Container) (name : Option String) (boolean : Bool)
    (h : Handle)
  /-- The first locked step of `ResolvePending`. -/
  | take
  /-- The loop looks at a component. The role is none where it cannot be read. -/
  | next (role : Option Int)
  /-- The second locked step. -/
  | putBack

def init [Zero F] (installed : Bool) (driverInput : DriverInput) : PendingSession F where
  world := .init installed driverInput
  todo := []
  keep := []
  born := fun _ => 0
  created := 0
  fresh := []
  earlier := []

def pending (s : PendingSession F) : List Pending := s.world.hooks.pending

/-- All that a stick has captured. -/
def captured (s : PendingSession F) : List (Fin 2 × Pending) := s.fresh ++ s.earlier

def setPending (waiting : List Pending) (s : PendingSession F) : PendingSession F :=
  { s with world := { s.world with hooks := { s.world.hooks with pending := waiting } } }

def capture (i : Fin 2) (p : Pending) (s : PendingSession F) : PendingSession F :=
  { s with
    world := { s.world with
      hooks := s.world.hooks.setStick i ((s.world.hooks.sticks i).capture p) }
    fresh := (i, p) :: s.fresh }

/-- The body of the loop. -/
def resolve (role : Option Int) (p : Pending) (s : PendingSession F) : PendingSession F :=
  match role with
  | none => { s with keep := s.keep ++ [p] } -- role not set yet
  | some role =>
    match handOfRole role with
    | none => s
    | some i => s.capture i p

def step [Zero F] (e : Event) (s : PendingSession F) : PendingSession F :=
  match e with
  | .create self c name boolean h =>
    { s with
      world := hookCreate self c name boolean h s.world
      born := if s.world.components.Free h then Function.update s.born h s.created else s.born
      created := s.created + 1 }
  | .take =>
    if s.todo = [] ∧ s.keep = [] then
      { s.setPending [] with todo := s.pending, fresh := [], earlier := s.captured }
    else s
  | .next role =>
    match s.todo with
    | [] => s
    | p :: todo => { s with todo := todo }.resolve role p
  | .putBack =>
    if s.todo = [] then { s.setPending (s.pending ++ s.keep) with keep := [] } else s

/-! ### A whole call -/

/-- The steps of a call that no creation interrupts. -/
def round (roles : Container → Option Int) (waiting : List Pending) : List Event :=
  .take :: (waiting.map fun p => .next (roles p.container)) ++ [.putBack]

theorem run_next [Zero F] (roles : Container → Option Int) :
    ∀ (todo : List Pending) (completed : Bool) (s : PendingSession F), s.todo = todo →
      let s' := run step (todo.map fun p => .next (roles p.container)) s
      s'.todo = [] ∧ s'.world.hooks = (resolveLoop roles s.keep completed todo s.world.hooks).1 ∧
        s'.keep = (resolveLoop roles s.keep completed todo s.world.hooks).2.1 := by
  intro todo
  induction todo with
  | nil =>
    intro completed s h
    exact ⟨h, rfl, rfl⟩
  | cons p todo ih =>
    intro completed s h
    rw [List.map_cons, run_cons]
    have hstep : step (.next (roles p.container)) s =
        { s with todo := todo }.resolve (roles p.container) p := by
      simp only [step, h]
    rw [hstep]
    unfold resolve resolveLoop
    cases hr : roles p.container with
    | none => exact ih completed _ rfl
    | some role =>
      dsimp only
      cases handOfRole role with
      | none => exact ih completed _ rfl
      | some i => exact ih _ (capture i p { s with todo := todo }) rfl

/-- **The steps of a call that no creation interrupts are `ResolvePending`.** -/
theorem run_round [Zero F] (roles : Container → Option Int) {s : PendingSession F}
    (htodo : s.todo = []) (hkeep : s.keep = []) :
    (run step (round roles s.pending) s).world.hooks = (resolvePending roles s.world.hooks).1 := by
  have htake : step .take s =
      { s.setPending [] with todo := s.pending, fresh := [], earlier := s.captured } :=
    if_pos ⟨htodo, hkeep⟩
  obtain ⟨hdone, hhooks, hkept⟩ :=
    run_next roles s.pending false (step .take s) (by rw [htake])
  unfold round
  rw [List.cons_append, run_cons, run_append, run_cons, run_nil]
  generalize run step (s.pending.map fun p => .next (roles p.container)) (step .take s) = s' at *
  rw [htake] at hhooks hkept
  rw [show step .putBack s' = { s'.setPending (s'.pending ++ s'.keep) with keep := [] } from
    if_pos hdone]
  unfold setPending pending at *
  dsimp only at *
  rw [hkept, hhooks, hkeep]
  unfold resolvePending
  dsimp only
  split
  next hempty =>
    rw [List.isEmpty_iff.mp hempty]
    rfl
  next => rfl

/-! ## What the list is to keep -/

/-- `p` was created before `q`. -/
def Older (s : PendingSession F) (p q : Pending) : Prop := s.born p.handle < s.born q.handle

/-- The list is short and in the order of creation, and of the components that were captured for
an axis the stick holds the one that was created last. -/
structure Sound (s : PendingSession F) : Prop where
  short : s.pending.length ≤ 64
  ordered : s.pending.Pairwise s.Older
  latest : ∀ c ∈ s.captured,
    s.born c.2.handle ≤ s.born (s.world.hooks.slot c.1 c.2.axis)

/-- An eviction drops the oldest component of the list. -/
theorem Sound.drop_oldest {s : PendingSession F} (hs : Sound s) {p : Pending}
    {waiting : List Pending} (h : s.pending = p :: waiting) : ∀ q ∈ waiting, s.Older p q := by
  have hordered := hs.ordered
  rw [h] at hordered
  exact (List.pairwise_cons.mp hordered).1

/-- Nothing that is kept meets a new component, and no component is captured for an axis whose
newer component an earlier call has captured. -/
def InOrder (e : Event) (s : PendingSession F) : Prop :=
  match e with
  | .next (some role) => ∀ i, handOfRole role = some i → ∀ p ∈ s.todo.head?,
    ∀ c ∈ s.earlier, c.1 = i → c.2.axis = p.axis → ¬s.Older p c.2
  | .putBack => s.todo = [] → s.keep = [] ∨ s.pending = []
  | _ => True

/-! ## The components of a session -/

/-- vrserver has created the component. -/
def Made (s : PendingSession F) (h : Handle) : Prop :=
  (∃ b, s.world.components.kind h = some b) ∧ s.born h < s.created

/-- All that waits, the oldest first. -/
def waiting (s : PendingSession F) : List Pending := s.keep ++ s.todo ++ s.pending

structure Inv (s : PendingSession F) : Prop where
  sound : Sound s
  waiting_made : ∀ p ∈ s.waiting, s.Made p.handle
  captured_made : ∀ c ∈ s.captured, s.Made c.2.handle ∧ s.Made (s.world.hooks.slot c.1 c.2.axis)
  waiting_ordered : s.waiting.Pairwise s.Older
  loop_short : s.keep.length + s.todo.length ≤ 64
  fresh_older : ∀ c ∈ s.fresh, ∀ p ∈ s.todo, s.Older c.2 p

theorem inv_init [Zero F] (installed : Bool) (driverInput : DriverInput) :
    Inv (init installed driverInput : PendingSession F) where
  sound := ⟨Nat.zero_le _, List.Pairwise.nil, fun _ h => absurd h (by simp [captured, init])⟩
  waiting_made _ h := absurd h (by simp [waiting, init, pending, World.init, State.init])
  captured_made _ h := absurd h (by simp [captured, init])
  waiting_ordered := List.Pairwise.nil
  loop_short := Nat.zero_le _
  fresh_older _ h := absurd h (by simp [init])

theorem mem_todo_waiting {s : PendingSession F} {p : Pending} (h : p ∈ s.todo) : p ∈ s.waiting :=
  List.mem_append_left _ (List.mem_append_right _ h)

/-! ### Creating -/

section Create

variable [Zero F] {s : PendingSession F} (self : DriverInput) (c : Container)
  (name : Option String) (boolean : Bool) (h : Handle)

/-- A creation leaves the components that there are. -/
theorem Made.create {k : Handle} (hk : s.Made k) :
    (step (.create self c name boolean h) s).born k = s.born k ∧
      (step (.create self c name boolean h) s).Made k := by
  obtain ⟨⟨b, hkind⟩, hborn⟩ := hk
  have hsame : (step (.create self c name boolean h) s).born k = s.born k :=
    Components.noted_of_kind s.born s.created hkind
  refine ⟨hsame, ⟨b, Components.kind_create hkind⟩, ?_⟩
  rw [hsame]
  exact Nat.lt_succ_of_lt hborn

theorem pairwise_create {l : List Pending} (hl : ∀ p ∈ l, s.Made p.handle)
    (ho : l.Pairwise s.Older) :
    l.Pairwise (step (.create self c name boolean h) s).Older := by
  refine ho.imp_of_mem ?_
  intro p q hp hq hpq
  unfold Older
  rw [((hl p hp).create self c name boolean h).1, ((hl q hq).create self c name boolean h).1]
  exact hpq

/-- The list after a creation: the components that stay in it, and the new one. -/
theorem create_cases (s : PendingSession F) :
    let s' := step (.create self c name boolean h) s
    s'.pending.length ≤ max 64 s.pending.length ∧
      (s'.pending = s.pending ∨ ∃ p kept, s'.pending = kept ++ [p] ∧ kept.Sublist s.pending ∧
        s'.Made p.handle ∧ s'.born p.handle = s.created) := by
  intro s'
  by_cases hfree : s.world.components.Free h
  · have hpending : s'.pending = (remember self c name h boolean s.world.hooks).pending := by
      show (if s.world.components.Free h then _ else _ : State F).pending = _
      rw [if_pos hfree]
    have hborn : s'.born h = s.created := by
      show (if s.world.components.Free h then _ else _ : Handle → Nat) h = _
      rw [if_pos hfree, Function.update_self]
    have hmade : s'.Made h := by
      refine ⟨⟨boolean, Components.kind_create_self boolean hfree⟩, ?_⟩
      rw [hborn]
      exact Nat.lt_succ_self _
    rw [hpending]
    refine ⟨remember_length self c name h boolean s.world.hooks, ?_⟩
    obtain ⟨n, waiting, hr, hwaiting⟩ := remember_cases self c name h boolean s.world.hooks
    rw [hr]
    rcases hwaiting with hsame | ⟨a, kept, -, hkept, hnew⟩
    · exact .inl hsame
    · exact .inr ⟨_, kept, hnew, hkept, hmade, hborn⟩
  · have hpending : s'.pending = s.pending := by
      show (if s.world.components.Free h then _ else _ : State F).pending = _
      rw [if_neg hfree]
      rfl
    rw [hpending]
    exact ⟨Nat.le_max_right _ _, .inl rfl⟩

theorem slot_create (i : Fin 2) (a : Axis) :
    (step (.create self c name boolean h) s).world.hooks.slot i a = s.world.hooks.slot i a := by
  obtain ⟨n, waiting, hhooks, -⟩ := hookCreate_frame self c name boolean h s.world
  show (hookCreate self c name boolean h s.world).hooks.slot i a = _
  rw [hhooks]
  rfl

theorem Inv.create (hs : Inv s) : Inv (step (.create self c name boolean h) s) := by
  obtain ⟨hlength, hpending⟩ := create_cases self c name boolean h s
  have hkept : ∀ p ∈ s.waiting, (step (.create self c name boolean h) s).Made p.handle :=
    fun p hp => ((hs.waiting_made p hp).create self c name boolean h).2
  have hordered := pairwise_create self c name boolean h hs.waiting_made hs.waiting_ordered
  have hwaiting : (∀ p ∈ (step (.create self c name boolean h) s).waiting,
      (step (.create self c name boolean h) s).Made p.handle) ∧
      (step (.create self c name boolean h) s).waiting.Pairwise
        (step (.create self c name boolean h) s).Older := by
    rcases hpending with hsame | ⟨p, kept, hnew, hsub, hmade, hborn⟩
    · unfold waiting
      rw [hsame]
      exact ⟨hkept, hordered⟩
    · have hall : (s.keep ++ s.todo ++ kept).Sublist s.waiting :=
        List.Sublist.append_left hsub _
      unfold waiting
      rw [hnew, ← List.append_assoc]
      constructor
      · intro q hq
        rcases List.mem_append.mp hq with hq | hq
        · exact hkept q (hall.subset hq)
        · rw [List.mem_singleton.mp hq]
          exact hmade
      · -- the new component is the youngest of all
        rw [List.pairwise_append]
        refine ⟨hordered.sublist hall, List.pairwise_singleton _ _, ?_⟩
        intro q hq r hr
        have hold := hs.waiting_made q (hall.subset hq)
        unfold Older
        rw [List.mem_singleton.mp hr, hborn, (hold.create self c name boolean h).1]
        exact hold.2
  constructor
  · constructor
    · exact Nat.le_trans hlength (max_le (Nat.le_refl _) hs.sound.short)
    · exact (List.pairwise_append.mp hwaiting.2).2.1
    · intro d hd
      obtain ⟨hmade, hslot⟩ := hs.captured_made d hd
      rw [slot_create, (hmade.create self c name boolean h).1,
        (hslot.create self c name boolean h).1]
      exact hs.sound.latest d hd
  · exact hwaiting.1
  · intro d hd
    obtain ⟨hmade, hslot⟩ := hs.captured_made d hd
    rw [slot_create]
    exact ⟨(hmade.create self c name boolean h).2, (hslot.create self c name boolean h).2⟩
  · exact hwaiting.2
  · exact hs.loop_short
  · intro d hd p hp
    have hmade := (hs.captured_made d (List.mem_append_left _ hd)).1
    have hmade' := hs.waiting_made p (mem_todo_waiting hp)
    unfold Older
    rw [(hmade.create self c name boolean h).1, (hmade'.create self c name boolean h).1]
    exact hs.fresh_older d hd p hp

end Create

/-! ### Resolving -/

variable {s : PendingSession F}

/-- A component that does not wait any more, or waits in another part of the list. -/
theorem Inv.of_sublist {keep todo : List Pending} (hs : Inv s)
    (hsub : (keep ++ todo).Sublist (s.keep ++ s.todo)) (htodo : todo.Sublist s.todo) :
    Inv { s with keep := keep, todo := todo } := by
  have hwaiting : (keep ++ todo ++ s.pending).Sublist s.waiting := hsub.append_right _
  refine ⟨⟨hs.sound.short, hs.sound.ordered, hs.sound.latest⟩, ?_, hs.captured_made,
    hs.waiting_ordered.sublist hwaiting, ?_, ?_⟩
  · exact fun p hp => hs.waiting_made p (hwaiting.subset hp)
  · have hlength := hsub.length_le
    have hloop := hs.loop_short
    rw [List.length_append, List.length_append] at hlength
    show keep.length + todo.length ≤ 64
    omega
  · exact fun c hc p hp => hs.fresh_older c hc p (htodo.subset hp)

theorem Inv.take [Zero F] (hs : Inv s) : Inv (step .take s) := by
  unfold step
  dsimp only
  split
  next h =>
    have hwaiting : s.waiting = s.pending := by
      unfold waiting
      rw [h.1, h.2]
      rfl
    have hmade := hs.waiting_made
    have hordered := hs.waiting_ordered
    rw [hwaiting] at hmade hordered
    refine ⟨⟨Nat.zero_le _, List.Pairwise.nil, hs.sound.latest⟩, ?_, hs.captured_made, ?_, ?_, ?_⟩
    · intro p hp
      refine hmade p ?_
      simpa [PendingSession.waiting, setPending, pending, h.2] using hp
    · show (s.keep ++ s.pending ++ []).Pairwise s.Older
      rw [h.2, List.nil_append, List.append_nil]
      exact hordered
    · show s.keep.length + s.pending.length ≤ 64
      rw [h.2, List.length_nil, Nat.zero_add]
      exact hs.sound.short
    · exact fun c hc => absurd hc (by simp)
  next => exact hs

/-- The first component of the loop is captured. -/
theorem Inv.capture {i : Fin 2} {p : Pending} {todo : List Pending} (hs : Inv s)
    (htodo : s.todo = p :: todo)
    (h : ∀ c ∈ s.earlier, c.1 = i → c.2.axis = p.axis → ¬s.Older p c.2) :
    Inv (capture i p { s with todo := todo }) := by
  have hrest : Inv { s with todo := todo } := by
    refine hs.of_sublist ?_ ?_ <;> rw [htodo]
    · exact (List.sublist_cons_self p todo).append_left _
    · exact List.sublist_cons_self p todo
  have hp : p ∈ s.todo := by
    rw [htodo]
    exact List.mem_cons_self
  have hmade : s.Made p.handle := hs.waiting_made p (mem_todo_waiting hp)
  have hslot : (PendingSession.capture i p { s with todo := todo }).world.hooks.slot =
      captureSlot s.world.hooks.slot i p := slot_capture s.world.hooks i p
  have hnewer : ∀ c ∈ (i, p) :: s.captured, c.1 = i → c.2.axis = p.axis →
      s.born c.2.handle ≤ s.born p.handle := by
    intro c hc hi ha
    -- `p` itself, what this call has captured before it, and what the calls before have
    rcases List.mem_cons.mp hc with rfl | hc
    · exact Nat.le_refl _
    · rcases List.mem_append.mp hc with hc | hc
      · exact Nat.le_of_lt (hs.fresh_older c hc p hp)
      · exact Nat.not_lt.mp (h c hc hi ha)
  refine ⟨⟨hs.sound.short, hs.sound.ordered, ?_⟩, hrest.waiting_made, ?_, hrest.waiting_ordered,
    hrest.loop_short, ?_⟩
  · intro c hc
    rw [hslot]
    show s.born c.2.handle ≤ s.born (captureSlot s.world.hooks.slot i p c.1 c.2.axis)
    by_cases hself : c.1 = i ∧ c.2.axis = p.axis
    · rw [hself.1, hself.2, captureSlot_self]
      exact hnewer c hc hself.1 hself.2
    · rw [captureSlot_other hself]
      rcases List.mem_cons.mp hc with rfl | hc
      · exact absurd ⟨rfl, rfl⟩ hself
      · exact hs.sound.latest c hc
  · intro c hc
    rw [hslot]
    by_cases hself : c.1 = i ∧ c.2.axis = p.axis
    · rw [hself.1, hself.2, captureSlot_self]
      rcases List.mem_cons.mp hc with rfl | hc
      · exact ⟨hmade, hmade⟩
      · exact ⟨(hs.captured_made c hc).1, hmade⟩
    · rw [captureSlot_other hself]
      rcases List.mem_cons.mp hc with rfl | hc
      · exact absurd ⟨rfl, rfl⟩ hself
      · exact hs.captured_made c hc
  · intro c hc q hq
    rcases List.mem_cons.mp hc with rfl | hc
    · have hloop := (List.pairwise_append.mp hs.waiting_ordered).1
      have hloop' := (List.pairwise_append.mp hloop).2.1
      rw [htodo] at hloop'
      exact (List.pairwise_cons.mp hloop').1 q hq
    · exact hrest.fresh_older c hc q hq

theorem Inv.next [Zero F] {role : Option Int} (hs : Inv s) (h : InOrder (.next role) s) :
    Inv (step (.next role) s) := by
  unfold step
  dsimp only
  cases htodo : s.todo with
  | nil => exact hs
  | cons p todo =>
    have hdrop : Inv { s with todo := todo } := by
      refine hs.of_sublist ?_ ?_ <;> rw [htodo]
      · exact (List.sublist_cons_self p todo).append_left _
      · exact List.sublist_cons_self p todo
    unfold resolve
    dsimp only
    cases role with
    | none =>
      refine hs.of_sublist ?_ ?_ <;> rw [htodo]
      · rw [List.append_assoc, List.singleton_append]
      · exact List.sublist_cons_self p todo
    | some role =>
      dsimp only
      cases hhand : handOfRole role with
      | none => exact hdrop
      | some i => exact hs.capture htodo (h i hhand p (by rw [htodo]; rfl))

theorem Inv.putBack [Zero F] (hs : Inv s) (h : InOrder .putBack s) : Inv (step .putBack s) := by
  unfold step
  dsimp only
  split
  next htodo =>
    have hwaiting : s.pending ++ s.keep = s.waiting := by
      unfold waiting
      rw [htodo, List.append_nil]
      rcases h htodo with hkeep | hpending
      · rw [hkeep, List.append_nil, List.nil_append]
      · rw [hpending, List.append_nil, List.nil_append]
    have hafter : ([] ++ s.todo ++ (s.pending ++ s.keep)) = s.waiting := by
      rw [htodo, List.nil_append, List.nil_append, hwaiting]
    refine ⟨⟨?_, ?_, hs.sound.latest⟩, ?_, hs.captured_made, ?_, ?_, hs.fresh_older⟩
    · show (s.pending ++ s.keep).length ≤ 64
      rw [List.length_append]
      rcases h htodo with hkeep | hpending
      · rw [hkeep]
        exact hs.sound.short
      · rw [hpending, List.length_nil, Nat.zero_add]
        exact Nat.le_trans (Nat.le_add_right _ _) hs.loop_short
    · show (s.pending ++ s.keep).Pairwise s.Older
      rw [hwaiting]
      exact hs.waiting_ordered
    · show ∀ p ∈ [] ++ s.todo ++ (s.pending ++ s.keep), s.Made p.handle
      rw [hafter]
      exact hs.waiting_made
    · show ([] ++ s.todo ++ (s.pending ++ s.keep)).Pairwise s.Older
      rw [hafter]
      exact hs.waiting_ordered
    · show 0 + s.todo.length ≤ 64
      have := hs.loop_short
      omega
  next => exact hs

theorem inv_step [Zero F] (e : Event) (s : PendingSession F) (h : InOrder e s) (hs : Inv s) :
    Inv (step e s) := by
  cases e with
  | create self c name boolean k => exact hs.create self c name boolean k
  | take => exact hs.take
  | next role => exact hs.next h
  | putBack => exact hs.putBack h

/-! ### When it is kept -/

theorem inOrder_of_sound [Zero F] (e : Event) (hs : Inv s) (h : Sound (step e s)) :
    InOrder e s := by
  cases e with
  | create self c name boolean k => trivial
  | take => trivial
  | next role =>
    cases role with
    | none => trivial
    | some role =>
      intro i hhand p hp c hc hi ha
      obtain ⟨todo, htodo⟩ := List.head?_eq_some_iff.mp hp
      have hstep : step (.next (some role)) s = capture i p { s with todo := todo } := by
        simp only [step, htodo, resolve, hhand]
      have hslot : (step (.next (some role)) s).world.hooks.slot i p.axis = p.handle := by
        rw [hstep]
        show (s.world.hooks.setStick i ((s.world.hooks.sticks i).capture p)).slot i p.axis = _
        rw [slot_capture, captureSlot_self]
      have hmem : c ∈ (step (.next (some role)) s).captured := by
        rw [hstep]
        exact List.mem_append_right _ hc
      -- the stick now has `p`, so `c` is not younger
      have hle := h.latest c hmem
      rw [hi, ha, hslot, hstep] at hle
      exact Nat.not_lt.mpr hle
  | putBack =>
    -- what is kept is older than what was created since, and comes behind it
    intro htodo
    by_contra hboth
    obtain ⟨hkeep, hpending⟩ := not_or.mp hboth
    obtain ⟨p, hp⟩ := List.exists_mem_of_ne_nil _ hkeep
    obtain ⟨q, hq⟩ := List.exists_mem_of_ne_nil _ hpending
    have hstep : step .putBack s = { s.setPending (s.pending ++ s.keep) with keep := [] } :=
      if_pos htodo
    have hordered := h.ordered
    rw [hstep] at hordered
    have hqp : s.Older q p := (List.pairwise_append.mp hordered).2.2 q hq p hp
    have hpq : s.Older p q :=
      (List.pairwise_append.mp hs.waiting_ordered).2.2 p (List.mem_append_left _ hp) q hq
    exact Nat.lt_asymm hqp hpq

/-- **The list stays short and in order, and the sticks keep what was created last, exactly in the
runs in which nothing that is kept meets a new component and no older component is captured after
a newer one's call.** -/
theorem sound_iff [Zero F] (installed : Bool) (driverInput : DriverInput) (es : List Event) :
    (∀ n, Sound (run step (es.take n) (init installed driverInput : PendingSession F))) ↔
      Meets InOrder step es (init installed driverInput : PendingSession F) := by
  have hinit : Inv (init installed driverInput : PendingSession F) :=
    inv_init installed driverInput
  rw [forall_take_iff es hinit.sound]
  exact Meets.iff_of_invariant inv_step
    (fun e s hs => ⟨inOrder_of_sound e hs, fun h => (inv_step e s h hs).sound⟩) es hinit

/-- A joystick whose role cannot be read, and another that is created before it is put back. -/
def lateJoystick : List Event :=
  [.create 1 1 (some "/input/joystick/x") false 1, .take, .next none,
    .create 1 2 (some "/input/joystick/x") false 2, .putBack]

/-- The older one comes last. -/
theorem not_sound :
    ¬∀ es : List Event, Sound (run step es (init true 1 : PendingSession ℚ)) := by
  intro h
  have hordered := (h lateJoystick).ordered
  have hpending : (run step lateJoystick (init true 1 : PendingSession ℚ)).pending =
      [⟨1, 2, 2, .x⟩, ⟨1, 1, 1, .x⟩] := by
    decide +kernel
  rw [hpending, List.pairwise_cons] at hordered
  have holder := hordered.1 ⟨1, 1, 1, .x⟩ List.mem_cons_self
  revert holder
  unfold Older
  decide +kernel

end PendingSession

end Rebocap.Hooks
