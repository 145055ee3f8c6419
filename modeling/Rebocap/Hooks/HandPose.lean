import Mathlib.Data.List.Pairwise
import Rebocap.Hooks.Pose
import Rebocap.Lib.RatScalar
import Rebocap.Lib.Run

/-!
# Which hand poses are mixed

A hand keeps the last position and the last rotation that the app sent, each for itself, and one
time for both. So a pose that the hook forwards can have one of them from the real driver, or from
before a silence.

* `forwarded_whole` — it has not, if the hand received both in the 500 ms before
* `not_whole` — a message with a position alone, and then a pose of the real driver
-/

namespace Rebocap.PoseHooks

open Lib FloatOrder Arith FloatConv FloatBits Proto Driver Hooks

variable {F D : Type}

/-! ## Sessions -/

/-- A hand message that the driver handled. -/
structure Received (D : Type) where
  hand : Fin 2
  msg : Msg
  /-- The standing universe that was known. -/
  universe_ : Option (Universe D)
  time : Int

structure Session (D : Type) where
  hooks : State D
  /-- The steady clock. -/
  clock : Int
  /-- The newest first. -/
  received : List (Received D)

inductive Event (D : Type) where
  | wait (elapsed : Nat)
  | message (m : Msg) (universe_ : Option (Universe D))
  | scan (devices : List Device)
  | poseUpdated (c : Call D)

def Session.init [Zero D] [One D] (installed : Bool) (poseSize : UInt32) (clock : Int) :
    Session D where
  hooks := .init installed poseSize
  clock := clock
  received := []

/-! ## The last value of a hand -/

section Latest

variable {β : Type}

/-- The last value that the messages of a hand brought. -/
def latest (f : Received D → Option β) (received : List (Received D)) (i : Fin 2) : Option β :=
  received.findSome? fun a => if a.hand = i then f a else none

theorem latest_cons_self (f : Received D → Option β) (a : Received D) (l : List (Received D)) :
    latest f (a :: l) a.hand = (f a).or (latest f l a.hand) := by
  unfold latest
  rw [List.findSome?_cons, if_pos rfl]
  cases f a <;> rfl

theorem latest_cons_other {a : Received D} {i : Fin 2} (f : Received D → Option β)
    (l : List (Received D)) (hi : i ≠ a.hand) : latest f (a :: l) i = latest f l i := by
  unfold latest
  rw [List.findSome?_cons, if_neg hi.symm]

/-- Where the hands keep the last values, a message changes them for its own hand only. -/
theorem latest_cons_update {f : Received D → Option β} {kept : Hand D → Option β}
    {a : Received D} {l : List (Received D)} {hands : Fin 2 → Hand D} {h : Hand D}
    (hl : ∀ i, latest f l i = kept (hands i)) (hh : kept h = (f a).or (kept (hands a.hand)))
    (i : Fin 2) : latest f (a :: l) i = kept (Function.update hands a.hand h i) := by
  by_cases hi : i = a.hand
  · rw [hi, latest_cons_self, Function.update_self, hh, hl]
  · rw [latest_cons_other f l hi, Function.update_of_ne hi, hl]

/-- The last value is at least as recent as any other. -/
theorem latest_of_mem {f : Received D → Option β} {a : Received D} (ha : (f a).isSome) :
    ∀ {l : List (Received D)}, l.Pairwise (fun a b => b.time ≤ a.time) → a ∈ l →
      ∃ b ∈ l, b.hand = a.hand ∧ f b = latest f l a.hand ∧ (f b).isSome ∧ a.time ≤ b.time := by
  intro l
  induction l with
  | nil => exact fun _ hmem => absurd hmem List.not_mem_nil
  | cons b l ih =>
    intro hl hmem
    rw [List.pairwise_cons] at hl
    by_cases hb : b.hand = a.hand ∧ (f b).isSome
    · refine ⟨b, List.mem_cons_self, hb.1, ?_, hb.2, ?_⟩
      · obtain ⟨v, hv⟩ := Option.isSome_iff_exists.mp hb.2
        rw [← hb.1, latest_cons_self, hv, Option.some_or]
      · rcases List.mem_cons.mp hmem with rfl | hmem
        · exact Int.le_refl _
        · exact hl.1 a hmem
    · have hmem : a ∈ l := by
        rcases List.mem_cons.mp hmem with rfl | hmem
        · exact absurd ⟨rfl, ha⟩ hb
        · exact hmem
      obtain ⟨d, hd, hhand, hf, hsome, htime⟩ := ih hl.2 hmem
      refine ⟨d, List.mem_cons_of_mem b hd, hhand, ?_, hsome, htime⟩
      by_cases hhand' : b.hand = a.hand
      · have hnone : f b = none := by
          rw [← Option.not_isSome_iff_eq_none]
          exact fun hs => hb ⟨hhand', hs⟩
        rw [hf, ← hhand', latest_cons_self, hnone, Option.none_or]
      · rw [hf, latest_cons_other f l (Ne.symm hhand')]

end Latest

/-! ## Steps -/

variable (F) [FloatBits F 32] [FloatConv F D] [FloatBits D 64] [FloatOrder D] [Arith D]

/-- What `RunFrame` does with a message that is for the pose hook. -/
def onMessage (m : Msg) (u : Option (Universe D)) (s : Session D) : Session D :=
  match m.kind with
  | .position =>
    match handOfId m.trackerId with
    | none => s
    | some i =>
      { s with
        hooks := { s.hooks with
          hands := Function.update s.hooks.hands i (onHandPose F m u s.clock (s.hooks.hands i)) }
        received := ⟨i, m, u, s.clock⟩ :: s.received }
  | .wipSetting => { s with hooks := onSetting m s.hooks }
  | _ => s

def step (e : Event D) (s : Session D) : Session D :=
  match e with
  | .wait elapsed => { s with clock := s.clock + elapsed }
  | .message m u => onMessage F m u s
  | .scan devices => { s with hooks := findHandControllers devices s.hooks }
  | .poseUpdated _ => s

/-! ## What a hand keeps -/

omit [FloatBits F 32] [FloatConv F D] [FloatBits D 64] in
/-- The world-from-driver transform of the last universe that was known when the app sent a pose
of the hand. -/
def appWorld (s : Session D) (i : Fin 2) : WorldFromDriver D :=
  (latest (fun a => a.universe_.map worldFromDriver) s.received i).getD identityWorld

/-- What the hands keep is what the app sent last. -/
structure Kept (s : Session D) : Prop where
  sorted : s.received.Pairwise fun a b => b.time ≤ a.time
  past : ∀ a ∈ s.received, a.time ≤ s.clock
  position : ∀ i, latest (fun a => positionOf F a.msg) s.received i = (s.hooks.hands i).position?
  rotation : ∀ i, latest (fun a => rotationOf a.msg) s.received i = (s.hooks.hands i).rotation?
  world : ∀ i, appWorld s i = (s.hooks.hands i).world

theorem kept_init (installed : Bool) (poseSize : UInt32) (clock : Int) :
    Kept F (Session.init installed poseSize clock : Session D) where
  sorted := List.Pairwise.nil
  past := fun _ h => nomatch h
  position := fun _ => rfl
  rotation := fun _ => rfl
  world := fun _ => rfl

/-- A step that keeps the poses of the hands. -/
theorem Kept.of_hands {s : Session D} {hooks : State D} {clock : Int} (hs : Kept F s)
    (hclock : s.clock ≤ clock) (hposition : ∀ i, (hooks.hands i).position? =
      (s.hooks.hands i).position?)
    (hrotation : ∀ i, (hooks.hands i).rotation? = (s.hooks.hands i).rotation?)
    (hworld : ∀ i, (hooks.hands i).world = (s.hooks.hands i).world) :
    Kept F { s with hooks := hooks, clock := clock } where
  sorted := hs.sorted
  past a ha := Int.le_trans (hs.past a ha) hclock
  position i := (hs.position i).trans (hposition i).symm
  rotation i := (hs.rotation i).trans (hrotation i).symm
  world i := (hs.world i).trans (hworld i).symm

theorem Kept.handPose {s : Session D} (hs : Kept F s) (i : Fin 2) (m : Msg)
    (u : Option (Universe D)) :
    Kept F { s with
      hooks := { s.hooks with
        hands := Function.update s.hooks.hands i (onHandPose F m u s.clock (s.hooks.hands i)) }
      received := ⟨i, m, u, s.clock⟩ :: s.received } := by
  obtain ⟨hposition, hrotation, hworld, -, -⟩ := onHandPose_spec F m u s.clock (s.hooks.hands i)
  constructor
  · rw [List.pairwise_cons]
    exact ⟨hs.past, hs.sorted⟩
  · intro a ha
    rcases List.mem_cons.mp ha with rfl | ha
    · exact Int.le_refl _
    · exact hs.past a ha
  · exact latest_cons_update hs.position hposition
  · exact latest_cons_update hs.rotation hrotation
  · intro j
    have hj' := hs.world j
    unfold appWorld at hj' ⊢
    by_cases hj : j = i
    · subst hj
      dsimp only
      rw [latest_cons_self, Function.update_self, hworld, ← hj']
      cases u <;> rfl
    · dsimp only
      rw [latest_cons_other _ _ hj, Function.update_of_ne hj, hj']

theorem kept_step (e : Event D) (s : Session D) (hs : Kept F s) : Kept F (step F e s) := by
  cases e with
  | wait elapsed =>
    exact hs.of_hands F (by omega) (fun _ => rfl) (fun _ => rfl) fun _ => rfl
  | message m u =>
    unfold step onMessage
    dsimp only
    split
    · split
      · exact hs
      next i _ => exact hs.handPose F i m u
    · unfold onSetting
      split
      · exact hs.of_hands F (Int.le_refl _) (fun _ => rfl) (fun _ => rfl) fun _ => rfl
      · exact hs
    · exact hs
  | scan devices =>
    exact hs.of_hands F (Int.le_refl _) (fun _ => rfl) (fun _ => rfl) fun _ => rfl
  | poseUpdated c => exact hs

/-! ## What the hook forwards -/

/-- The app sent the value for the hand in the last 500 ms. -/
def SentRecently {β : Type} (s : Session D) (i : Fin 2) (f : Msg → Option β) (v : β) : Prop :=
  ∃ a ∈ s.received, a.hand = i ∧ f a.msg = some v ∧ 0 ≤ s.clock - a.time ∧
    s.clock - a.time ≤ milliseconds 500

/-- A pose that is wholly the app's. -/
structure FromApp (s : Session D) (i : Fin 2) (pose : DriverPose D) : Prop where
  position : SentRecently s i (positionOf F) pose.position
  rotation : SentRecently s i rotationOf pose.rotation
  world : pose.worldFromDriver = appWorld s i

/-- The hook forwards a call unchanged, or with a pose that is wholly the app's for the hand of the
call's device. -/
def Whole (s : Session D) (c : Call D) : Prop :=
  hookPoseUpdated s.clock c s.hooks = c ∨
    ∃ i, c.index = (s.hooks.hands i).deviceIndex ∧
      FromApp F s i (hookPoseUpdated s.clock c s.hooks).pose

/-- A hand whose pose replaces a call's has received both a position and a rotation in the last
500 ms. -/
def BothRecent (e : Event D) (s : Session D) : Prop :=
  match e with
  | .poseUpdated c => ∀ i, replacing s.clock c s.hooks = some i →
    (∃ p : Vec3 D, SentRecently s i (positionOf F) p) ∧
      ∃ q : Quat D, SentRecently s i rotationOf q
  | _ => True

omit [FloatBits F 32] [FloatConv F D] [FloatBits D 64] [FloatOrder D] [Arith D] in
/-- Where a value was sent in the last 500 ms, the last one was. -/
theorem SentRecently.latest {β : Type} {s : Session D} {i : Fin 2} {f : Msg → Option β} {v : β}
    (hsorted : s.received.Pairwise fun a b => b.time ≤ a.time)
    (hpast : ∀ a ∈ s.received, a.time ≤ s.clock) (h : SentRecently s i f v) :
    ∃ w, latest (fun a => f a.msg) s.received i = some w ∧ SentRecently s i f w := by
  obtain ⟨a, ha, rfl, hf, -, hrecent⟩ := h
  have hsome : (f a.msg).isSome := by rw [hf]; rfl
  obtain ⟨b, hb, hhand, hlatest, hbsome, htime⟩ :=
    latest_of_mem (f := fun a => f a.msg) hsome hsorted ha
  obtain ⟨w, hw⟩ := Option.isSome_iff_exists.mp hbsome
  refine ⟨w, hlatest ▸ hw, b, hb, hhand, hw, ?_, ?_⟩
  · have := hpast b hb
    omega
  · omega

theorem Kept.whole {s : Session D} {c : Call D} (hs : Kept F s)
    (h : BothRecent F (.poseUpdated c) s) : Whole F s c := by
  cases hr : replacing s.clock c s.hooks with
  | none => exact .inl (hookPoseUpdated_of_none hr)
  | some i =>
    obtain ⟨⟨p, hp⟩, q, hq⟩ := h i hr
    obtain ⟨p', hposition, hp'⟩ := hp.latest hs.sorted hs.past
    obtain ⟨q', hrotation, hq'⟩ := hq.latest hs.sorted hs.past
    rw [hs.position] at hposition
    rw [hs.rotation] at hrotation
    obtain ⟨hpose, hquat, hworld⟩ := replaced_spec c.pose hposition hrotation
    obtain ⟨-, -, hindex, -⟩ := replacing_eq_some hr
    refine .inr ⟨i, hindex, ?_⟩
    rw [hookPoseUpdated_of_some hr]
    constructor
    · rw [hpose]
      exact hp'
    · rw [hquat]
      exact hq'
    · rw [hworld, hs.world i]

/-- **In a run where both values are recent whenever a pose is replaced, every pose that the hook
forwards is the caller's, or has position, rotation and world transform from the app for the hand
of this device, the first two of the last 500 ms.** -/
theorem forwarded_whole (installed : Bool) (poseSize : UInt32) (clock : Int)
    (before : List (Event D)) (c : Call D) (after : List (Event D))
    (h : Meets (BothRecent F) (step F) (before ++ .poseUpdated c :: after)
      (Session.init installed poseSize clock)) :
    Whole F (run (step F) before (Session.init installed poseSize clock)) c :=
  Kept.whole F (run_invariant (kept_step F) before (kept_init F installed poseSize clock))
    (h.of_mem before)

/-! ## A left hand -/

omit [FloatBits F 32] [FloatConv F D] [FloatBits D 64] [FloatOrder D] [Arith D]

/-- Replacement is on, and device 1 is the left controller. -/
def leftFound : List (Event ℚ) :=
  [.message { kind := .wipSetting, replaceHandPose := true } none,
    .scan [⟨some 1, none⟩, ⟨some controllerClass, some leftHandRole⟩]]

/-- The bits of 1 and of 0. -/
def leftMessage (q : List (BitVec 64)) : Msg :=
  { kind := .position, trackerId := 16, pos := [0x3F800000#32, 0#32, 0#32], q := q }

/-- A pose of the left controller's driver. -/
def leftCall : Call ℚ where
  host := 1
  index := 1
  size := 280
  pose := {
    poseTimeOffset := 0
    worldFromDriver := ⟨⟨5, 0, 0⟩, identityQuat⟩
    driverFromHead := identityWorld
    position := ⟨0, 1, 0⟩
    velocity := zeroVec
    acceleration := zeroVec
    rotation := ⟨0, 1, 0, 0⟩
    angularVelocity := zeroVec
    angularAcceleration := zeroVec
    result := 200
    poseIsValid := true
    willDriftInYaw := false
    shouldApplyHeadModel := false
    deviceIsConnected := true }

/-- The bits of the quaternion 1. -/
def identityBits : List (BitVec 64) := [0x3FF0000000000000#64, 0#64, 0#64, 0#64]

/-- A message with both values, and a pose of the driver 300 ms later. -/
theorem forwarded_whole_both :
    Whole ℚ (run (step ℚ) (leftFound ++ [.message (leftMessage identityBits) none,
      .wait 300000000]) (Session.init true 280 (seconds 10))) leftCall := by
  refine forwarded_whole ℚ true 280 (seconds 10) (leftFound ++
    [.message (leftMessage identityBits) none, .wait 300000000]) leftCall [] ?_
  refine ⟨trivial, trivial, trivial, trivial, ?_, trivial⟩
  intro i hi
  have hleft : i = 0 := by
    revert i
    decide +kernel
  subst hleft
  refine ⟨⟨⟨1, 0, 0⟩, ⟨0, leftMessage identityBits, none, seconds 10⟩, List.mem_cons_self, ?_⟩,
    ⟨1, 0, 0, 0⟩, ⟨0, leftMessage identityBits, none, seconds 10⟩, List.mem_cons_self, ?_⟩
  · decide +kernel
  · decide +kernel

/-- The world transform is the app's and the rotation the driver's. So the pose is the app's for
neither hand. -/
theorem not_whole :
    ¬∀ (es : List (Event ℚ)) (c : Call ℚ),
      let s := run (step ℚ) es (Session.init true 280 (seconds 10))
      hookPoseUpdated s.clock c s.hooks = c ∨
        ∃ i, FromApp ℚ s i (hookPoseUpdated s.clock c s.hooks).pose := by
  intro h
  rcases h (leftFound ++ [.message (leftMessage []) none]) leftCall with hsame | ⟨i, happ⟩
  · exact absurd hsame (by decide +kernel)
  · obtain ⟨a, ha, -, hq, -⟩ := happ.rotation
    have hnone : ∀ a ∈ (run (step ℚ) (leftFound ++ [.message (leftMessage []) none])
        (Session.init true 280 (seconds 10))).received,
        (rotationOf a.msg : Option (Quat ℚ)) = none := by
      decide +kernel
    rw [hnone a ha] at hq
    cases hq

end Rebocap.PoseHooks
