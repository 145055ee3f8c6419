import Rebocap.Driver.Tracker
import Rebocap.Lib.RatScalar
import Rebocap.Lib.Run

/-!
# Whether a tracker's poses are valid

The app says in a `tracker_status` how a tracker is, and a pose that comes with a position is to
say the same. The tracker does not take a status while it is not activated, and a timeout
overwrites the last one.

* `follows_iff` — the runs in which the poses say what the app said
* `not_follows` — an occluded tracker is shown as valid after a silence
-/

namespace Rebocap.Driver.Tracker

open Lib FloatOrder Arith FloatConv FloatBits Proto PoseHooks

variable {F D : Type}

/-! ## Sessions -/

structure Session (D : Type) where
  tracker : Tracker D
  /-- The steady clock. -/
  clock : Int
  /-- The last status that the app sent, OK if there is none. -/
  sent : Int32
  /-- The last one that found the tracker activated. -/
  taken : Int32
  /-- A timeout was reported since then. -/
  silent : Bool

def Session.init [Zero D] [One D] (role : Int32) (clock : Int) : Session D where
  tracker := .init role clock
  clock := clock
  sent := Status.ok.toInt32
  taken := Status.ok.toInt32
  silent := false

/-- Two statuses that `ApplyStatus` shows in the same way. -/
def Alike (a b : Int32) : Prop :=
  (a = Status.disconnected.toInt32 ↔ b = Status.disconnected.toInt32) ∧
    (a = Status.ok.toInt32 ↔ b = Status.ok.toInt32)

instance (a b : Int32) : Decidable (Alike a b) := inferInstanceAs (Decidable (_ ∧ _))

/-- The status that is left of what the app said. -/
def Session.left (s : Session D) : Int32 := if s.silent then Status.ok.toInt32 else s.taken

section Steps

variable (F) [FloatBits F 32] [FloatConv F D] [FloatBits D 64] [FloatOrder D] [Arith D]

def step (e : Event D) (s : Session D) : Session D :=
  let r := react F s.clock e s.tracker
  let s' := { s with tracker := r.1 }
  match e with
  | .wait elapsed => { s' with clock := s.clock + elapsed }
  | .status m =>
    let s' := { s' with sent := m.status }
    if s.tracker.Activated then { s' with taken := m.status, silent := false } else s'
  | .checkTimeout => { s' with silent := s.silent || !r.2.isEmpty }
  | _ => s'

/-- A pose that is submitted for a position is as the app's last status says. -/
def Follows (e : Event D) (s : Session D) : Prop :=
  match e with
  | .position .. => ∀ index pose, .poseUpdated index pose ∈ (react F s.clock e s.tracker).2 →
    pose.deviceIsConnected = decide (s.sent ≠ Status.disconnected.toInt32) ∧
      pose.poseIsValid = decide (s.sent = Status.ok.toInt32)
  | _ => True

/-- A position that an activated tracker gets finds the app's last status, or one that is shown in
the same way: the last one that was taken, and OK where a timeout was reported since. -/
def Intact (e : Event D) (s : Session D) : Prop :=
  match e with
  | .position .. => s.tracker.Activated → Alike s.left s.sent
  | _ => True

/-! ## What the tracker knows -/

/-- The tracker shows what is left. -/
def Session.Kept (s : Session D) : Prop := s.tracker.recovered = s.left

omit [FloatBits F 32] [FloatConv F D] [FloatBits D 64] [FloatOrder D] [Arith D] in
theorem kept_checkTimeout {s : Session D} (hs : s.Kept) :
    (s.tracker.checkTimeout s.clock).1.recovered =
      if s.silent || !(s.tracker.checkTimeout s.clock).2.isEmpty then Status.ok.toInt32
      else s.taken := by
  unfold checkTimeout
  split
  · rw [List.isEmpty_nil, Bool.not_true, Bool.or_false]
    exact hs
  · exact (if_pos (Bool.or_true s.silent)).symm

theorem kept_step (e : Event D) (s : Session D) (hs : s.Kept) : (step F e s).Kept := by
  cases e with
  | wait elapsed => exact hs
  | activate index => exact hs
  | deactivate => exact hs
  | checkTimeout => exact kept_checkTimeout hs
  | status m =>
    by_cases ha : s.tracker.Activated
    · -- the status is taken, and a timeout that was reported is over
      obtain ⟨hstatus, htimed⟩ := onStatus_status s.clock m ha
      simp only [step, if_pos ha]
      show (if (s.tracker.onStatus m s.clock).1.timedOut then _ else _) = m.status
      rw [htimed]
      exact hstatus
    · -- `OnStatus` returns early, so the status is lost
      simp only [step, if_neg ha]
      show (s.tracker.onStatus m s.clock).1.recovered = s.left
      rw [onStatus, if_pos ha]
      exact hs
  | position m u =>
    by_cases ha : s.tracker.Activated
    · simp only [step, react_position F m u ha]
      exact hs
    · show (s.tracker.onPosition F m u s.clock).1.recovered = s.left
      rw [onPosition, if_pos ha]
      exact hs

theorem follows_iff_intact (e : Event D) (s : Session D) (hs : s.Kept) :
    Follows F e s ↔ Intact e s := by
  cases e with
  | position m u =>
    by_cases ha : s.tracker.Activated
    · have hpose : Follows F (.position m u) s ↔
          (decide (s.left ≠ Status.disconnected.toInt32) =
              decide (s.sent ≠ Status.disconnected.toInt32) ∧
            decide (s.left = Status.ok.toInt32) = decide (s.sent = Status.ok.toInt32)) := by
        rw [← show s.tracker.recovered = s.left from hs]
        simp only [Follows, react_position F m u ha, List.mem_singleton, Output.poseUpdated.injEq]
        exact ⟨fun h => h _ _ ⟨rfl, rfl⟩, fun h _ _ he => he.2 ▸ h⟩
      rw [hpose, decide_eq_decide, decide_eq_decide, not_iff_not]
      exact ⟨fun h _ => h, fun h => h ha⟩
    · have hnone : (react F s.clock (.position m u) s.tracker).2 = [] := by
        rw [react, onPosition, if_pos ha]
      simp only [Follows, hnone, List.not_mem_nil, false_implies, implies_true, true_iff]
      exact fun h => absurd h ha
  | _ => exact Iff.rfl

/-- **The poses that come with positions say in a run what the app said last, if and only if every
position of the run finds it**: where the tracker has reported a timeout since it took a status,
the app's last status is OK, and otherwise it is like the one that was taken. -/
theorem follows_iff (role : Int32) (clock : Int) (es : List (Event D)) :
    Meets (Follows F) (step F) es (Session.init role clock) ↔
      Meets Intact (step F) es (Session.init role clock) :=
  Meets.iff_of_invariant (fun e s _ => kept_step F e s) (follows_iff_intact F) es rfl

end Steps

/-- The app says that the tracker is occluded, and nothing more for 3 s. -/
theorem not_follows :
    ¬∀ es : List (Event ℚ), Meets (Follows ℚ) (step ℚ) es (Session.init 0 0) := by
  intro h
  have hlast := (h [.activate 5,
    .status { kind := .trackerStatus, status := Status.occluded.toInt32 }, .wait 3000000000,
    .checkTimeout, .position { kind := .position } none]).2.2.2.2.1
  exact absurd (hlast 5 _ (List.mem_singleton_self _)).2 (by decide)

/-- The app says it before SteamVR activates the tracker. -/
example : ¬Follows ℚ (.position { kind := .position } none) (run (step ℚ) [.status
    { kind := .trackerStatus, status := Status.occluded.toInt32 }, .activate 5]
    (Session.init 0 0 : Session ℚ)) := by
  intro h
  exact absurd (h 5 _ (List.mem_singleton_self _)).2 (by decide)

end Rebocap.Driver.Tracker
