import Rebocap.Driver.TrackerValidity

/-!
# What a tracker reports

Runs of the calls on a tracker, with what was heard of it: which device it is, when it was
activated or a message arrived last, and whether a timeout was reported since.

* `react_pose` — all that a submitted pose tells
* `reports` — what holds of every submitted pose, and when a tracker is not shown as disconnected
-/

namespace Rebocap.Driver.Tracker

open Lib FloatOrder Arith FloatConv FloatBits Proto PoseHooks

variable {F D : Type}

/-! ## Poses -/

/-- The pose says the status. -/
structure Shows (status : Int32) (pose : DriverPose D) : Prop where
  connected : pose.deviceIsConnected = decide (status ≠ Status.disconnected.toInt32)
  valid : pose.poseIsValid = decide (status = Status.ok.toInt32)
  result : pose.result = if status = Status.ok.toInt32 then runningOk else runningOutOfRange

theorem shows_applyStatus (t : Tracker D) : Shows t.status t.applyStatus.pose := ⟨rfl, rfl, rfl⟩

theorem Shows.valid_iff {status : Int32} {pose : DriverPose D} (h : Shows status pose) :
    pose.poseIsValid = true ↔ pose.result = runningOk := by
  rw [h.valid, h.result]
  by_cases hs : status = Status.ok.toInt32
  · simp [hs]
  · simp [hs, runningOk, runningOutOfRange]

theorem Shows.connected_of_valid {status : Int32} {pose : DriverPose D} (h : Shows status pose)
    (hv : pose.poseIsValid = true) : pose.deviceIsConnected = true := by
  rw [h.valid, decide_eq_true_eq] at hv
  rw [h.connected, hv]
  decide

theorem Shows.connected_iff {status : Int32} {pose : DriverPose D} (h : Shows status pose) :
    pose.deviceIsConnected = true ↔ status ≠ Status.disconnected.toInt32 := by
  rw [h.connected, decide_eq_true_eq]

section React

variable (F) [FloatBits F 32] [FloatConv F D] [FloatBits D 64] [FloatOrder D] [Arith D]

/-- The status that a call puts into the pose that it submits. -/
def Reports (now : Int) (t : Tracker D) (status : Int32) : Event D → Prop
  | .position .. => status = t.recovered
  | .status m => status = m.status
  | .checkTimeout => status = Status.disconnected.toInt32 ∧ seconds 3 ≤ now - t.lastMessage
  | _ => False

/-- **All that a submitted pose tells**: the tracker is activated, which device it is, and the
status of the call. -/
theorem react_pose {now : Int} {e : Event D} {t : Tracker D} {index : UInt32}
    {pose : DriverPose D} (h : .poseUpdated index pose ∈ (react F now e t).2) :
    t.Activated ∧ index = t.index ∧ ∃ status, Shows status pose ∧ Reports now t status e := by
  cases e with
  | wait | activate | deactivate => cases h
  | position m u =>
    by_cases ha : t.Activated
    · rw [react_position F m u ha, List.mem_singleton, Output.poseUpdated.injEq] at h
      obtain ⟨rfl, rfl⟩ := h
      exact ⟨ha, rfl, _, shows_applyStatus _, rfl⟩
    · rw [react, onPosition, if_pos ha] at h
      cases h
  | status m =>
    by_cases ha : t.Activated
    · rw [react, onStatus, if_neg (not_not.mpr ha)] at h
      dsimp only at h
      split at h
      all_goals
        simp only [List.nil_append, List.singleton_append, List.mem_cons, List.not_mem_nil,
          or_false, reduceCtorEq, false_or, submit, Output.poseUpdated.injEq] at h
        obtain ⟨rfl, rfl⟩ := h
        exact ⟨ha, rfl, _, shows_applyStatus _, rfl⟩
    · rw [react, onStatus, if_pos ha] at h
      cases h
  | checkTimeout =>
    rw [react, checkTimeout] at h
    split at h
    next => cases h
    next hc =>
      rw [not_or, not_not, Int.not_lt] at hc
      rw [submit, List.mem_singleton, Output.poseUpdated.injEq] at h
      obtain ⟨rfl, rfl⟩ := h
      exact ⟨hc.1, rfl, _, shows_applyStatus _, rfl, hc.2⟩

theorem react_index (now : Int) (e : Event D) (t : Tracker D) :
    (react F now e t).1.index = match e with
      | .activate index => index
      | .deactivate => indexInvalid
      | _ => t.index := by
  cases e with
  | wait | activate | deactivate => rfl
  | position m u =>
    by_cases ha : t.Activated
    · rw [react_position F m u ha]
      rfl
    · rw [react, onPosition, if_pos ha]
  | status m =>
    by_cases ha : t.Activated
    · rw [react, onStatus, if_neg (not_not.mpr ha)]
      dsimp only
      split <;> rfl
    · rw [react, onStatus, if_pos ha]
  | checkTimeout =>
    rw [react, checkTimeout]
    split <;> rfl

/-- A message that an activated tracker takes, and a timeout that it reports, count as now. -/
theorem react_lastMessage (now : Int) (e : Event D) (t : Tracker D) :
    (react F now e t).1.lastMessage = match e with
      | .activate _ => now
      | .position .. | .status _ => if t.Activated then now else t.lastMessage
      | .checkTimeout => if (react F now e t).2 = [] then t.lastMessage else now
      | _ => t.lastMessage := by
  cases e with
  | wait | activate | deactivate => rfl
  | position m u =>
    by_cases ha : t.Activated
    · rw [react_position F m u ha, if_pos ha]
    · rw [react, onPosition, if_pos ha, if_neg ha]
  | status m =>
    by_cases ha : t.Activated
    · rw [react, onStatus, if_neg (not_not.mpr ha), if_pos ha]
      dsimp only
      split <;> rfl
    · rw [react, onStatus, if_pos ha, if_neg ha]
  | checkTimeout =>
    dsimp only
    rw [react, checkTimeout]
    split
    · rw [if_pos rfl]
    · rfl

end React

/-! ## Watched trackers -/

/-- A session with what was heard of the tracker. -/
structure Watch (D : Type) extends Session D where
  /-- The device that SteamVR has activated. -/
  activation : Option UInt32
  /-- When the tracker was activated or a message arrived last. -/
  heard : Int
  /-- The same, or when a timeout was reported. -/
  reported : Int
  /-- A timeout was reported, and no message arrived since. -/
  quiet : Bool

def Watch.init [Zero D] [One D] (role : Int32) (clock : Int) : Watch D where
  toSession := .init role clock
  activation := none
  heard := clock
  reported := clock
  quiet := false

section Steps

variable (F) [FloatBits F 32] [FloatConv F D] [FloatBits D 64] [FloatOrder D] [Arith D]

def Watch.step (e : Event D) (s : Watch D) : Watch D :=
  let silence := (react F s.clock e s.tracker).2.isEmpty
  let s' := { s with toSession := Tracker.step F e s.toSession }
  match e with
  | .activate index => { s' with activation := some index, heard := s.clock, reported := s.clock }
  | .deactivate => { s' with activation := none }
  | .position .. | .status _ => { s' with heard := s.clock, reported := s.clock, quiet := false }
  | .checkTimeout => if silence then s' else { s' with reported := s.clock, quiet := true }
  | .wait _ => s'

/-- A message comes. -/
def Event.isMessage : Event D → Bool
  | .position .. | .status _ => true
  | _ => false

/-- What holds of a pose that a call submits. -/
structure Sound (e : Event D) (s : Watch D) (index : UInt32) (pose : DriverPose D) : Prop where
  index_eq : s.activation = some index
  valid_iff : pose.poseIsValid = true ↔ pose.result = runningOk
  connected_of_valid : pose.poseIsValid = true → pose.deviceIsConnected = true
  /-- A timeout is reported 3 s after all that happened before. -/
  timeout : e = .checkTimeout → seconds 3 ≤ s.clock - s.reported
  /-- After a timeout all is disconnected until a message arrives. -/
  disconnected_of_quiet : s.quiet = true → e.isMessage = false → pose.deviceIsConnected = false

/-- Messages keep coming, and none says that the tracker is disconnected. -/
def Attended (e : Event D) (s : Watch D) : Prop :=
  match e with
  | .status m => s.tracker.Activated → m.status ≠ Status.disconnected.toInt32
  | .checkTimeout => s.tracker.Activated → s.clock - s.heard < seconds 3
  | _ => True

/-- No pose is submitted as disconnected. -/
def Connected (e : Event D) (s : Watch D) : Prop :=
  ∀ index pose, .poseUpdated index pose ∈ (react F s.clock e s.tracker).2 →
    pose.deviceIsConnected = true

/-! ## What is known of a watched tracker -/

structure Watch.Known (s : Watch D) : Prop where
  index_eq : s.tracker.index = s.activation.getD indexInvalid
  lastMessage_eq : s.tracker.Activated → s.tracker.lastMessage = s.reported
  heard_le : s.heard ≤ s.reported
  reported_le : s.reported ≤ s.clock
  kept : s.toSession.Kept

omit [FloatBits D 64] [Arith D] in
theorem known_init (role : Int32) (clock : Int) : (Watch.init role clock : Watch D).Known where
  index_eq := rfl
  lastMessage_eq := fun h => absurd rfl h
  heard_le := Int.le_refl _
  reported_le := Int.le_refl _
  kept := rfl

theorem watch_toSession (e : Event D) (s : Watch D) :
    (Watch.step F e s).toSession = Tracker.step F e s.toSession := by
  cases e with
  | wait | activate | deactivate | position | status => rfl
  | checkTimeout =>
    simp only [Watch.step]
    split <;> rfl

theorem watch_tracker (e : Event D) (s : Watch D) :
    (Watch.step F e s).tracker = (react F s.clock e s.tracker).1 := by
  rw [watch_toSession]
  cases e with
  | wait | activate | deactivate | position | checkTimeout => rfl
  | status m =>
    simp only [Tracker.step]
    split <;> rfl

theorem watch_clock (e : Event D) (s : Watch D) : s.clock ≤ (Watch.step F e s).clock := by
  rw [watch_toSession]
  cases e with
  | wait elapsed => exact Int.le_add_of_nonneg_right (Int.natCast_nonneg elapsed)
  | activate | deactivate | position | checkTimeout => exact Int.le_refl _
  | status m =>
    simp only [Tracker.step]
    split <;> exact Int.le_refl _

theorem index_step (e : Event D) {s : Watch D} (h : s.Known) :
    (Watch.step F e s).tracker.index = (Watch.step F e s).activation.getD indexInvalid := by
  rw [watch_tracker, react_index]
  cases e with
  | activate | deactivate => rfl
  | wait | position | status => exact h.index_eq
  | checkTimeout =>
    simp only [Watch.step]
    split <;> exact h.index_eq

theorem lastMessage_step (e : Event D) {s : Watch D} (h : s.Known)
    (ha : (Watch.step F e s).tracker.Activated) :
    (Watch.step F e s).tracker.lastMessage = (Watch.step F e s).reported := by
  rw [watch_tracker] at ha ⊢
  rw [Activated, react_index] at ha
  rw [react_lastMessage]
  cases e with
  | wait => exact h.lastMessage_eq ha
  | activate => rfl
  | deactivate => exact absurd rfl ha
  | position | status => exact if_pos ha
  | checkTimeout =>
    -- a call that says nothing has not reported a timeout
    simp only [Watch.step, List.isEmpty_iff]
    split
    · exact h.lastMessage_eq ha
    · rfl

theorem reported_step (e : Event D) {s : Watch D} (h : s.Known) :
    (Watch.step F e s).heard ≤ (Watch.step F e s).reported ∧
      (Watch.step F e s).reported ≤ (Watch.step F e s).clock := by
  have hclock := watch_clock F e s
  cases e with
  | wait => exact ⟨h.heard_le, Int.le_trans h.reported_le hclock⟩
  | deactivate => exact ⟨h.heard_le, h.reported_le⟩
  | activate | position | status => exact ⟨Int.le_refl _, hclock⟩
  | checkTimeout =>
    simp only [Watch.step]
    split
    · exact ⟨h.heard_le, h.reported_le⟩
    · exact ⟨Int.le_trans h.heard_le h.reported_le, Int.le_refl _⟩

theorem known_step (e : Event D) {s : Watch D} (h : s.Known) : (Watch.step F e s).Known where
  index_eq := index_step F e h
  lastMessage_eq := lastMessage_step F e h
  heard_le := (reported_step F e h).1
  reported_le := (reported_step F e h).2
  kept := by
    rw [watch_toSession]
    exact kept_step F e s.toSession h.kept

/-! ## What is submitted -/

theorem sound {e : Event D} {s : Watch D} (h : s.Known) {index : UInt32} {pose : DriverPose D}
    (hpose : .poseUpdated index pose ∈ (react F s.clock e s.tracker).2) :
    Sound e s index pose := by
  obtain ⟨ha, rfl, status, hshows, hreports⟩ := react_pose F hpose
  have hindex := h.index_eq
  constructor
  case index_eq =>
    cases hactivation : s.activation with
    | none =>
      rw [hactivation] at hindex
      exact absurd hindex ha
    | some index =>
      rw [hactivation] at hindex
      rw [hindex, Option.getD_some]
  case valid_iff => exact hshows.valid_iff
  case connected_of_valid => exact hshows.connected_of_valid
  case timeout =>
    rintro rfl
    rw [← h.lastMessage_eq ha]
    exact hreports.2
  case disconnected_of_quiet =>
    intro _ hmessage
    cases e with
    | wait | activate | deactivate => cases hreports
    | position | status => cases hmessage
    | checkTimeout => simp [hshows.connected, hreports.1]

/-- The pose of a status that is not DISCONNECTED is connected. -/
theorem connected_status {m : Msg} {s : Watch D} (hattended : Attended (.status m) s) :
    Connected F (.status m) s := by
  intro index pose hpose
  obtain ⟨ha, -, status, hshows, hreports⟩ := react_pose F hpose
  have hstatus : status = m.status := hreports
  rw [hshows.connected_iff, hstatus]
  exact hattended ha

theorem connected_of_attended {e : Event D} {s : Watch D} (h : s.Known)
    (hleft : s.left ≠ Status.disconnected.toInt32) (hattended : Attended e s) :
    Connected F e s := by
  cases e with
  | wait | activate | deactivate => exact fun _ _ hpose => nomatch hpose
  | position m u =>
    intro index pose hpose
    obtain ⟨-, -, status, hshows, hreports⟩ := react_pose F hpose
    have hstatus : status = s.left := hreports.trans h.kept
    rwa [hshows.connected_iff, hstatus]
  | status m => exact connected_status F hattended
  | checkTimeout =>
    intro index pose hpose
    obtain ⟨ha, -, status, hshows, hreports⟩ := react_pose F hpose
    -- what was heard last is as late as `last_message_` or later
    have hsilent : seconds 3 ≤ s.clock - s.reported := h.lastMessage_eq ha ▸ hreports.2
    have hheard : s.clock - s.heard < seconds 3 := hattended ha
    have hle := h.heard_le
    omega

/-- A timeout leaves the status of the app, or OK. -/
theorem left_checkTimeout (s : Session D) :
    (Tracker.step F .checkTimeout s).left = s.left ∨
      (Tracker.step F .checkTimeout s).left = Status.ok.toInt32 := by
  by_cases hsilent : (s.silent || !(react F s.clock .checkTimeout s.tracker).2.isEmpty) = true
  · exact .inr (if_pos hsilent)
  · have hbefore : ¬s.silent = true := fun h => hsilent (by rw [h, Bool.true_or])
    exact .inl ((if_neg hsilent).trans (if_neg hbefore).symm)

/-- A step under which messages keep coming does not leave the tracker disconnected. -/
theorem left_step {e : Event D} {s : Watch D} (hattended : Attended e s)
    (hleft : s.left ≠ Status.disconnected.toInt32) :
    (Watch.step F e s).left ≠ Status.disconnected.toInt32 := by
  cases e with
  | wait | activate | deactivate | position => exact hleft
  | status m =>
    simp only [Watch.step, Tracker.step]
    split
    next ha => exact hattended ha
    next => exact hleft
  | checkTimeout =>
    rw [watch_toSession]
    obtain hkept | hok := left_checkTimeout F s.toSession
    · rwa [hkept]
    · rw [hok]
      decide

theorem connected_run (fs : List (Event D)) {s : Watch D} (h : s.Known)
    (hleft : s.left ≠ Status.disconnected.toInt32) :
    Meets Attended (Watch.step F) fs s → Meets (Connected F) (Watch.step F) fs s := by
  have hstep : ∀ e (s : Watch D), Attended e s →
      s.Known ∧ s.left ≠ Status.disconnected.toInt32 →
      (Watch.step F e s).Known ∧ (Watch.step F e s).left ≠ Status.disconnected.toInt32 :=
    fun e _ hattended hs => ⟨known_step F e hs.1, left_step F hattended hs.2⟩
  exact Meets.imp_of_invariant hstep
    (fun _ _ hs hattended => connected_of_attended F hs.1 hs.2 hattended) fs ⟨h, hleft⟩

/-- **What a tracker reports**: in every state that is reached a submitted pose is sound, and a
tracker is shown as connected for as long as messages keep coming and none says that it is not. This
begins where the status that is left of what the app said is not DISCONNECTED, and with the first
status that follows an activation. -/
theorem reports (role : Int32) (clock : Int) (es : List (Event D)) :
    let s := run (Watch.step F) es (.init role clock)
    (∀ e index pose, .poseUpdated index pose ∈ (react F s.clock e s.tracker).2 →
        Sound e s index pose) ∧
      (s.left ≠ Status.disconnected.toInt32 →
        ∀ fs, Meets Attended (Watch.step F) fs s → Meets (Connected F) (Watch.step F) fs s) ∧
      (s.tracker.Activated → ∀ m fs, Meets Attended (Watch.step F) (.status m :: fs) s →
        Meets (Connected F) (Watch.step F) (.status m :: fs) s) := by
  intro s
  have h : s.Known := run_invariant (fun e _ hs => known_step F e hs) es (known_init role clock)
  refine ⟨fun _ _ _ hpose => sound F h hpose, fun hleft fs => connected_run F fs h hleft, ?_⟩
  rintro ha m fs ⟨hfirst, hrest⟩
  have hleft : (Watch.step F (.status m) s).left = m.status := by
    simp only [Watch.step, Tracker.step, if_pos ha]
    rfl
  exact ⟨connected_status F hfirst,
    connected_run F fs (known_step F (.status m) h) (hleft ▸ hfirst ha) hrest⟩

end Steps

/-- The app says that the tracker is disconnected, and SteamVR activates it again. -/
def activatedAgain : List (Event ℚ) :=
  [.activate 5, .status { kind := .trackerStatus, status := Status.disconnected.toInt32 },
    .deactivate, .activate 5]

/-- A status, and a position 2 s later. -/
theorem reports_activatedAgain :
    let s := run (Watch.step ℚ) activatedAgain (.init 0 0)
    s.left = Status.disconnected.toInt32 ∧
      Meets (Connected ℚ) (Watch.step ℚ)
        [.status { kind := .trackerStatus, status := Status.ok.toInt32 }, .wait 2000000000,
          .checkTimeout, .position { kind := .position } none] s := by
  refine ⟨by decide, (reports ℚ 0 0 activatedAgain).2.2 (by decide) _ _ ?_⟩
  exact ⟨fun _ => by decide, trivial, fun _ => by decide, trivial, trivial⟩

/-- Without the status the position is shown as disconnected. -/
theorem not_connected : ¬∀ (es : List (Event ℚ)) index fs,
    let s := Watch.step ℚ (.activate index) (run (Watch.step ℚ) es (.init 0 0))
    Meets Attended (Watch.step ℚ) fs s → Meets (Connected ℚ) (Watch.step ℚ) fs s := by
  intro h
  have hrun := h [.activate 5,
    .status { kind := .trackerStatus, status := Status.disconnected.toInt32 }, .deactivate] 5
    [.position { kind := .position } none] ⟨trivial, trivial⟩
  exact absurd (hrun.1 5 _ (List.mem_singleton_self _)) (by decide)

end Rebocap.Driver.Tracker
