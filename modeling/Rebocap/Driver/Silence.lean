import Rebocap.Driver.Dispatch
import Rebocap.Driver.TrackerReports

/-!
# Trackers that fall silent

`CheckTimeout` runs in frames, at most every 200 ms, and in frames without a connection too. So a
tracker that is silent for longer than its 3 s is found out in time.

* `Devices.silence_shown` — at the end of a frame a tracker that was silent for 3.2 s is shown as
  disconnected, and no check does anything to one that was heard of within 3 s
-/

namespace Rebocap.Driver

open Lib FloatOrder Arith FloatConv FloatBits Proto

variable {F D : Type}

namespace Devices

/-! ## What was heard of a tracker -/

/-- When a call has activated the tracker, or has brought it a message. -/
def heardAt (id : Int32) (c : Call D) : Option Int :=
  match c.event id with
  | some (now, .activate _) | some (now, .position _ _) | some (now, .status _) => some now
  | _ => none

/-- When this was the last time. -/
def heard (id : Int32) (calls : List (Call D)) : Option Int :=
  calls.reverse.findSome? (heardAt id)

theorem heard_append (id : Int32) (calls : List (Call D)) (c : Call D) :
    heard id (calls ++ [c]) = (heardAt id c).or (heard id calls) := by
  rw [heard, List.reverse_append, List.reverse_singleton, List.singleton_append,
    List.findSome?_cons]
  cases heardAt id c <;> rfl

/-- The last that SteamVR got of the tracker is a pose that is not connected. -/
structure Gone (t : Tracker D) (reports : List (Output D)) : Prop where
  disconnected : t.pose.deviceIsConnected = false
  invalid : t.pose.poseIsValid = false
  submitted : reports.getLast? = some (.poseUpdated t.index t.pose)

/-- An activated tracker counts from what was heard of it last, or is shown as gone and counts from
a later time. -/
def Attends (id : Int32) (calls : List (Call D)) (p : Option (Tracker D) × List (Output D)) :
    Prop :=
  ∀ t, p.1 = some t → t.Activated →
    ∃ h, heard id calls = some h ∧ h ≤ t.lastMessage ∧ (t.lastMessage = h ∨ Gone t p.2)

/-- A tracker that was just made is not activated. -/
theorem not_activated_of_new [Zero D] [One D] {id : Int32} {c : Call D} {t : Tracker D}
    (h : c.newTracker id = some t) : ¬t.Activated := by
  cases c with
  | message accepts clock m u now =>
    cases accepts with
    | false => cases h
    | true =>
      simp only [Call.newTracker] at h
      split at h
      · cases h
        exact fun ha => ha rfl
      · cases h
  | checkTimeouts | activate | deactivate => cases h

section Calls

variable (F) [FloatBits F 32] [FloatConv F D] [FloatBits D 64] [FloatOrder D] [Arith D]

omit [FloatBits F 32] [FloatConv F D] [FloatBits D 64] [FloatOrder D] [Arith D] in
/-- A timeout that is reported shows the tracker as gone. -/
theorem gone_checkTimeout {now : Int} {t : Tracker D} (reports : List (Output D))
    (h : (t.checkTimeout now).2 ≠ []) :
    Gone (t.checkTimeout now).1 (reports ++ (t.checkTimeout now).2) := by
  unfold Tracker.checkTimeout at h ⊢
  split at h
  next => exact absurd rfl h
  next hdue =>
    rw [if_neg hdue]
    exact {
      disconnected := by simp [Tracker.submit, Tracker.applyStatus]
      invalid := rfl
      submitted := by simp [Tracker.submit, Tracker.applyStatus] }

omit [FloatBits F 32] [FloatConv F D] [FloatBits D 64] [FloatOrder D] [Arith D] in
theorem checkTimeout_of_quiet {now : Int} {t : Tracker D} (h : (t.checkTimeout now).2 = []) :
    (t.checkTimeout now).1 = t := by
  unfold Tracker.checkTimeout at h ⊢
  split at h
  next hquiet => rw [if_pos hquiet]
  next => cases h

omit [FloatBits F 32] [FloatConv F D] [FloatBits D 64] [FloatOrder D] [Arith D] in
theorem le_lastMessage_checkTimeout (now : Int) (t : Tracker D) :
    t.lastMessage ≤ (t.checkTimeout now).1.lastMessage := by
  unfold Tracker.checkTimeout
  split
  next => exact Int.le_refl _
  next hdue =>
    rw [not_or, Int.not_lt] at hdue
    have hlate : seconds 3 ≤ now - t.lastMessage := hdue.2
    have hpos : (0 : Int) < seconds 3 := by decide
    show t.lastMessage ≤ now
    omega

theorem attends_event {id : Int32} {calls : List (Call D)} {c : Call D} {t : Tracker D}
    {reports : List (Output D)} {now : Int} {e : Tracker.Event D}
    (hevent : c.event id = some (now, e)) (h : Attends id calls (some t, reports)) :
    Attends id (calls ++ [c])
      (some (Tracker.react F now e t).1, reports ++ (Tracker.react F now e t).2) := by
  rintro t' ht' ha
  obtain rfl := Option.some.inj ht'
  have hactivated := ha
  rw [Tracker.Activated, Tracker.react_index] at hactivated
  have hlast := Tracker.react_lastMessage F now e t
  rw [heard_append]
  have hheard : ∀ {h : Int}, heardAt id c = some h → (Tracker.react F now e t).1.lastMessage = h →
      ∃ h, (heardAt id c).or (heard id calls) = some h ∧
        h ≤ (Tracker.react F now e t).1.lastMessage ∧
        ((Tracker.react F now e t).1.lastMessage = h ∨
          Gone (Tracker.react F now e t).1 (reports ++ (Tracker.react F now e t).2)) := by
    intro h hat heq
    rw [hat]
    exact ⟨h, rfl, Int.le_of_eq heq.symm, .inl heq⟩
  cases e with
  | wait =>
    obtain ⟨h, hh, hle, hcase⟩ := h t rfl hactivated
    refine ⟨h, by simpa [heardAt, hevent] using hh, hle, ?_⟩
    rw [Tracker.react, List.append_nil]
    exact hcase
  | activate index => exact hheard (by simp [heardAt, hevent]) hlast
  | deactivate => exact absurd rfl hactivated
  | position m u => exact hheard (by simp [heardAt, hevent]) (hlast.trans (if_pos hactivated))
  | status m => exact hheard (by simp [heardAt, hevent]) (hlast.trans (if_pos hactivated))
  | checkTimeout =>
    obtain ⟨h, hh, hle, hcase⟩ := h t rfl hactivated
    refine ⟨h, by simpa [heardAt, hevent] using hh,
      Int.le_trans hle (le_lastMessage_checkTimeout now t), ?_⟩
    by_cases hquiet : (t.checkTimeout now).2 = []
    · rw [Tracker.react, checkTimeout_of_quiet hquiet, hquiet, List.append_nil]
      exact hcase
    · exact .inr (gone_checkTimeout reports hquiet)

theorem attends_call (id : Int32) (c : Call D) {d : Devices D}
    (h : Attends id d.calls (d.view id)) :
    Attends id (d.call F c).calls ((d.call F c).view id) := by
  rw [view_call, alone]
  show Attends id (d.calls ++ [c]) _
  cases hview : d.view id with
  | mk t reports =>
    rw [hview] at h
    cases t with
    | none =>
      exact fun t ht ha => absurd ha (not_activated_of_new ht)
    | some t =>
      simp only [lone]
      split
      next now e hevent => exact attends_event F hevent h
      next hevent =>
        rw [List.append_nil]
        rintro t' ht' ha
        obtain ⟨hd, hh, hle, hcase⟩ := h t' ht' ha
        refine ⟨hd, ?_, hle, hcase⟩
        rw [heard_append]
        simpa [heardAt, hevent] using hh

/-- A check does nothing to a tracker of which something was heard less than 3 s ago. -/
theorem view_checkTimeouts {id : Int32} {clock : Int32 → Int} {d : Devices D} {h : Int}
    (hattends : Attends id d.calls (d.view id)) (hheard : heard id d.calls = some h)
    (hrecent : clock id - h < seconds 3) :
    (d.call F (.checkTimeouts clock)).view id = d.view id := by
  rw [view_call, alone]
  cases hview : d.view id with
  | mk t reports =>
    rw [hview] at hattends
    cases t with
    | none => exact Prod.ext rfl (List.append_nil reports)
    | some t =>
      have hquiet : t.checkTimeout (clock id) = (t, []) := by
        refine if_pos ?_
        by_cases ha : t.Activated
        · obtain ⟨h', hh', hle, -⟩ := hattends t rfl ha
          obtain rfl := Option.some.inj (hheard.symm.trans hh')
          exact .inr (by omega)
        · exact .inl ha
      show (some (t.checkTimeout (clock id)).1, reports ++ (t.checkTimeout (clock id)).2) = _
      rw [hquiet, List.append_nil]

end Calls

/-! ## Rounds -/

/-- An activated tracker was heard of, or reported, less than 3 s before the last check. -/
def Fresh (checked : Int) (d : Devices D) : Prop :=
  ∀ (id : Int32) (t : Tracker D), d.registry.trackers[id]? = some t → t.Activated →
    checked - t.lastMessage < seconds 3

/-- The clock in a call is not behind `now`. -/
def NotBefore (now : Int) : Call D → Prop
  | .message _ clock _ _ _ | .activate _ _ clock => now ≤ clock
  | .checkTimeouts clock => ∀ id, now ≤ clock id
  | .deactivate _ => True

theorem event_notBefore {now : Int} {id : Int32} {c : Call D} {clock : Int} {e : Tracker.Event D}
    (hc : NotBefore now c) (h : c.event id = some (clock, e)) : now ≤ clock ∨ e = .deactivate := by
  cases c with
  | message accepts clock' m u now' =>
    simp only [Call.event] at h
    split at h
    · cases h
    · split at h
      · split at h
        · cases h
        · cases h
          exact .inl hc
      · cases h
        exact .inl hc
      · cases h
  | checkTimeouts clock' =>
    cases h
    exact .inl (hc id)
  | activate id' index clock' =>
    simp only [Call.event] at h
    split at h
    · cases h
      exact .inl hc
    · cases h
  | deactivate id' =>
    simp only [Call.event] at h
    split at h
    · cases h
      exact .inr rfl
    · cases h

section Calls

variable (F) [FloatBits F 32] [FloatConv F D] [FloatBits D 64] [FloatOrder D] [Arith D]

/-- An event under a clock that is not behind the last check. -/
theorem fresh_react {checked now : Int} (hnow : checked ≤ now) (e : Tracker.Event D)
    {t : Tracker D} (ht : t.Activated → checked - t.lastMessage < seconds 3)
    (ha : (Tracker.react F now e t).1.Activated) :
    checked - (Tracker.react F now e t).1.lastMessage < seconds 3 := by
  have hnew : checked - now < seconds 3 := by
    have : (0 : Int) < seconds 3 := by decide
    omega
  have hindex := Tracker.react_index F now e t
  have hlast := Tracker.react_lastMessage F now e t
  rw [Tracker.Activated, hindex] at ha
  cases e with
  | wait => exact hlast ▸ ht ha
  | activate => exact hlast ▸ hnew
  | deactivate => exact absurd rfl ha
  | position | status =>
    rw [hlast.trans (if_pos ha)]
    exact hnew
  | checkTimeout =>
    rw [hlast]
    dsimp only
    split
    · exact ht ha
    · exact hnew

/-- A call under a clock that is not behind the last check. -/
theorem fresh_call {checked : Int} {c : Call D} {d : Devices D} (hc : NotBefore checked c)
    (h : Fresh checked d) : Fresh checked (d.call F c) := by
  intro id t ht ha
  rw [view_fst_call] at ht
  cases hlookup : d.registry.trackers[id]? with
  | none =>
    rw [hlookup] at ht
    exact absurd ha (not_activated_of_new ht)
  | some t₀ =>
    rw [hlookup] at ht
    simp only [lone] at ht
    split at ht
    next now e hevent =>
      obtain rfl := Option.some.inj ht
      obtain hnow | rfl := event_notBefore hc hevent
      · exact fresh_react F hnow e (h id t₀ hlookup) ha
      · exact absurd rfl ha
    next =>
      obtain rfl := Option.some.inj ht
      exact h id t₀ hlookup ha

/-- A check makes all fresh for its own time. -/
theorem fresh_checkTimeouts {now : Int} {clock : Int32 → Int} (hclock : ∀ id, now ≤ clock id)
    (d : Devices D) : Fresh now (d.call F (.checkTimeouts clock)) := by
  intro id t ht ha
  rw [view_fst_call] at ht
  cases hlookup : d.registry.trackers[id]? with
  | none =>
    rw [hlookup] at ht
    cases ht
  | some t₀ =>
    rw [hlookup] at ht
    obtain rfl := Option.some.inj ht
    have hle := hclock id
    show now - (t₀.checkTimeout (clock id)).1.lastMessage < _
    have hactivated : t₀.Activated := by
      have hindex := Tracker.react_index F (clock id) .checkTimeout t₀
      rwa [Tracker.Activated, show (Tracker.react F (clock id) .checkTimeout t₀).1.index = t₀.index
        from hindex] at ha
    unfold Tracker.checkTimeout
    split
    next hquiet =>
      rcases hquiet with hquiet | hquiet
      · exact absurd hactivated hquiet
      · dsimp only
        omega
    next =>
      show now - clock id < seconds 3
      have : (0 : Int) < seconds 3 := by decide
      omega

/-! ## In a run -/

/-- The clock never goes back: a turn reads no earlier time than the frame. -/
def SteadyTurn : Turn D (Devices D) Answers → Rounds (Devices D) → Prop
  | .frame now, r => r.now ≤ now
  | .message io _ _, r | .checkTimeouts io, r => ∀ id, r.now ≤ io.clock id
  | .updateWalkInPlace _ _, _ => True
  | .outside f, r => ∃ c, ofSteamVr c ∧ NotBefore r.now c ∧ f = call F c

/-- The same for a step of the driver. -/
def Steady : Provider.Event F D (Devices D) Answers → Provider F D (Devices D) → Prop
  | .net _, _ => True
  | .frame now, s => s.now ≤ now
  | .step io, s => ∀ id, s.now ≤ io.vr.clock id
  | .outside f, s => ∃ c, ofSteamVr c ∧ NotBefore s.now c ∧ f = call F c

theorem meets_steadyTurn (e : Provider.Event F D (Devices D) Answers)
    (s : Provider F D (Devices D)) (he : Steady F e s) :
    Meets (SteadyTurn F) (Rounds.turn (handlers F)) (Provider.turns e s) s.rounds := by
  cases e with
  | net e => trivial
  | frame now =>
    simp only [Provider.turns]
    split
    · exact ⟨he, trivial⟩
    · trivial
  | step io =>
    simp only [Provider.turns, Provider.frameTurns]
    split
    · exact ⟨trivial, he, trivial⟩
    · split
      · exact ⟨he, trivial⟩
      · exact ⟨he, trivial⟩
    · exact ⟨trivial, trivial⟩
    · trivial
  | outside f => exact ⟨he, trivial⟩

/-- What is known of the trackers between two turns. -/
structure Timely (r : Rounds (Devices D)) : Prop where
  checked_le : r.checked ≤ r.now
  /-- A frame that has been at its check is at most 200 ms behind one. -/
  settled : r.settled = true → r.now - r.checked ≤ milliseconds 200
  fresh : Fresh r.checked r.devices
  attends : ∀ id, Attends id r.devices.calls (r.devices.view id)

omit [FloatBits F 32] [FloatConv F D] [FloatBits D 64] [FloatOrder D] [Arith D] in
theorem timely_init : Timely (.init (init : Devices D)) where
  checked_le := Int.le_refl 0
  settled := fun _ => (by decide : (0 : Int) - 0 ≤ milliseconds 200)
  fresh := fun id t ht => by
    rw [show (Rounds.init (init : Devices D)).devices.registry.trackers[id]? = none from
      Std.TreeMap.getElem?_emptyc] at ht
    cases ht
  attends := fun id t ht => by
    rw [show ((Rounds.init (init : Devices D)).devices.view id).1 = none from
      Std.TreeMap.getElem?_emptyc] at ht
    cases ht

theorem timely_turn (t : Turn D (Devices D) Answers) (r : Rounds (Devices D))
    (hsteady : SteadyTurn F t r) (h : Timely r) : Timely (Rounds.turn (handlers F) t r) := by
  cases t with
  | frame now =>
    exact ⟨Int.le_trans h.checked_le hsteady, fun hs => absurd hs (by simp [Rounds.turn]), h.fresh,
      h.attends⟩
  | message io m u =>
    have hclock : NotBefore r.checked
        (.message io.accepts (io.clock m.2.msg.trackerId) m.2.msg u r.now : Call D) :=
      Int.le_trans h.checked_le (hsteady _)
    exact ⟨h.checked_le, h.settled, fresh_call F hclock h.fresh,
      fun id => attends_call F id _ (h.attends id)⟩
  | updateWalkInPlace io connected => exact h
  | checkTimeouts io =>
    simp only [Rounds.turn]
    split
    next hdue =>
      exact ⟨Int.le_refl _, fun _ => by simp [milliseconds],
        fresh_checkTimeouts F hsteady r.devices, fun id => attends_call F id _ (h.attends id)⟩
    next hdue => exact ⟨h.checked_le, fun _ => Int.not_lt.mp hdue, h.fresh, h.attends⟩
  | outside f =>
    obtain ⟨c, -, hclock, rfl⟩ := hsteady
    have hchecked : NotBefore r.checked c := by
      have hle := h.checked_le
      cases c with
      | message | activate => exact Int.le_trans hle hclock
      | checkTimeouts clock => exact fun id => Int.le_trans hle (hclock id)
      | deactivate => trivial
    exact ⟨h.checked_le, h.settled, fresh_call F hchecked h.fresh,
      fun id => attends_call F id c (h.attends id)⟩

variable [FloatOrder F] [Arith F]

/-- What a step of a frame that comes to the check does to the devices. -/
theorem devices_of_check {io : Io F D Answers} {s : Provider F D (Devices D)}
    (hcheck : .checkTimeouts io.vr ∈ s.frameTurns io) :
    (s.frameStep (handlers F) io).devices = s.devices ∨
      (s.frameStep (handlers F) io).devices = s.devices.call F (.checkTimeouts io.vr.clock) := by
  have hdevices : (s.frameStep (handlers F) io).devices =
      (Rounds.turn (handlers F) (.checkTimeouts io.vr) s.rounds).devices := by
    refine (congrArg Rounds.devices (Provider.rounds_frameStep (handlers F) io s)).trans ?_
    rw [Provider.check_mem_frameTurns, Provider.atCheck] at hcheck
    unfold Provider.frameTurns
    cases hpc : s.pc with
    | offline => rfl
    | messages =>
      simp only [hpc, Option.isNone_iff_eq_none] at hcheck ⊢
      rw [hcheck]
      rfl
    | _ => simp [hpc] at hcheck
  rw [hdevices, Rounds.turn]
  split
  · exact .inr rfl
  · exact .inl rfl

/-- **A tracker that falls silent is found out in time, and no other one**, whether the app is
connected or not. From the timeout check of a frame until the next frame, an activated tracker of
which nothing was heard in the 3.2 s before the frame has been shown to SteamVR as disconnected, and
nothing was submitted for it since. The check itself does nothing to a tracker of which something
was heard in the 3 s before. -/
theorem silence_shown (universeFallback : Bool) (defaultChaperone : String)
    (es : List (Provider.Event F D (Devices D) Answers))
    (hes : Meets (Steady F) (Provider.step (handlers F)) es
      (.init init universeFallback defaultChaperone)) :
    let s := Provider.after (handlers F) init universeFallback defaultChaperone es
    (s.pc.settled = true → ∀ (id : Int32) (t : Tracker D),
      s.devices.registry.trackers[id]? = some t → t.Activated →
        ∃ h, heard id s.devices.calls = some h ∧
          (milliseconds 3200 ≤ s.now - h → Gone t (Registry.reportsOf id s.devices.reports))) ∧
      ∀ io, .checkTimeouts io.vr ∈ s.frameTurns io → ∀ (id : Int32) (h : Int),
        heard id s.devices.calls = some h → io.vr.clock id - h < seconds 3 →
          (Provider.step (handlers F) (.step io) s).devices.view id = s.devices.view id := by
  intro s
  have h : Timely s.rounds := Provider.rounds_invariant (meets_steadyTurn F) (timely_turn F)
    timely_init universeFallback defaultChaperone es hes
  constructor
  · intro hsettled id t ht ha
    obtain ⟨hd, hheard, -, hcase⟩ := h.attends id t ht ha
    refine ⟨hd, hheard, fun hsilent => ?_⟩
    rcases hcase with hlast | hgone
    · have hchecked : s.now - s.lastTimeoutCheck ≤ milliseconds 200 := h.settled hsettled
      have hfresh : s.lastTimeoutCheck - t.lastMessage < seconds 3 := h.fresh id t ht ha
      have htimes : milliseconds 200 + seconds 3 = milliseconds 3200 := by decide
      omega
    · exact hgone
  · intro io hcheck id hd hheard hrecent
    show (s.frameStep (handlers F) io).devices.view id = _
    rcases devices_of_check F hcheck with hdevices | hdevices
    · rw [hdevices]
    · rw [hdevices]
      exact view_checkTimeouts F (h.attends id) hheard hrecent

end Calls

/-! ## A tracker that falls silent -/

/-- What a frame reads where no headset is there and the clock stands. -/
def ioAt (clock : Int) : Io ℚ ℚ Answers :=
  ⟨⟨true, fun _ => clock⟩, ⟨false, false, fun _ _ => 0⟩, ⟨none, fun _ => none⟩, .failed⟩

/-- A frame. -/
def frameAt (now : Int) : List (Provider.Event ℚ ℚ (Devices ℚ) Answers) :=
  .frame now :: List.replicate 10 (.step (ioAt now))

theorem now_frameStep (io : Io ℚ ℚ Answers) (s : Provider ℚ ℚ (Devices ℚ)) :
    (s.frameStep (handlers ℚ) io).now = s.now := by
  have hstep := Provider.frameStep_cases (handlers ℚ) io s
  generalize s.frameStep (handlers ℚ) io = s' at hstep
  cases hstep <;> rfl

theorem steady_steps {now : Int} : ∀ {n : Nat} {s : Provider ℚ ℚ (Devices ℚ)}, s.now ≤ now →
    Meets (Steady ℚ) (Provider.step (handlers ℚ)) (List.replicate n (.step (ioAt now))) s := by
  intro n
  induction n with
  | zero => exact fun _ => trivial
  | succ n ih =>
    intro s hs
    exact ⟨fun _ => hs, ih ((now_frameStep (ioAt now) s).symm ▸ hs)⟩

theorem steady_frameAt {now : Int} {s : Provider ℚ ℚ (Devices ℚ)} (h : s.now ≤ now) :
    Meets (Steady ℚ) (Provider.step (handlers ℚ)) (frameAt now) s := by
  refine ⟨h, steady_steps ?_⟩
  show (s.beginFrame now).now ≤ now
  rcases Provider.beginFrame_cases now s with hb | ⟨-, -, hb⟩ | ⟨-, -, hb⟩ <;> rw [hb]
  exact h

/-- The app announces the tracker with id 3. -/
def announces : List (Provider.Event ℚ ℚ (Devices ℚ) Answers) :=
  [.net .connect, .net .publish, .net (.recv [4, 0, 0, 0, 0x12, 2, 8, 3]), .net .scan, .net .scan]

/-- SteamVR activates the tracker, the connection ends, and the next frame comes 4 s later. -/
def fallsSilent : List (Provider.Event ℚ ℚ (Devices ℚ) Answers) :=
  announces ++ frameAt 7 ++ [.outside (call ℚ (.activate 3 1 9)), .net .hangup, .net .close]
    ++ frameAt 4000000000

theorem steady_fallsSilent : Meets (Steady ℚ) (Provider.step (handlers ℚ)) fallsSilent
    (.init init true "") := by
  rw [fallsSilent, Meets.append_iff, Meets.append_iff, Meets.append_iff]
  refine ⟨⟨⟨⟨trivial, trivial, trivial, trivial, trivial, trivial⟩, ?_⟩, ?_⟩, ?_⟩
  · exact steady_frameAt (by decide +kernel)
  · have hclock : (run (Provider.step (handlers ℚ)) (announces ++ frameAt 7)
        (.init init true "")).now ≤ 9 := by decide +kernel
    exact ⟨⟨.activate 3 1 9, trivial, hclock, rfl⟩, trivial, trivial, trivial⟩
  · exact steady_frameAt (by decide +kernel)

/-- It activates the tracker, and the next frame comes 300 ms later, up to its timeout check. -/
def heardInTime : List (Provider.Event ℚ ℚ (Devices ℚ) Answers) :=
  announces ++ frameAt 7 ++ [.outside (call ℚ (.activate 3 1 9)), .frame 300000000]
    ++ List.replicate 2 (.step (ioAt 300000000))

theorem steady_heardInTime : Meets (Steady ℚ) (Provider.step (handlers ℚ)) heardInTime
    (.init init true "") := by
  rw [heardInTime, Meets.append_iff, Meets.append_iff, Meets.append_iff]
  refine ⟨⟨⟨⟨trivial, trivial, trivial, trivial, trivial, trivial⟩, ?_⟩, ?_⟩, ?_⟩
  · exact steady_frameAt (by decide +kernel)
  · have hclock : (run (Provider.step (handlers ℚ)) (announces ++ frameAt 7)
        (.init init true "")).now ≤ 9 := by decide +kernel
    exact ⟨⟨.activate 3 1 9, trivial, hclock, rfl⟩, Int.le_trans hclock (by decide), trivial⟩
  · exact steady_steps (by decide +kernel)

theorem silence_shown_fallsSilent :
    (let s := Provider.after (handlers ℚ) init true "" fallsSilent
    (s.devices.registry.trackers[(3 : Int32)]?.map Tracker.index) = some 1 ∧
      ∀ t, s.devices.registry.trackers[(3 : Int32)]? = some t → t.Activated →
        Gone t (Registry.reportsOf 3 s.devices.reports)) ∧
    (let s := Provider.after (handlers ℚ) init true "" heardInTime
    milliseconds 200 < s.now - s.lastTimeoutCheck ∧ heard 3 s.devices.calls = some 9 ∧
      (Provider.step (handlers ℚ) (.step (ioAt 300000000)) s).devices.view 3 =
        s.devices.view 3) := by
  constructor
  · refine ⟨by decide +kernel, fun t ht ha => ?_⟩
    obtain ⟨h, hheard, hgone⟩ := (silence_shown ℚ true "" fallsSilent steady_fallsSilent).1
      (by decide +kernel) 3 t ht ha
    have hnine : heard 3 (Provider.after (handlers ℚ) init true "" fallsSilent).devices.calls
        = some 9 := by decide +kernel
    rw [hnine] at hheard
    obtain rfl := Option.some.inj hheard
    exact hgone (by decide +kernel)
  · have hheard : heard 3 (Provider.after (handlers ℚ) init true "" heardInTime).devices.calls
        = some 9 := by decide +kernel
    refine ⟨by decide +kernel, hheard, ?_⟩
    exact (silence_shown ℚ true "" heardInTime steady_heardInTime).2 (ioAt 300000000)
      (Provider.check_mem_frameTurns.mpr (by decide +kernel)) 3 9 hheard (by decide)

end Devices

end Rebocap.Driver
