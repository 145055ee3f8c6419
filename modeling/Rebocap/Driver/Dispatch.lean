import Rebocap.Driver.Delivery
import Rebocap.Driver.Registry
import Rebocap.Driver.Rounds
import Rebocap.Lib.RatScalar

/-!
# Trackers under `RunFrame`

The registry as the devices of the driver, with all calls on it and all that they report. SteamVR
activates and deactivates a tracker at any time.

* `Devices.isolated` — a tracker in the driver is as if it were alone
* `Devices.added_once` — a device is added once, and never given up
-/

namespace Rebocap.Driver

open Lib FloatOrder Arith FloatConv FloatBits Proto Net

variable {F D : Type}

/-! ## The devices -/

/-- What SteamVR answers to `TrackedDeviceAdded`, and what the clock says in the call of a
tracker. -/
structure Answers where
  accepts : Bool
  clock : Int32 → Int

/-- The registry, the calls on it so far, and what they have reported. -/
structure Devices (D : Type) where
  registry : Registry D
  calls : List (Call D)
  reports : List (Report D)

namespace Devices

def init : Devices D where
  registry := .empty
  calls := []
  reports := []

section Calls

variable (F) [FloatBits F 32] [FloatConv F D] [FloatBits D 64] [FloatOrder D] [Arith D]

def call (c : Call D) (d : Devices D) : Devices D where
  registry := (d.registry.call F c).1
  calls := d.calls ++ [c]
  reports := d.reports ++ (d.registry.call F c).2

/-- The calls of `RunFrame`. Walk-in-place reads the trackers only. -/
def handlers : Handlers D (Devices D) Answers where
  onMessage io m u now d := d.call F (.message io.accepts (io.clock m.trackerId) m u now)
  checkTimeouts io d := d.call F (.checkTimeouts io.clock)
  updateWalkInPlace _ _ _ d := d

end Calls

/-- What SteamVR does. -/
def ofSteamVr : Call D → Prop
  | .activate .. | .deactivate _ => True
  | _ => False

/-! ## One tracker -/

/-- What is left of the tracker with an id, and all that was reported of it. -/
def view (id : Int32) (d : Devices D) : Option (Tracker D) × List (Output D) :=
  (d.registry.trackers[id]?, Registry.reportsOf id d.reports)

/-- The call has to do with the tracker. -/
def Concerns [Zero D] [One D] (id : Int32) (c : Call D) : Bool :=
  (c.event id).isSome || (c.newTracker id).isSome

/-- The message of a call. -/
def msg? : Call D → Option Msg
  | .message _ _ m _ _ => some m
  | _ => none

section Calls

variable (F) [FloatBits F 32] [FloatConv F D] [FloatBits D 64] [FloatOrder D] [Arith D]

/-- A tracker alone, with all that it has reported. -/
def alone (id : Int32) (c : Call D) (p : Option (Tracker D) × List (Output D)) :
    Option (Tracker D) × List (Output D) :=
  ((lone F id c p.1).1, p.2 ++ (lone F id c p.1).2)

theorem view_call (id : Int32) (c : Call D) (d : Devices D) :
    (d.call F c).view id = alone F id c (d.view id) := by
  have hseen := Registry.seen_call F c d.registry id
  simp only [Registry.seen, Prod.ext_iff] at hseen
  refine Prod.ext hseen.1 ?_
  show Registry.reportsOf id (d.reports ++ _) = _
  rw [Registry.reportsOf_append, hseen.2]
  rfl

theorem view_run (id : Int32) : ∀ (cs : List (Call D)) (d : Devices D),
    (run (call F) cs d).view id = run (alone F id) cs (d.view id) := by
  intro cs
  induction cs with
  | nil => exact fun _ => rfl
  | cons c cs ih =>
    intro d
    rw [run_cons, ih, view_call, run_cons]

/-- The calls for other trackers make no difference. -/
theorem run_alone_filter (id : Int32) : ∀ (cs : List (Call D))
    (p : Option (Tracker D) × List (Output D)),
    run (alone F id) cs p = run (alone F id) (cs.filter (Concerns id)) p := by
  intro cs
  induction cs with
  | nil => exact fun _ => rfl
  | cons c cs ih =>
    intro p
    by_cases hc : Concerns id c = true
    · rw [List.filter_cons_of_pos hc, run_cons, run_cons, ih]
    · have hnone : c.newTracker id = none ∧ c.event id = none := by
        simpa [Concerns, and_comm] using hc
      rw [List.filter_cons_of_neg hc, run_cons, ih, alone,
        Registry.lone_of_none F hnone.1 hnone.2, List.append_nil]

/-! ## The driver -/

/-- SteamVR calls a tracker. -/
def Outside (f : Devices D → Devices D) : Prop := ∃ c, ofSteamVr c ∧ f = call F c

/-- The devices are what their calls make of them, and the messages among these were handled. -/
structure Replayed (r : Rounds (Devices D)) : Prop where
  devices : r.devices = run (call F) r.devices.calls init
  messages : r.devices.calls.filterMap msg? = r.handled.map fun p => p.2.msg

theorem replayed_init : Replayed F (.init (init : Devices D)) := ⟨rfl, rfl⟩

/-- A call that is not for a message. -/
theorem replayed_call {r r' : Rounds (Devices D)} {c : Call D} (hc : msg? c = none)
    (hdevices : r'.devices = r.devices.call F c) (hhandled : r'.handled = r.handled)
    (h : Replayed F r) : Replayed F r' where
  devices := by
    rw [hdevices, call, run_append, ← h.devices]
    rfl
  messages := by
    rw [hdevices, call, List.filterMap_append, h.messages, hhandled]
    simp [hc]

theorem replayed_turn (t : Turn D (Devices D) Answers) (r : Rounds (Devices D))
    (hallowed : Provider.OutsideTurn (Outside F) t) (h : Replayed F r) :
    Replayed F (Rounds.turn (handlers F) t r) := by
  cases t with
  | frame now => exact ⟨h.devices, h.messages⟩
  | message io m u =>
    refine ⟨?_, ?_⟩
    · show r.devices.call F _ = run (call F) (r.devices.calls ++ [_]) init
      rw [run_append, ← h.devices]
      rfl
    · show (r.devices.calls ++ [_]).filterMap msg? = (r.handled ++ [m]).map _
      rw [List.filterMap_append, h.messages, List.map_append]
      rfl
  | updateWalkInPlace io connected => exact ⟨h.devices, h.messages⟩
  | checkTimeouts io =>
    simp only [Rounds.turn]
    split
    · exact replayed_call F (c := .checkTimeouts io.clock) rfl rfl rfl h
    · exact ⟨h.devices, h.messages⟩
  | outside f =>
    obtain ⟨c, hc, rfl⟩ := hallowed
    refine replayed_call F (c := c) ?_ rfl rfl h
    cases c with
    | message => exact absurd hc id
    | checkTimeouts | activate | deactivate => rfl

section Driver

variable [FloatOrder F] [Arith F]

theorem replayed (universeFallback : Bool) (defaultChaperone : String)
    (es : List (Provider.Event F D (Devices D) Answers))
    (hes : ∀ e ∈ es, Provider.Outside (Outside F) e) :
    Replayed F
      (Provider.after (handlers F) init universeFallback defaultChaperone es).rounds :=
  Provider.rounds_invariant (fun _ s he => Provider.meets_outsideTurn he (handlers F) s)
    (replayed_turn F) (replayed_init F) universeFallback defaultChaperone es
    (Meets.of_forall es hes)

/-- What every call keeps holds in every state of the driver. -/
theorem devices_after {P : Devices D → Prop} (hcall : ∀ c d, P d → P (d.call F c)) (hinit : P init)
    (universeFallback : Bool) (defaultChaperone : String)
    (es : List (Provider.Event F D (Devices D) Answers))
    (hes : ∀ e ∈ es, Provider.Outside (Outside F) e) :
    P (Provider.after (handlers F) init universeFallback defaultChaperone es).devices := by
  have hdevices := (replayed F universeFallback defaultChaperone es hes).devices
  simp only [Provider.rounds] at hdevices
  rw [hdevices]
  exact run_invariant hcall _ hinit

/-- The messages handled of a connection are first among those of its stream. -/
theorem handled_prefix {δ ι : Type} (h : Handlers D δ ι) (devices : δ) (universeFallback : Bool)
    (defaultChaperone : String) (es : List (Provider.Event F D δ ι)) (g : Nat) :
    let s := Provider.after h devices universeFallback defaultChaperone es
    onConn g (s.handled.map Prod.snd) <+: messagesOf (s.client.stream g) := by
  intro s
  have hd := (Provider.delivering_after h devices universeFallback defaultChaperone es).exact g
  rw [Provider.delivered, onConn_append, onConn_append, List.append_assoc, List.append_assoc] at hd
  exact ⟨_, hd⟩

end Driver

end Calls

/-! ## Devices that are added -/

/-- The offers to SteamVR, with its answers. -/
def offers (reports : List (Report D)) : List (String × Bool) :=
  reports.filterMap fun
    | .deviceAdded s accepted => some (s, accepted)
    | _ => none

/-- The answers to the offers of a tracker. -/
def offersOf (id : Int32) (reports : List (Report D)) : List Bool :=
  (offers reports).filterMap fun p => if p.1 = serial id then some p.2 else none

/-- The answers there would be if the tracker were offered with each `tracker_added`. -/
def answers (id : Int32) (calls : List (Call D)) : List Bool :=
  calls.filterMap fun
    | .message accepts _ m _ _ =>
      if m.kind = .trackerAdded ∧ m.trackerId = id then some accepts else none
    | _ => none

/-- Up to the first that is true. -/
def untilAccepted : List Bool → List Bool
  | [] => []
  | true :: _ => [true]
  | false :: l => false :: untilAccepted l

theorem untilAccepted_append : ∀ (l : List Bool) (b : Bool),
    untilAccepted (l ++ [b]) = if true ∈ l then untilAccepted l else untilAccepted l ++ [b] := by
  intro l b
  induction l with
  | nil => cases b <;> rfl
  | cons a l ih =>
    cases a with
    | true => simp [untilAccepted]
    | false =>
      rw [List.cons_append, untilAccepted, ih, untilAccepted]
      by_cases hl : true ∈ l <;> simp [hl]

theorem offersOf_append (id : Int32) (rs rs' : List (Report D)) :
    offersOf id (rs ++ rs') = offersOf id rs ++ offersOf id rs' := by
  simp [offersOf, offers]

theorem offersOf_tracker (id id' : Int32) (out : List (Output D)) :
    offersOf id (out.map (.tracker id')) = [] := by
  simp [offersOf, offers, List.filterMap_map]

theorem offersOf_withTracker (id id' : Int32) (f : Tracker D → Tracker D × List (Output D))
    {otherwise : Registry D × List (Report D)} (h : offersOf id otherwise.2 = [])
    (r : Registry D) : offersOf id (r.withTracker id' f otherwise).2 = [] := by
  unfold Registry.withTracker
  split
  · exact offersOf_tracker id id' _
  · exact h

theorem offersOf_noteUnknownId (id id' : Int32) (now : Int) (r : Registry D) :
    offersOf id (r.noteUnknownId id' now).2 = [] := by
  unfold Registry.noteUnknownId
  split
  · rfl
  · dsimp only
    split <;> rfl

/-- The tracker that the first accepted `tracker_added` of an id makes. -/
def born [Zero D] [One D] (id : Int32) (calls : List (Call D)) : Option (Tracker D) :=
  calls.findSome? (Call.newTracker id)

/-- The same tracker, and the calls after that. -/
def birth [Zero D] [One D] (id : Int32) : List (Call D) → Option (Tracker D × List (Call D))
  | [] => none
  | c :: cs =>
    match c.newTracker id with
    | some t => some (t, cs)
    | none => birth id cs

theorem birth_append [Zero D] [One D] (id : Int32) (c : Call D) : ∀ cs : List (Call D),
    birth id (cs ++ [c]) = match birth id cs with
      | some (t, after) => some (t, after ++ [c])
      | none => (c.newTracker id).map fun t => (t, []) := by
  intro cs
  induction cs with
  | nil => cases hc : c.newTracker id <;> simp [birth, hc]
  | cons c' cs ih =>
    rw [List.cons_append, birth, birth]
    cases c'.newTracker id with
    | some t => rfl
    | none => exact ih

theorem answers_append (id : Int32) (cs cs' : List (Call D)) :
    answers id (cs ++ cs') = answers id cs ++ answers id cs' :=
  List.filterMap_append

theorem newTracker_isSome [Zero D] [One D] (id : Int32) (c : Call D) :
    (c.newTracker id).isSome ↔ true ∈ answers id [c] := by
  cases c with
  | message accepts clock m u now =>
    by_cases hm : m.kind = .trackerAdded ∧ m.trackerId = id
    · cases accepts <;> simp [Call.newTracker, answers, hm]
    · have hm' : ¬(m.trackerId = id ∧ m.kind = .trackerAdded) := fun h => hm h.symm
      cases accepts <;> simp [Call.newTracker, answers, hm, hm']
  | checkTimeouts | activate | deactivate => simp [Call.newTracker, answers]

section Calls

variable (F) [FloatBits F 32] [FloatConv F D] [FloatBits D 64] [FloatOrder D] [Arith D]

theorem offersOf_onMessage (id : Int32) (accepts : Bool) (clock : Int) (m : Msg)
    (u : Option (Universe D)) (now : Int) (r : Registry D) :
    offersOf id (r.onMessage F accepts clock m u now).2 =
      if m.kind = .trackerAdded ∧ m.trackerId = id ∧ r.trackers[id]? = none then [accepts]
      else [] := by
  unfold Registry.onMessage
  cases hkind : m.kind with
  | trackerAdded =>
    dsimp only
    unfold Registry.addTracker
    split
    next t ht =>
      rw [if_neg]
      · rfl
      · rintro ⟨-, rfl, hnone⟩
        rw [ht] at hnone
        cases hnone
    next hnone =>
      by_cases hid : m.trackerId = id
      · subst hid
        cases accepts <;> simp [offersOf, offers, hnone]
      · have hserial : serial m.trackerId ≠ serial id := fun h => hid (serial_injective h)
        cases accepts <;> simp [offersOf, offers, hid, hserial]
  | position =>
    simp only [reduceCtorEq, false_and, if_false]
    split
    · rfl
    · exact offersOf_withTracker _ _ _ (offersOf_noteUnknownId _ _ _ _) r
  | trackerStatus =>
    simp only [reduceCtorEq, false_and, if_false]
    exact offersOf_withTracker _ _ _ rfl r
  | none | universeChange | pathFailed | wipInfo | wipSetting | wipFuncStateChange =>
    simp only [reduceCtorEq, false_and, if_false]
    rfl

/-- What a call offers, for the tracker with an id. -/
theorem offersOf_call (id : Int32) (c : Call D) (r : Registry D) :
    offersOf id (r.call F c).2 = if r.trackers[id]? = none then answers id [c] else [] := by
  cases c with
  | message accepts clock m u now =>
    rw [Registry.call, offersOf_onMessage]
    by_cases hm : m.kind = .trackerAdded ∧ m.trackerId = id
    · cases ht : r.trackers[id]? <;> simp [answers, hm]
    · rw [if_neg fun h => hm ⟨h.1, h.2.1⟩]
      simp [answers, hm]
  | checkTimeouts clock =>
    have hnone : offersOf id (r.checkTimeouts clock).2 = [] := by
      unfold Registry.checkTimeouts
      induction r.trackers.toList with
      | nil => rfl
      | cons p l ih => rw [List.flatMap_cons, offersOf_append, ih, offersOf_tracker]; rfl
    rw [Registry.call, hnone]
    simp [answers]
  | activate | deactivate =>
    rw [Registry.call, offersOf_withTracker _ _ _ rfl]
    simp [answers]

/-! ### In a run -/

/-- What the calls after its birth make of a tracker, and what it has reported in them. -/
def grown (id : Int32) :
    Option (Tracker D × List (Call D)) → Option (Tracker D) × List (Output D)
  | none => (none, [])
  | some (t, after) => run (alone F id) after (some t, [])

/-- What is offered, and what comes of it. -/
structure AddedOnce (id : Int32) (d : Devices D) : Prop where
  /-- The tracker is offered with each `tracker_added` up to the first that is accepted. -/
  offered : offersOf id d.reports = untilAccepted (answers id d.calls)
  registered : (d.registry.trackers[id]?).isSome ↔ true ∈ answers id d.calls
  role : (d.registry.trackers[id]?).map Tracker.role = (born id d.calls).map Tracker.role
  /-- It is made then and not again: what is there is what the later calls have made of it. -/
  evolved : d.view id = grown F id (birth id d.calls)

theorem addedOnce_init (id : Int32) : AddedOnce F id (init : Devices D) := by
  refine ⟨rfl, ?_, ?_, ?_⟩
  · simp [init, Registry.empty, answers]
  · simp [init, Registry.empty, born]
  · exact Prod.ext Std.TreeMap.getElem?_emptyc rfl

theorem role_lone (id : Int32) (c : Call D) (t : Tracker D) :
    ((lone F id c (some t)).1).map Tracker.role = some t.role := by
  simp only [lone]
  split
  next now e _ =>
    cases e with
    | wait | activate | deactivate => rfl
    | position m u =>
      by_cases ha : t.Activated
      · rw [Tracker.react_position F m u ha]
        rfl
      · rw [Tracker.react, Tracker.onPosition, if_pos ha]
        rfl
    | status m =>
      by_cases ha : t.Activated
      · rw [Tracker.react, Tracker.onStatus, if_neg (not_not.mpr ha)]
        dsimp only
        split <;> rfl
      · rw [Tracker.react, Tracker.onStatus, if_pos ha]
        rfl
    | checkTimeout =>
      rw [Tracker.react, Tracker.checkTimeout]
      split <;> rfl
  next => rfl

theorem view_fst_call (id : Int32) (c : Call D) (d : Devices D) :
    (d.call F c).registry.trackers[id]? = (lone F id c d.registry.trackers[id]?).1 :=
  congrArg Prod.fst (view_call F id c d)

theorem isSome_lone (id : Int32) (c : Call D) (t : Option (Tracker D)) :
    (lone F id c t).1.isSome ↔ t.isSome ∨ true ∈ answers id [c] := by
  cases t with
  | none => simpa [lone] using newTracker_isSome id c
  | some t =>
    simp only [lone]
    split <;> simp

/-- A call after the birth of a tracker, or the one that it is born in. -/
theorem alone_grown (id : Int32) (c : Call D) (cs : List (Call D)) :
    alone F id c (grown F id (birth id cs)) = grown F id (birth id (cs ++ [c])) := by
  rw [birth_append]
  cases birth id cs with
  | none =>
    cases hc : c.newTracker id <;> simp [grown, alone, lone, hc]
  | some b =>
    show _ = run (alone F id) (b.2 ++ [c]) (some b.1, [])
    rw [run_append]
    rfl

theorem addedOnce_call (id : Int32) (c : Call D) {d : Devices D} (h : AddedOnce F id d) :
    AddedOnce F id (d.call F c) where
  offered := by
    show offersOf id (d.reports ++ _) = untilAccepted (answers id (d.calls ++ [c]))
    rw [offersOf_append, h.offered, offersOf_call, answers_append]
    have hone : answers id [c] = [] ∨ ∃ b, answers id [c] = [b] := by
      unfold answers
      rw [List.filterMap_cons]
      split
      · exact .inl rfl
      · exact .inr ⟨_, rfl⟩
    obtain hnone | ⟨b, hb⟩ := hone
    · rw [hnone]
      simp
    · rw [hb, untilAccepted_append]
      have hregistered := h.registered
      cases ht : d.registry.trackers[id]? with
      | none =>
        rw [ht] at hregistered
        rw [if_pos rfl, if_neg fun hmem => absurd (hregistered.mpr hmem) (by simp)]
      | some t =>
        rw [ht] at hregistered
        rw [if_neg (by simp), if_pos (hregistered.mp rfl), List.append_nil]
  registered := by
    show _ ↔ true ∈ answers id (d.calls ++ [c])
    rw [view_fst_call, isSome_lone, h.registered, answers_append, List.mem_append]
  role := by
    have hborn : born id (d.calls ++ [c]) = (born id d.calls).or (c.newTracker id) := by
      rw [born, List.findSome?_append]
      simp [born]
    show _ = (born id (d.calls ++ [c])).map _
    have hrole := h.role
    rw [view_fst_call, hborn]
    cases ht : d.registry.trackers[id]? with
    | none =>
      rw [ht, Option.map_none, eq_comm, Option.map_eq_none_iff] at hrole
      rw [hrole, Option.none_or]
      rfl
    | some t =>
      rw [ht, Option.map_some, eq_comm, Option.map_eq_some_iff] at hrole
      obtain ⟨t₀, ht₀, hrole⟩ := hrole
      rw [ht₀, role_lone, Option.some_or, Option.map_some, hrole]
  evolved := by
    show _ = grown F id (birth id (d.calls ++ [c]))
    rw [view_call, h.evolved, alone_grown]

variable [FloatOrder F] [Arith F]

/-- **A tracker in the driver is as if it were alone**: in every run it is what the calls that
concern it make of it, and what is reported of it is what it reports of itself. It is offered to
SteamVR as its own `tracker_added` alone say. The messages among the calls are those handled, which
for each connection come first among those of its stream. -/
theorem isolated (universeFallback : Bool) (defaultChaperone : String)
    (es : List (Provider.Event F D (Devices D) Answers))
    (hes : ∀ e ∈ es, Provider.Outside (Outside F) e) :
    let s := Provider.after (handlers F) init universeFallback defaultChaperone es
    (∀ id, s.devices.view id
      = run (alone F id) (s.devices.calls.filter (Concerns id)) (none, [])) ∧
      (∀ id, offersOf id s.devices.reports = untilAccepted (answers id s.devices.calls)) ∧
      s.devices.calls.filterMap msg? = s.handled.map (fun p => p.2.msg) ∧
      ∀ g, onConn g (s.handled.map Prod.snd) <+: messagesOf (s.client.stream g) := by
  intro s
  have hreplayed := replayed F universeFallback defaultChaperone es hes
  refine ⟨fun id => ?_, fun id => ?_, hreplayed.messages,
    handled_prefix F (handlers F) init universeFallback defaultChaperone es⟩
  · have hdevices : s.devices = run (call F) s.devices.calls init := hreplayed.devices
    have hview := view_run F id s.devices.calls init
    rw [← hdevices] at hview
    rw [hview, run_alone_filter]
    rfl
  · have hadded : AddedOnce F id s.devices :=
      devices_after F (fun c _ h => addedOnce_call F id c h) (addedOnce_init F id)
        universeFallback defaultChaperone es hes
    exact hadded.offered

/-- **A device is added once, and never given up.** In every run the driver offers a tracker to
SteamVR with each `tracker_added` of its id up to the first that SteamVR accepts, and never after
that. From then on the tracker is there, with the role of that message, and is what the calls since
have made of it. -/
theorem added_once (universeFallback : Bool) (defaultChaperone : String)
    (es : List (Provider.Event F D (Devices D) Answers))
    (hes : ∀ e ∈ es, Provider.Outside (Outside F) e) (id : Int32) :
    AddedOnce F id
      (Provider.after (handlers F) init universeFallback defaultChaperone es).devices :=
  devices_after F (fun c _ h => addedOnce_call F id c h) (addedOnce_init F id) universeFallback
    defaultChaperone es hes

end Calls

/-! ## Two trackers -/

/-- What a frame reads where no headset is there. -/
def answering (accepts : Bool) : Io ℚ ℚ Answers :=
  ⟨⟨accepts, fun _ => 9⟩, ⟨false, false, fun _ _ => 0⟩, ⟨none, fun _ => none⟩, .failed⟩

/-- The app announces the trackers with the ids 3 and 5, the first of them three times, and sends a
status of the second and a position of the first. -/
def announcements : Bytes :=
  [[4, 0, 0, 0, 0x12, 2, 8, 3], [4, 0, 0, 0, 0x12, 2, 8, 5], [4, 0, 0, 0, 0x12, 2, 8, 3],
    [6, 0, 0, 0, 0x1a, 4, 8, 5, 0x10, 1], [4, 0, 0, 0, 0x12, 2, 8, 3],
    [4, 0, 0, 0, 0x0a, 2, 8, 3]].flatten

/-- The frame goes on. -/
def goesOn (accepts : Bool) (n : Nat) : List (Provider.Event ℚ ℚ (Devices ℚ) Answers) :=
  List.replicate n (.step (answering accepts))

theorem outside_goesOn {accepts : Bool} {n : Nat} :
    ∀ e ∈ goesOn accepts n, Provider.Outside (Outside ℚ) e := by
  intro e he
  rw [List.eq_of_mem_replicate he]
  trivial

/-- The messages arrive, and a frame begins. -/
def arrives : List (Provider.Event ℚ ℚ (Devices ℚ) Answers) :=
  [.net .connect, .net .publish, .net (.recv announcements), .net .scan, .net .scan, .net .scan,
    .net .scan, .net .scan, .net .scan, .frame 7]

/-- SteamVR activates both trackers. -/
def activates : List (Provider.Event ℚ ℚ (Devices ℚ) Answers) :=
  [.outside (call ℚ (.activate 5 2 9)), .outside (call ℚ (.activate 3 1 9))]

/-- SteamVR rejects the first announcement, and activates the trackers while the frame handles the
messages. -/
def twoTrackers : List (Provider.Event ℚ ℚ (Devices ℚ) Answers) :=
  arrives ++ goesOn true 3 ++ goesOn false 1 ++ goesOn true 2 ++ activates ++ goesOn true 3

theorem outside_twoTrackers : ∀ e ∈ twoTrackers, Provider.Outside (Outside ℚ) e := by
  have harrives : ∀ e ∈ arrives, Provider.Outside (Outside ℚ) e := by
    simp [arrives, Provider.Outside]
  have hactivates : ∀ e ∈ activates, Provider.Outside (Outside ℚ) e := by
    simp only [activates, List.forall_mem_cons, List.not_mem_nil, false_implies, implies_true,
      and_true]
    exact ⟨⟨.activate 5 2 9, trivial, rfl⟩, ⟨.activate 3 1 9, trivial, rfl⟩⟩
  simp only [twoTrackers, List.forall_mem_append]
  exact ⟨⟨⟨⟨⟨harrives, outside_goesOn⟩, outside_goesOn⟩, outside_goesOn⟩, hactivates⟩,
    outside_goesOn⟩

theorem isolated_twoTrackers :
    let s := Provider.after (handlers ℚ) init true "" twoTrackers
    s.devices.registry.trackers.keys = [3, 5] ∧
      ((s.devices.view 3).2.length = 1 ∧ (s.devices.view 5).2.length = 1) ∧
      (∀ id, s.devices.view id
        = run (alone ℚ id) (s.devices.calls.filter (Concerns id)) (none, [])) ∧
      (∀ id, offersOf id s.devices.reports = untilAccepted (answers id s.devices.calls)) ∧
      s.devices.calls.filterMap msg? = s.handled.map (fun p => p.2.msg) ∧
      ∀ g, onConn g (s.handled.map Prod.snd) <+: messagesOf (s.client.stream g) :=
  ⟨by decide +kernel, by decide +kernel, isolated ℚ true "" twoTrackers outside_twoTrackers⟩

theorem added_once_twoTrackers :
    let d := (Provider.after (handlers ℚ) init true "" twoTrackers).devices
    answers 3 d.calls = [false, true, true] ∧ offersOf 3 d.reports = [false, true] ∧
      AddedOnce ℚ 3 d :=
  ⟨by decide +kernel, by decide +kernel, added_once ℚ true "" twoTrackers outside_twoTrackers 3⟩

end Devices

end Rebocap.Driver
