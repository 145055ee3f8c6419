import Mathlib
import Rebocap.Driver.Tracker

/-!
# `trackers_` and `unknown_ids_`

The trackers that the app has announced, by id, and the ids that send positions without having been
announced. A call says what it does to SteamVR and to the log, in order.

* `Registry.seen_call` — what a call does to one tracker and reports of it, as if it were alone
-/

namespace Rebocap.Driver

open Lib FloatOrder Arith FloatConv FloatBits Proto

variable {F D : Type}

/-! ## Data -/

/-- `serial_` of a tracker. -/
def serial (id : Int32) : String := "rebo_id_" ++ id.toInt.repr

theorem serial_injective {a b : Int32} (h : serial a = serial b) : a = b := by
  have hrepr : a.toInt.repr = b.toInt.repr := by
    simpa [serial, String.append_right_inj] using h
  exact Int32.toInt_inj.mp (Int.repr_injective hrepr)

/-- A line of the log. The name in it is as the app sent it. -/
inductive LogLine where
  /-- "SteamVR rejected tracker " and the serial. -/
  | rejected (serial : String)
  /-- "added tracker ", the serial, the name and the role. -/
  | added (serial : String) (name : Bytes) (role : Int32)
  /-- "ignoring positions for tracker id ", which has not yet been announced. -/
  | unannounced (id : Int32)
deriving DecidableEq

/-- What a call does outside the driver. -/
inductive Report (D : Type) where
  | log (line : LogLine)
  /-- `TrackedDeviceAdded`, and what SteamVR answers. -/
  | deviceAdded (serial : String) (accepted : Bool)
  /-- A call on the tracker with an id. -/
  | tracker (id : Int32) (o : Output D)

/-- The fields of `Provider` that hold what is known of the app's trackers. -/
structure Registry (D : Type) where
  trackers : Std.TreeMap Int32 (Tracker D)
  /-- First seen, already reported. -/
  unknownIds : Std.TreeMap Int32 (Int × Bool)

/-- What happens to the trackers. A clock is what `Clock::now()` returns in the call. -/
inductive Call (D : Type) where
  /-- A message of `inbox_`, with SteamVR's answer if a device is added. -/
  | message (accepts : Bool) (clock : Int) (m : Msg) (u : Option (Universe D)) (now : Int)
  /-- `CheckTimeout` of every tracker. -/
  | checkTimeouts (clock : Int32 → Int)
  | activate (id : Int32) (index : UInt32) (clock : Int)
  | deactivate (id : Int32)

namespace Registry

def empty : Registry D where
  trackers := ∅
  unknownIds := ∅

/-! ## Calls -/

section Calls

variable [Zero D] [One D]

def addTracker (accepts : Bool) (clock : Int) (m : Msg) (r : Registry D) :
    Registry D × List (Report D) :=
  match r.trackers[m.trackerId]? with
  | some _ => (r, []) -- the app repeats tracker_added every 5 s
  | none =>
    let tracker := Tracker.init m.role clock
    let s := serial m.trackerId
    if accepts then
      ({ r with trackers := r.trackers.insert m.trackerId tracker },
        [.deviceAdded s true, .log (.added s m.name m.role)])
    else (r, [.deviceAdded s false, .log (.rejected s)])

end Calls

def noteUnknownId (id : Int32) (now : Int) (r : Registry D) : Registry D × List (Report D) :=
  if r.unknownIds.size ≥ 32 ∧ id ∉ r.unknownIds then (r, [])
  else
    let ids := r.unknownIds.insertIfNew id (now, false)
    let entry := ids.getD id (now, false)
    if entry.2 ∨ now - entry.1 < seconds 10 then ({ r with unknownIds := ids }, [])
    else
      ({ r with unknownIds := ids.insert id (entry.1, true) }, [.log (.unannounced id)])

/-- A call on the tracker with an id, or `otherwise` if there is none. -/
def withTracker (id : Int32) (f : Tracker D → Tracker D × List (Output D))
    (otherwise : Registry D × List (Report D)) (r : Registry D) : Registry D × List (Report D) :=
  match r.trackers[id]? with
  | some t =>
    let (t, out) := f t
    ({ r with trackers := r.trackers.insert id t }, out.map (.tracker id))
  | none => otherwise

/-- The loop over `trackers_`. -/
def checkTimeouts (clock : Int32 → Int) (r : Registry D) : Registry D × List (Report D) :=
  ({ r with trackers := r.trackers.map fun id t => (t.checkTimeout (clock id)).1 },
    r.trackers.toList.flatMap fun (id, t) => (t.checkTimeout (clock id)).2.map (.tracker id))

/-- The ids of hand poses. -/
def IsHand (id : Int32) : Prop := id = 16 ∨ id = 17

instance (id : Int32) : Decidable (IsHand id) := inferInstanceAs (Decidable (_ ∨ _))

section React

variable (F) [FloatBits F 32] [FloatConv F D] [FloatBits D 64] [FloatOrder D] [Arith D]

/-- The switch of `RunFrame`. Hand poses and walk-in-place have no part in the trackers. -/
def onMessage (accepts : Bool) (clock : Int) (m : Msg) (u : Option (Universe D)) (now : Int)
    (r : Registry D) : Registry D × List (Report D) :=
  match m.kind with
  | .trackerAdded => r.addTracker accepts clock m
  | .position =>
    if IsHand m.trackerId then (r, [])
    else r.withTracker m.trackerId (fun t => t.onPosition F m u clock)
      (r.noteUnknownId m.trackerId now)
  | .trackerStatus => r.withTracker m.trackerId (fun t => t.onStatus m clock) (r, [])
  | _ => (r, [])

def call (c : Call D) (r : Registry D) : Registry D × List (Report D) :=
  match c with
  | .message accepts clock m u now => r.onMessage F accepts clock m u now
  | .checkTimeouts clock => r.checkTimeouts clock
  | .activate id index clock => r.withTracker id (fun t => (t.activate index clock, [])) (r, [])
  | .deactivate id => r.withTracker id (fun t => (t.deactivate, [])) (r, [])

end React

end Registry

/-! ## One tracker alone -/

/-- What a call is for the tracker with an id, and what the clock says in it. -/
def Call.event (id : Int32) : Call D → Option (Int × Tracker.Event D)
  | .message _ clock m u _ =>
    if m.trackerId ≠ id then none
    else
      match m.kind with
      | .position => if Registry.IsHand id then none else some (clock, .position m u)
      | .trackerStatus => some (clock, .status m)
      | _ => none
  | .checkTimeouts clock => some (clock id, .checkTimeout)
  | .activate id' index clock => if id' = id then some (clock, .activate index) else none
  | .deactivate id' => if id' = id then some (0, .deactivate) else none

/-- What a call is for an id that has no tracker. -/
def Call.newTracker [Zero D] [One D] (id : Int32) : Call D → Option (Tracker D)
  | .message true clock m _ _ =>
    if m.trackerId = id ∧ m.kind = .trackerAdded then some (.init m.role clock) else none
  | _ => none

section React

variable (F) [FloatBits F 32] [FloatConv F D] [FloatBits D 64] [FloatOrder D] [Arith D]

/-- A tracker that is the only one: it is added once, and then takes the calls that concern it. -/
def lone (id : Int32) (c : Call D) : Option (Tracker D) → Option (Tracker D) × List (Output D)
  | none => (c.newTracker id, [])
  | some t =>
    match c.event id with
    | some (now, e) => ((Tracker.react F now e t).1, (Tracker.react F now e t).2)
    | none => (t, [])

end React

namespace Registry

/-- The reports on the tracker with an id. -/
def reportsOf (id : Int32) (reports : List (Report D)) : List (Output D) :=
  reports.filterMap fun
    | .tracker id' o => if id' = id then some o else none
    | _ => none

theorem reportsOf_append (id : Int32) (rs rs' : List (Report D)) :
    reportsOf id (rs ++ rs') = reportsOf id rs ++ reportsOf id rs' :=
  List.filterMap_append

theorem reportsOf_tracker (id id' : Int32) (out : List (Output D)) :
    reportsOf id (out.map (.tracker id')) = if id' = id then out else [] := by
  induction out with
  | nil => simp [reportsOf]
  | cons o out ih =>
    rw [List.map_cons, ← List.singleton_append, reportsOf_append, ih]
    by_cases h : id' = id <;> simp [reportsOf, h]

/-- What a call leaves of the tracker with an id, and what it reports of it. -/
def seen (id : Int32) (p : Registry D × List (Report D)) : Option (Tracker D) × List (Output D) :=
  (p.1.trackers[id]?, reportsOf id p.2)

/-! ### The parts of a call -/

theorem seen_addTracker [Zero D] [One D] (accepts : Bool) (clock : Int) (m : Msg)
    (r : Registry D) (id : Int32) :
    seen id (r.addTracker accepts clock m) =
      (if m.trackerId = id ∧ accepts = true ∧ r.trackers[id]? = none then
        some (.init m.role clock)
      else r.trackers[id]?, []) := by
  unfold addTracker
  split
  next t ht =>
    rw [if_neg]
    · rfl
    · rintro ⟨rfl, -, hnone⟩
      rw [ht] at hnone
      cases hnone
  next hnone =>
    cases accepts with
    | false => simp [seen, reportsOf]
    | true =>
      by_cases hid : m.trackerId = id
      · subst hid
        simp [seen, reportsOf, hnone]
      · simp [seen, reportsOf, hid, Std.TreeMap.getElem?_insert]

theorem seen_noteUnknownId (id id' : Int32) (now : Int) (r : Registry D) :
    seen id' (r.noteUnknownId id now) = (r.trackers[id']?, []) := by
  unfold noteUnknownId
  split
  · rfl
  · dsimp only
    split <;> rfl

theorem seen_withTracker (id : Int32) (f : Tracker D → Tracker D × List (Output D))
    {otherwise : Registry D × List (Report D)} {r : Registry D} {id' : Int32}
    (h : seen id' otherwise = (r.trackers[id']?, [])) :
    seen id' (r.withTracker id f otherwise) =
      match r.trackers[id']? with
      | some t => if id = id' then ((f t).1, (f t).2) else (t, [])
      | none => (none, []) := by
  unfold withTracker
  split
  next t ht =>
    rw [seen, reportsOf_tracker]
    by_cases hid : id = id'
    · subst hid
      rw [Std.TreeMap.getElem?_insert_self, if_pos rfl, ht]
      simp
    · rw [Std.TreeMap.getElem?_insert, if_neg (by simpa using hid), if_neg hid]
      cases r.trackers[id']? with
      | none => rfl
      | some t' => simp [hid]
  next hnone =>
    rw [h]
    cases ht : r.trackers[id']? with
    | none => rfl
    | some t =>
      have hid : id ≠ id' := by
        rintro rfl
        rw [hnone] at ht
        cases ht
      simp [hid]

/-- A tracker is found by going through `trackers_`. -/
theorem find_toList (id : Int32) (m : Std.TreeMap Int32 (Tracker D)) :
    (m.toList.find? fun p => p.1 = id).map Prod.snd = m[id]? := by
  cases hfind : m.toList.find? fun p => p.1 = id with
  | none =>
    cases ht : m[id]? with
    | none => rfl
    | some t =>
      have hmem : (id, t) ∈ m.toList := Std.TreeMap.mem_toList_iff_getElem?_eq_some.mpr ht
      exact absurd (List.find?_eq_none.mp hfind _ hmem) (by simp)
  | some p =>
    obtain ⟨id', t⟩ := p
    have hid : id' = id := by simpa using List.find?_some hfind
    have hmem : (id', t) ∈ m.toList := List.mem_of_find?_eq_some hfind
    rw [← hid, Std.TreeMap.mem_toList_iff_getElem?_eq_some.mp hmem, Option.map_some]

/-- What a loop over trackers with distinct ids reports of one of them. -/
theorem reportsOf_flatMap (g : Int32 → Tracker D → List (Output D)) (id : Int32) :
    ∀ l : List (Int32 × Tracker D), (l.Pairwise fun a b => a.1 ≠ b.1) →
      reportsOf id (l.flatMap fun (id, t) => (g id t).map (.tracker id)) =
        ((l.find? fun p => p.1 = id).map fun p => g id p.2).getD [] := by
  intro l
  induction l with
  | nil => exact fun _ => rfl
  | cons p l ih =>
    intro h
    obtain ⟨hp, hl⟩ := List.pairwise_cons.mp h
    rw [List.flatMap_cons, reportsOf_append, reportsOf_tracker, ih hl]
    by_cases hid : p.1 = id
    · have hrest : (l.find? fun q => q.1 = id) = none := by
        rw [List.find?_eq_none]
        intro q hq
        simpa [← hid] using (hp q hq).symm
      simp [hid, hrest]
    · simp [hid]

theorem seen_checkTimeouts (clock : Int32 → Int) (r : Registry D) (id : Int32) :
    seen id (r.checkTimeouts clock) =
      match r.trackers[id]? with
      | some t => ((t.checkTimeout (clock id)).1, (t.checkTimeout (clock id)).2)
      | none => (none, []) := by
  have hdistinct : r.trackers.toList.Pairwise fun a b => a.1 ≠ b.1 :=
    r.trackers.distinct_keys_toList.imp fun h => by simpa using h
  have hreports : reportsOf id (r.checkTimeouts clock).2 =
      (r.trackers[id]?.map fun t => (t.checkTimeout (clock id)).2).getD [] := by
    rw [checkTimeouts, reportsOf_flatMap (fun id t => (t.checkTimeout (clock id)).2) id _ hdistinct,
      ← find_toList, Option.map_map]
    rfl
  rw [seen, hreports, checkTimeouts, Std.TreeMap.getElem?_map]
  cases r.trackers[id]? with
  | none => rfl
  | some t => rfl

/-! ### Calls -/

section React

variable (F) [FloatBits F 32] [FloatConv F D] [FloatBits D 64] [FloatOrder D] [Arith D]

/-- A call that no tracker takes part in. -/
theorem lone_of_none {id : Int32} {c : Call D}
    (hnew : c.newTracker id = none) (hevent : c.event id = none) (t : Option (Tracker D)) :
    lone F id c t = (t, []) := by
  cases t with
  | none => rw [lone, hnew]
  | some t => simp only [lone, hevent]

theorem seen_onMessage (accepts : Bool) (clock : Int) (m : Msg) (u : Option (Universe D))
    (now : Int) (r : Registry D) (id : Int32) :
    seen id (r.onMessage F accepts clock m u now) =
      lone F id (.message accepts clock m u now) r.trackers[id]? := by
  have hnew : m.kind ≠ .trackerAdded →
      Call.newTracker id (.message accepts clock m u now : Call D) = none := by
    intro hkind
    cases accepts <;> simp [Call.newTracker, hkind]
  unfold onMessage
  cases hkind : m.kind with
  | trackerAdded =>
    dsimp only
    rw [seen_addTracker]
    cases r.trackers[id]? with
    | none => cases accepts <;> simp [lone, Call.newTracker, hkind]
    | some t => by_cases hid : m.trackerId = id <;> simp [lone, Call.event, hid, hkind]
  | position =>
    have hnew := hnew (by simp [hkind])
    dsimp only
    by_cases hhand : IsHand m.trackerId
    · rw [if_pos hhand]
      refine (lone_of_none F hnew ?_ _).symm
      by_cases hid : m.trackerId = id
      · subst hid
        simp [Call.event, hkind, hhand]
      · simp [Call.event, hid]
    · rw [if_neg hhand, seen_withTracker _ _ (seen_noteUnknownId _ _ _ r)]
      cases r.trackers[id]? with
      | none => rw [lone, hnew]
      | some t =>
        by_cases hid : m.trackerId = id
        · subst hid
          simp [lone, Call.event, hkind, hhand, Tracker.react]
        · simp [lone, Call.event, hid]
  | trackerStatus =>
    dsimp only
    rw [seen_withTracker _ _ rfl]
    cases r.trackers[id]? with
    | none => rw [lone, hnew (by simp [hkind])]
    | some t =>
      by_cases hid : m.trackerId = id <;> simp [lone, Call.event, hid, hkind, Tracker.react]
  | none | universeChange | pathFailed | wipInfo | wipSetting | wipFuncStateChange =>
    refine (lone_of_none F (hnew (by simp [hkind])) ?_ _).symm
    simp [Call.event, hkind]

/-- **What a call does to the tracker with an id, and reports of it, is what it does to the tracker
alone.** -/
theorem seen_call (c : Call D) (r : Registry D) (id : Int32) :
    seen id (r.call F c) = lone F id c r.trackers[id]? := by
  cases c with
  | message accepts clock m u now => exact seen_onMessage F accepts clock m u now r id
  | checkTimeouts clock =>
    rw [call, seen_checkTimeouts]
    cases r.trackers[id]? with
    | none => rfl
    | some t => rfl
  | activate id' | deactivate id' =>
    rw [call, seen_withTracker _ _ rfl]
    cases r.trackers[id]? with
    | none => rfl
    | some t => by_cases hid : id' = id <;> simp [lone, Call.event, hid, Tracker.react]

end React

end Registry

end Rebocap.Driver
