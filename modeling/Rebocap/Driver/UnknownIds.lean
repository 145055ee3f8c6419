import Rebocap.Driver.Dispatch

/-!
# Ids that were not announced

`NoteUnknownId`. A position can come before the `tracker_added` of its id, so the log names an id
only when it has been sending for 10 s, and once. At most 32 ids are kept.

* `Registry.noteUnknownId_cases` — what a position of an unknown id does
* `Devices.noted_exactly` — which ids are named in the log, in every run
-/

namespace Rebocap.Driver

open Lib FloatOrder Arith FloatConv FloatBits Proto

variable {F D : Type}

/-! ## Reports -/

/-- The ids that the log names. -/
def unannounced (reports : List (Report D)) : List Int32 :=
  reports.filterMap fun
    | .log (.unannounced id) => some id
    | _ => none

theorem unannounced_append (rs rs' : List (Report D)) :
    unannounced (rs ++ rs') = unannounced rs ++ unannounced rs' :=
  List.filterMap_append

theorem unannounced_tracker (id : Int32) (out : List (Output D)) :
    unannounced (out.map (.tracker id)) = [] := by
  simp [unannounced, List.filterMap_map]

/-- When a position of an id came in a call. -/
def notedAt (id : Int32) : Call D → Option Int
  | .message _ _ m _ now =>
    if m.kind = .position ∧ m.trackerId = id ∧ ¬Registry.IsHand id then some now else none
  | _ => none

namespace Registry

/-! ## One position -/

/-- What becomes of the entry of an id. -/
inductive Notes (id : Int32) (now : Int) (r r' : Registry D) (named : List Int32) : Prop where
  | full (hnone : r.unknownIds[id]? = none) (hfull : 32 ≤ r.unknownIds.size)
      (hentry : r'.unknownIds[id]? = none) (hsize : r'.unknownIds.size = r.unknownIds.size)
      (hnamed : named = [])
  | first (hnone : r.unknownIds[id]? = none) (hroom : r.unknownIds.size < 32)
      (hentry : r'.unknownIds[id]? = some (now, false))
      (hsize : r'.unknownIds.size = r.unknownIds.size + 1) (hnamed : named = [])
  | waits (first : Int) (reported : Bool) (hsome : r.unknownIds[id]? = some (first, reported))
      (hwait : reported = true ∨ now - first < seconds 10)
      (hentry : r'.unknownIds[id]? = some (first, reported))
      (hsize : r'.unknownIds.size = r.unknownIds.size) (hnamed : named = [])
  | names (first : Int) (hsome : r.unknownIds[id]? = some (first, false))
      (hdue : seconds 10 ≤ now - first) (hentry : r'.unknownIds[id]? = some (first, true))
      (hsize : r'.unknownIds.size = r.unknownIds.size) (hnamed : named = [id])

/-- **What a position of an unknown id does.** -/
theorem noteUnknownId_cases (id : Int32) (now : Int) (r : Registry D) :
    Notes id now r (r.noteUnknownId id now).1 (unannounced (r.noteUnknownId id now).2) := by
  unfold noteUnknownId
  cases hentry : r.unknownIds[id]? with
  | none =>
    have hmem : id ∉ r.unknownIds := by
      rw [Std.TreeMap.mem_iff_isSome_getElem?, hentry]
      simp
    by_cases hfull : r.unknownIds.size ≥ 32
    · rw [if_pos ⟨hfull, hmem⟩]
      exact .full hentry hfull hentry rfl rfl
    · rw [if_neg fun h => hfull h.1]
      have hget : (r.unknownIds.insertIfNew id (now, false)).getD id (now, false)
          = (now, false) := by
        rw [Std.TreeMap.getD_insertIfNew]
        simp [hmem]
      have hnot : (false = true ∨ now - now < seconds 10) := .inr (by simp [seconds])
      dsimp only
      rw [hget, if_pos hnot]
      refine .first hentry (Nat.not_le.mp hfull) ?_ ?_ rfl
      · rw [Std.TreeMap.getElem?_insertIfNew]
        simp [hmem]
      · rw [Std.TreeMap.size_insertIfNew, if_neg hmem]
  | some entry =>
    obtain ⟨first, reported⟩ := entry
    have hmem : id ∈ r.unknownIds := by
      rw [Std.TreeMap.mem_iff_isSome_getElem?, hentry]
      rfl
    rw [if_neg fun h => h.2 hmem]
    have hkept : (r.unknownIds.insertIfNew id (now, false))[id]? = some (first, reported) := by
      rw [Std.TreeMap.getElem?_insertIfNew, if_neg fun h => h.2 hmem, hentry]
    have hsize : (r.unknownIds.insertIfNew id (now, false)).size = r.unknownIds.size := by
      rw [Std.TreeMap.size_insertIfNew, if_pos hmem]
    have hget : (r.unknownIds.insertIfNew id (now, false)).getD id (now, false)
        = (first, reported) := by
      rw [Std.TreeMap.getD_eq_getD_getElem?, hkept, Option.getD_some]
    dsimp only
    rw [hget]
    by_cases hwait : reported = true ∨ now - first < seconds 10
    · rw [if_pos hwait]
      exact .waits first reported hentry hwait hkept hsize rfl
    · rw [if_neg hwait]
      obtain ⟨hreported, hdue⟩ := not_or.mp hwait
      have hreported : reported = false := by simpa using hreported
      subst hreported
      refine .names first hentry (Int.not_lt.mp hdue) ?_ ?_ rfl
      · rw [Std.TreeMap.getElem?_insert_self]
      · have hcontains : id ∈ r.unknownIds.insertIfNew id (now, false) := by
          rw [Std.TreeMap.mem_iff_isSome_getElem?, hkept]
          rfl
        rw [Std.TreeMap.size_insert, if_pos (Std.TreeMap.mem_iff_contains.mp hcontains), hsize]

theorem unknownIds_noteUnknownId_of_ne {id id' : Int32} (h : id' ≠ id) (now : Int)
    (r : Registry D) : (r.noteUnknownId id now).1.unknownIds[id']? = r.unknownIds[id']? := by
  have hcompare : compare id id' ≠ .eq := by simpa using h.symm
  unfold noteUnknownId
  split
  · rfl
  · dsimp only
    split
    · rw [Std.TreeMap.getElem?_insertIfNew]
      simp [h.symm]
    · rw [Std.TreeMap.getElem?_insert, if_neg hcompare, Std.TreeMap.getElem?_insertIfNew]
      simp [h.symm]

/-! ### One call -/

theorem withTracker_kept (id : Int32) (f : Tracker D → Tracker D × List (Output D))
    {otherwise : Registry D × List (Report D)} {r : Registry D}
    (h : otherwise.1.unknownIds = r.unknownIds ∧ unannounced otherwise.2 = []) :
    (r.withTracker id f otherwise).1.unknownIds = r.unknownIds ∧
      unannounced (r.withTracker id f otherwise).2 = [] := by
  unfold withTracker
  cases r.trackers[id]? with
  | some t => exact ⟨rfl, unannounced_tracker id _⟩
  | none => exact h

theorem addTracker_kept [Zero D] [One D] (accepts : Bool) (clock : Int) (m : Msg)
    (r : Registry D) :
    (r.addTracker accepts clock m).1.unknownIds = r.unknownIds ∧
      unannounced (r.addTracker accepts clock m).2 = [] := by
  unfold addTracker
  cases r.trackers[m.trackerId]? with
  | some t => exact ⟨rfl, rfl⟩
  | none => cases accepts <;> exact ⟨rfl, rfl⟩

section React

variable (F) [FloatBits F 32] [FloatConv F D] [FloatBits D 64] [FloatOrder D] [Arith D]

/-- A call notes a position that no tracker takes, and nothing else. -/
theorem unknownIds_call (c : Call D) (r : Registry D) :
    (∃ id now, notedAt id c = some now ∧ (∀ id', id' ≠ id → notedAt id' c = none) ∧
      r.trackers[id]? = none ∧
      (r.call F c).1.unknownIds = (r.noteUnknownId id now).1.unknownIds ∧
      unannounced (r.call F c).2 = unannounced (r.noteUnknownId id now).2) ∨
    ((∀ id, r.trackers[id]? = none → notedAt id c = none) ∧
      (r.call F c).1.unknownIds = r.unknownIds ∧ unannounced (r.call F c).2 = []) := by
  cases c with
  | message accepts clock m u now =>
    rw [call]
    unfold onMessage
    cases hkind : m.kind with
    | trackerAdded =>
      exact .inr ⟨fun id _ => by simp [notedAt, hkind], addTracker_kept accepts clock m r⟩
    | position =>
      dsimp only
      by_cases hhand : IsHand m.trackerId
      · rw [if_pos hhand]
        refine .inr ⟨fun id _ => if_neg ?_, rfl, rfl⟩
        rintro ⟨-, rfl, hnot⟩
        exact hnot hhand
      · rw [if_neg hhand]
        cases ht : r.trackers[m.trackerId]? with
        | none =>
          refine .inl ⟨m.trackerId, now, if_pos ⟨hkind, rfl, hhand⟩, ?_, ht, ?_⟩
          · exact fun id' hne => if_neg fun h => hne h.2.1.symm
          · simp only [withTracker, ht, and_self]
        | some t =>
          refine .inr ⟨fun id hnone => if_neg ?_, ?_⟩
          · rintro ⟨-, rfl, -⟩
            rw [ht] at hnone
            cases hnone
          · simp only [withTracker, ht]
            exact ⟨trivial, unannounced_tracker _ _⟩
    | trackerStatus =>
      refine .inr ⟨fun id _ => by simp [notedAt, hkind], ?_⟩
      exact withTracker_kept _ _ ⟨rfl, rfl⟩
    | none | universeChange | pathFailed | wipInfo | wipSetting | wipFuncStateChange =>
      exact .inr ⟨fun id _ => by simp [notedAt, hkind], rfl, rfl⟩
  | checkTimeouts clock =>
    refine .inr ⟨fun _ _ => rfl, rfl, ?_⟩
    rw [call, checkTimeouts]
    induction r.trackers.toList with
    | nil => rfl
    | cons p l ih => rw [List.flatMap_cons, unannounced_append, ih, unannounced_tracker]; rfl
  | activate | deactivate => exact .inr ⟨fun _ _ => rfl, withTracker_kept _ _ ⟨rfl, rfl⟩⟩

end React

end Registry

namespace Devices

/-! ## In a run -/

/-- When the positions of an id came that no tracker took: those before its tracker was made. -/
def unclaimed [Zero D] [One D] (id : Int32) (calls : List (Call D)) : List Int :=
  (calls.takeWhile fun c => (c.newTracker id).isNone).filterMap (notedAt id)

theorem newTracker_of_notedAt [Zero D] [One D] {id : Int32} {c : Call D} {now : Int}
    (h : notedAt id c = some now) : c.newTracker id = none := by
  cases c with
  | message accepts clock m u now' =>
    have hkind : m.kind = .position := by
      by_contra hne
      rw [notedAt, if_neg fun h => hne h.1] at h
      cases h
    cases accepts <;> simp [Call.newTracker, hkind]
  | checkTimeouts | activate | deactivate => rfl

theorem born_eq_none [Zero D] [One D] {id : Int32} {calls : List (Call D)} :
    born id calls = none ↔ ∀ c ∈ calls, (c.newTracker id).isNone = true := by
  simp [born, List.findSome?_eq_none_iff]

/-- A position counts as long as its id has no tracker. -/
theorem unclaimed_append [Zero D] [One D] (id : Int32) (calls : List (Call D)) (c : Call D) :
    unclaimed id (calls ++ [c]) = unclaimed id calls ++
      if born id calls = none then (notedAt id c).toList else [] := by
  unfold unclaimed
  by_cases hborn : born id calls = none
  · rw [if_pos hborn]
    rw [born_eq_none] at hborn
    have hall : calls.takeWhile (fun c => (c.newTracker id).isNone) = calls :=
      List.takeWhile_eq_self_iff.mpr hborn
    rw [List.takeWhile_append_of_pos hborn, List.filterMap_append, hall]
    cases hnoted : notedAt id c with
    | none =>
      cases hnew : (c.newTracker id).isNone <;> simp [hnew, hnoted]
    | some now => simp [newTracker_of_notedAt hnoted, hnoted]
  · rw [if_neg hborn, List.append_nil]
    rw [born_eq_none] at hborn
    congr 1
    rw [List.takeWhile_append, if_neg]
    intro hlength
    exact hborn (List.takeWhile_eq_self_iff.mp
      ((List.takeWhile_prefix _).eq_of_length hlength))

/-- The entry of an id says when its first position came and if its name is in the log: this is so
if a position came 10 s later, and once. An id has no entry if no position came, or if there was no
room. -/
def Tells (entry : Option (Int × Bool)) (times : List Int) (named : Nat) (full : Prop) : Prop :=
  match entry with
  | some (first, reported) =>
    times.head? = some first ∧ (reported = true ↔ ∃ t ∈ times, seconds 10 ≤ t - first) ∧
      named = if reported then 1 else 0
  | none => (times = [] ∨ full) ∧ named = 0

theorem Tells.imp {entry : Option (Int × Bool)} {times : List Int} {named : Nat}
    {full full' : Prop} (h : Tells entry times named full) (hfull : full → full') :
    Tells entry times named full' := by
  cases entry with
  | none => exact ⟨h.1.imp_right hfull, h.2⟩
  | some entry => exact h

/-- A position of the id. -/
theorem Tells.of_notes {id : Int32} {now : Int} {r r' : Registry D} {new : List Int32}
    {times : List Int} {named : Nat} (hsize : r.unknownIds.size ≤ 32)
    (hn : Registry.Notes id now r r' new)
    (h : Tells r.unknownIds[id]? times named (r.unknownIds.size = 32)) :
    Tells r'.unknownIds[id]? (times ++ [now]) (named + new.count id)
      (r'.unknownIds.size = 32) := by
  cases hn with
  | full hnone hfull hentry hsize' hnew =>
    rw [hnone] at h
    rw [hentry, hnew]
    exact ⟨.inr (by omega), h.2⟩
  | first hnone hroom hentry hsize' hnew =>
    rw [hnone] at h
    obtain ⟨htimes | hfull, hnamed⟩ := h
    · rw [hentry, hnew, htimes]
      refine ⟨rfl, ?_, by simpa using hnamed⟩
      simp [seconds]
    · omega
  | waits first reported hsome hwait hentry hsize' hnew =>
    rw [hsome] at h
    obtain ⟨hhead, hreported, hnamed⟩ := h
    rw [hentry, hnew]
    refine ⟨?_, ?_, by simpa using hnamed⟩
    · rw [List.head?_append, hhead]
      rfl
    · rw [hreported]
      constructor
      · rintro ⟨t, ht, hdue⟩
        exact ⟨t, List.mem_append_left _ ht, hdue⟩
      · rintro ⟨t, ht, hdue⟩
        rcases List.mem_append.mp ht with ht | ht
        · exact ⟨t, ht, hdue⟩
        · rw [List.mem_singleton.mp ht] at hdue
          rcases hwait with hwait | hwait
          · exact hreported.mp hwait
          · omega
  | names first hsome hdue hentry hsize' hnew =>
    rw [hsome] at h
    obtain ⟨hhead, -, hnamed⟩ := h
    rw [hentry, hnew]
    refine ⟨?_, ?_, by simp [hnamed]⟩
    · rw [List.head?_append, hhead]
      rfl
    · exact iff_of_true rfl ⟨now, List.mem_append_right _ (List.mem_singleton_self now), hdue⟩

theorem size_of_notes {id : Int32} {now : Int} {r r' : Registry D} {new : List Int32}
    (hsize : r.unknownIds.size ≤ 32) (hn : Registry.Notes id now r r' new) :
    r.unknownIds.size ≤ r'.unknownIds.size ∧ r'.unknownIds.size ≤ 32 ∧ ∀ id' ∈ new, id' = id := by
  cases hn with
  | full _ _ _ hsize' hnew | waits _ _ _ _ _ hsize' hnew =>
    rw [hsize', hnew]
    exact ⟨Nat.le_refl _, hsize, by simp⟩
  | first _ hroom _ hsize' hnew =>
    rw [hsize', hnew]
    exact ⟨Nat.le_succ _, hroom, by simp⟩
  | names _ _ _ _ hsize' hnew =>
    rw [hsize', hnew]
    exact ⟨Nat.le_refl _, hsize, by simp⟩

/-- What is kept of unknown ids, and what the log says of them. -/
structure NotedExactly [Zero D] [One D] (d : Devices D) : Prop where
  size_le : d.registry.unknownIds.size ≤ 32
  entries : ∀ id, Tells d.registry.unknownIds[id]? (unclaimed id d.calls)
    ((unannounced d.reports).count id) (d.registry.unknownIds.size = 32)

/-- Each id is named once, and one that is named has an entry. -/
theorem NotedExactly.length_le [Zero D] [One D] {d : Devices D} (h : NotedExactly d) :
    (unannounced d.reports).length ≤ 32 := by
  have hcount : ∀ id, (unannounced d.reports).count id ≤ 1 ∧
      (id ∈ unannounced d.reports → id ∈ d.registry.unknownIds.keys) := by
    intro id
    have htells := h.entries id
    cases hentry : d.registry.unknownIds[id]? with
    | none =>
      rw [hentry] at htells
      exact ⟨by rw [htells.2]; exact Nat.zero_le 1,
        fun hmem => absurd hmem (List.count_eq_zero.mp htells.2)⟩
    | some entry =>
      rw [hentry] at htells
      refine ⟨by rw [htells.2.2]; split <;> omega, fun _ => ?_⟩
      rw [Std.TreeMap.mem_keys, Std.TreeMap.mem_iff_isSome_getElem?, hentry]
      rfl
  have hnodup : (unannounced d.reports).Nodup :=
    List.nodup_iff_count_le_one.mpr fun id => (hcount id).1
  have hlength : (unannounced d.reports).length ≤ d.registry.unknownIds.keys.length :=
    (List.subperm_of_subset hnodup fun id hmem => (hcount id).2 hmem).length_le
  rw [Std.TreeMap.length_keys] at hlength
  exact Nat.le_trans hlength h.size_le

section Calls

variable (F) [FloatBits F 32] [FloatConv F D] [FloatBits D 64] [FloatOrder D] [Arith D]

theorem notedExactly_call (c : Call D) {d : Devices D} (hadded : ∀ id, AddedOnce F id d)
    (h : NotedExactly d) : NotedExactly (d.call F c) := by
  have hborn : ∀ id, born id d.calls = none ↔ d.registry.trackers[id]? = none := by
    intro id
    have hrole := (hadded id).role
    rw [← Option.map_eq_none_iff, ← hrole, Option.map_eq_none_iff]
  have hclaimed : ∀ id, notedAt id c = none →
      unclaimed id (d.calls ++ [c]) = unclaimed id d.calls := by
    intro id hnone
    rw [unclaimed_append, hnone]
    simp
  obtain ⟨id, now, hnow, hother, hnone, hids, hnew⟩ | ⟨hnoted, hids, hnew⟩ :=
    Registry.unknownIds_call F c d.registry
  · have hnotes := Registry.noteUnknownId_cases id now d.registry
    rw [← hnew] at hnotes
    obtain ⟨hgrows, hsize, hmem⟩ := size_of_notes h.size_le hnotes
    have hlookup : ∀ id' : Int32, (d.call F c).registry.unknownIds[id']?
        = (d.registry.noteUnknownId id now).1.unknownIds[id']? := fun id' => by
      rw [call, hids]
    have hsame : (d.call F c).registry.unknownIds.size
        = (d.registry.noteUnknownId id now).1.unknownIds.size := by rw [call, hids]
    refine ⟨hsame ▸ hsize, fun id' => ?_⟩
    show Tells _ (unclaimed id' (d.calls ++ [c])) ((unannounced (d.reports ++ _)).count id') _
    rw [hlookup, hsame, unannounced_append, List.count_append]
    by_cases hid : id' = id
    · subst hid
      rw [unclaimed_append, if_pos ((hborn id').mpr hnone), hnow]
      exact Tells.of_notes h.size_le hnotes (h.entries id')
    · have hcount : (unannounced (d.registry.call F c).2).count id' = 0 :=
        List.count_eq_zero.mpr fun hin => hid (hmem id' hin)
      rw [Registry.unknownIds_noteUnknownId_of_ne hid, hclaimed id' (hother id' hid), hcount]
      exact (h.entries id').imp fun hfull => by omega
  · refine ⟨?_, fun id => ?_⟩
    · rw [call, hids]
      exact h.size_le
    · show Tells (d.registry.call F c).1.unknownIds[id]? (unclaimed id (d.calls ++ [c]))
        ((unannounced (d.reports ++ _)).count id) ((d.registry.call F c).1.unknownIds.size = 32)
      have hkept : unclaimed id (d.calls ++ [c]) = unclaimed id d.calls := by
        rw [unclaimed_append]
        by_cases hb : born id d.calls = none
        · simp [hnoted id ((hborn id).mp hb)]
        · simp [hb]
      rw [hids, hkept, unannounced_append, hnew, List.append_nil]
      exact h.entries id

variable [FloatOrder F] [Arith F]

/-- **Which ids the log names**, in every run: an id that sends positions without a tracker is named
once 10 s have passed since the first of these, and never again; an id with no entry is one that
sent none, or came when 32 were kept. The log never names more than 32. -/
theorem noted_exactly (universeFallback : Bool) (defaultChaperone : String)
    (es : List (Provider.Event F D (Devices D) Answers))
    (hes : ∀ e ∈ es, Provider.Outside (Outside F) e) :
    let d := (Provider.after (handlers F) init universeFallback defaultChaperone es).devices
    NotedExactly d ∧ (unannounced d.reports).length ≤ 32 := by
  have hboth : ∀ c (d : Devices D), (∀ id, AddedOnce F id d) ∧ NotedExactly d →
      (∀ id, AddedOnce F id (d.call F c)) ∧ NotedExactly (d.call F c) := fun c d h =>
    ⟨fun id => addedOnce_call F id c (h.1 id), notedExactly_call F c h.1 h.2⟩
  have hinit : (∀ id, AddedOnce F id (init : Devices D)) ∧ NotedExactly (init : Devices D) := by
    refine ⟨addedOnce_init F, Nat.zero_le 32, fun id => ?_⟩
    rw [show (init : Devices D).registry.unknownIds[id]? = none from
      Std.TreeMap.getElem?_emptyc]
    exact ⟨.inl rfl, rfl⟩
  have h := (devices_after F hboth hinit universeFallback defaultChaperone es hes).2
  exact ⟨h, h.length_le⟩

end Calls

/-- A position with id 5 in a chunk, and a frame that handles it. -/
def positionAt (now : Int) : List (Provider.Event ℚ ℚ (Devices ℚ) Answers) :=
  [.net (.recv [4, 0, 0, 0, 0x0a, 2, 8, 5]), .net .scan, .net .scan, .frame now]
    ++ List.replicate 10 (.step (answering true))

/-- Two of them, 11 s apart. -/
def twoPositions : List (Provider.Event ℚ ℚ (Devices ℚ) Answers) :=
  [.net .connect, .net .publish] ++ positionAt 0 ++ positionAt 11000000000

theorem outside_twoPositions : ∀ e ∈ twoPositions, Provider.Outside (Outside ℚ) e := by
  have hat : ∀ now, ∀ e ∈ positionAt now, Provider.Outside (Outside ℚ) e := by
    intro now e he
    simp only [positionAt, List.mem_append, List.mem_cons, List.not_mem_nil, or_false,
      List.mem_replicate] at he
    rcases he with (rfl | rfl | rfl | rfl) | ⟨-, rfl⟩ <;> trivial
  intro e he
  rcases List.mem_append.mp he with he | he
  · rcases List.mem_append.mp he with he | he
    · rcases List.mem_cons.mp he with rfl | he
      · trivial
      · rw [List.mem_singleton.mp he]
        trivial
    · exact hat 0 e he
  · exact hat _ e he

theorem noted_exactly_twoPositions :
    let d := (Provider.after (handlers ℚ) init true "" twoPositions).devices
    unannounced d.reports = [5] ∧ NotedExactly d ∧ (unannounced d.reports).length ≤ 32 :=
  ⟨by decide +kernel, noted_exactly ℚ true "" twoPositions outside_twoPositions⟩

end Devices

end Rebocap.Driver
