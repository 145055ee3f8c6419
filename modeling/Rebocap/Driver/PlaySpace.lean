import Rebocap.Driver.Universe
import Rebocap.Lib.RatScalar

/-!
# Which universe a frame uses

A frame reads the headset's universe id, and then announces `universe_` and converts the headset's
position with it. Where the search for a new id fails, or is not due yet, that is still the
universe of the old one.

* `PlaySession.uses_current` — the runs in which no frame uses it
* `PlaySession.not_current` — a frame that does
-/

namespace Rebocap.Driver

open Lib Proto Net FloatOrder Arith FloatConv FloatBits Provider

variable {F D δ ι : Type}

/-! ## Sessions -/

structure PlaySession (F D δ : Type) where
  driver : Provider F D δ
  /-- The id that the frame has read. -/
  current : Option UInt64
  /-- The last universe that was found, and the id that it was found for. -/
  found : Option (UInt64 × Universe D)

namespace PlaySession

/-- What happens to the driver, and the sources of the chaperone data at that time. -/
abbrev Event (F D δ ι : Type) := Provider.Event F D δ ι × Sources D

def init [Zero D] (devices : δ) (universeFallback : Bool) (defaultChaperone : String) :
    PlaySession F D δ where
  driver := .init devices universeFallback defaultChaperone
  current := none
  found := none

/-! ## What a frame uses -/

section Frames

variable [Zero D]

/-- The universe that a step of a frame announces, or converts the headset's position with. -/
def used (e : Event F D δ ι) (s : Provider F D δ) : Option (Universe D) :=
  match e.1, s.pc with
  | .step _, .sendUniverse _ due =>
    if s.haveUniverse && (due || !s.helloSent) then some s.universe_ else none
  | .step _, .sendHmdPose _ =>
    if s.now - s.lastHmdSend ≥ milliseconds 10 then s.knownUniverse else none
  | _, _ => none

/-- Where the frame has read an id, it uses the universe that was found for it, or the fallback. -/
def UsesCurrent (e : Event F D δ ι) (s : PlaySession F D δ) : Prop :=
  ∀ u, used e s.driver = some u → ∀ id, s.current = some id →
    s.found = some (id, u) ∨ (s.driver.usingFallback = true ∧ u = Universe.zero u.id)

/-- The rest of the frame neither announces the universe nor sends a position. -/
structure Quiet (hmd : HmdPose F) (s : Provider F D δ) : Prop where
  status : s.statusSent = true ∧ (hmd.poseIsValid && hmd.deviceIsConnected) = s.lastHmdOk
  hello : s.helloSent = true
  pose : ¬s.now - s.lastHmdSend ≥ milliseconds 10

instance (hmd : HmdPose F) (s : Provider F D δ) : Decidable (Quiet hmd s) :=
  decidable_of_iff ((s.statusSent = true ∧
      (hmd.poseIsValid && hmd.deviceIsConnected) = s.lastHmdOk) ∧ s.helloSent = true ∧
      ¬s.now - s.lastHmdSend ≥ milliseconds 10)
    ⟨fun h => ⟨h.1, h.2.1, h.2.2⟩, fun h => ⟨h.status, h.hello, h.pose⟩⟩

/-- The universe fits the id that the frame has read. -/
def Fits (s : PlaySession F D δ) : Prop :=
  ∀ id, s.current = some id → s.driver.haveUniverse = true → s.driver.usingFallback = false →
    s.driver.universe_.id = id

/-- The rest of the frame does not use the universe. -/
def Unused (s : Provider F D δ) : Prop :=
  match s.pc with
  | .sendStatus hmd => Quiet hmd s
  | .sendUniverse _ due => due = false ∧ s.helloSent = true ∧
    ¬s.now - s.lastHmdSend ≥ milliseconds 10
  | .sendHmdPose _ => ¬s.now - s.lastHmdSend ≥ milliseconds 10
  | _ => True

omit [Zero D] in
/-- Other threads do not change what the frame has before it. -/
theorem Unused.of_others {s : Provider F D δ} (client : Client) (devices : δ) (h : Unused s) :
    Unused { s with client := client, devices := devices } := by
  unfold Unused at h ⊢
  cases hpc : s.pc with
  | sendStatus hmd =>
    simp only [hpc] at h
    exact ⟨h.status, h.hello, h.pose⟩
  | sendUniverse | sendHmdPose =>
    simp only [hpc] at h
    exact h
  | _ => trivial

structure Kept (s : PlaySession F D δ) : Prop where
  found : s.driver.haveUniverse = true → s.driver.usingFallback = false →
    s.found = some (s.driver.universe_.id, s.driver.universe_)
  fallback : s.driver.haveUniverse = true → s.driver.usingFallback = true →
    s.driver.universe_ = Universe.zero s.driver.universe_.id
  frame : Fits s ∨ Unused s.driver

/-- A step that leaves the universe alone. -/
theorem Kept.of_same {s : PlaySession F D δ} {d : Provider F D δ} (hs : s.Kept)
    (huniverse : d.universe_ = s.driver.universe_)
    (hhave : d.haveUniverse = s.driver.haveUniverse)
    (hfallback : d.usingFallback = s.driver.usingFallback)
    (hunused : Unused s.driver → Unused d) : Kept { s with driver := d } where
  found := by
    rw [huniverse, hhave, hfallback]
    exact hs.found
  fallback := by
    rw [huniverse, hhave, hfallback]
    exact hs.fallback
  frame := by
    refine hs.frame.imp (fun h => ?_) hunused
    unfold Fits
    rw [huniverse, hhave, hfallback]
    exact h

theorem Kept.usesCurrent {s : PlaySession F D δ} (hs : s.Kept) (e : Event F D δ ι) :
    UsesCurrent e s := by
  intro u hu id hid
  have hused : s.driver.haveUniverse = true ∧ u = s.driver.universe_ ∧ ¬Unused s.driver := by
    unfold used at hu
    unfold Unused
    split at hu
    next hpc =>
      split at hu
      next h =>
        cases hu
        rw [hpc]
        simp only [Bool.and_eq_true, Bool.or_eq_true, Bool.not_eq_true'] at h
        refine ⟨h.1, rfl, fun hun => ?_⟩
        rcases h.2 with hdue | hhello
        · cases hun.1.symm.trans hdue
        · cases hun.2.1.symm.trans hhello
      next => cases hu
    next hpc =>
      split at hu
      next h =>
        unfold knownUniverse at hu
        split at hu
        next hhave =>
          cases hu
          rw [hpc]
          exact ⟨hhave, rfl, fun hun => hun h⟩
        next => cases hu
      next => cases hu
    next => cases hu
  obtain ⟨hhave, rfl, hun⟩ := hused
  have hfits := hs.frame.resolve_right hun
  cases hfallback : s.driver.usingFallback with
  | true => exact Or.inr ⟨rfl, hs.fallback hhave hfallback⟩
  | false =>
    rw [hs.found hhave hfallback, hfits id hid hhave hfallback]
    exact Or.inl rfl

theorem kept_init (devices : δ) (fallback : Bool) (path : String) :
    Kept (init devices fallback path : PlaySession F D δ) where
  found h := absurd h Bool.false_ne_true
  fallback h := absurd h Bool.false_ne_true
  frame := Or.inr trivial

end Frames

/-! ## Steps -/

section Steps

variable [FloatOrder F] [Arith F] [FloatOrder D] [Arith D] [FloatConv F D] [FloatBits F 32]
  [FloatBits D 64]

def step (h : Handlers D δ ι) (e : Event F D δ ι) (s : PlaySession F D δ) : PlaySession F D δ :=
  match e.1 with
  | .step io =>
    let driver := Provider.step h (.step (io.reading e.2)) s.driver
    match s.driver.pc with
    | .updateUniverse =>
      { driver := driver
        current := io.chaperone.currentId
        found := match io.chaperone.currentId, UniverseSession.searched io e.2 s.driver with
          | some id, some (some u) => some (id, u)
          | _, _ => s.found }
    | _ => { s with driver := driver }
  | e => { s with driver := Provider.step h e s.driver }

/-- The universe of another id is kept: the search for the new one is not due, or it fails and the
fallback is not adopted. -/
def Retains (io : Io F D ι) (sources : Sources D) (s : Provider F D δ) : Prop :=
  ∃ id ∈ io.chaperone.currentId, s.haveUniverse = true ∧ s.usingFallback = false ∧
    s.universe_.id ≠ id ∧ (s.now - s.lastUniverseSearch < seconds 1 ∨
      (sources.lookup id).isNone ∧ ¬(s.universeFallback = true ∧ s.universeFailures + 1 ≥ 3))

instance (io : Io F D ι) (sources : Sources D) (s : Provider F D δ) :
    Decidable (Retains io sources s) :=
  inferInstanceAs (Decidable (∃ id ∈ io.chaperone.currentId, _ ∧ _))

/-- A frame that keeps the universe of another id does not use it. -/
def Refreshed (e : Event F D δ ι) (s : PlaySession F D δ) : Prop :=
  match e.1, s.driver.pc with
  | .step io, .updateUniverse => Retains io e.2 s.driver → Quiet io.hmd s.driver
  | _, _ => True

/-- A step of a frame that leaves the universe alone. -/
theorem kept_frameStep {io : Io F D ι} {s : PlaySession F D δ} {d : Provider F D δ}
    (h : FrameStep io s.driver d) (hpc : s.driver.pc ≠ .updateUniverse) (hs : s.Kept) :
    Kept { s with driver := d } := by
  cases h with
  | idle => exact hs
  | universeKept _ hpc' | universeFound _ _ hpc' | universeNotFound _ _ hpc'
  | universeFallback _ _ hpc' => exact absurd hpc' hpc
  | status hmd hmdOk hpc' hok hdue =>
    refine hs.of_same rfl rfl rfl fun h => ?_
    simp only [Unused, hpc'] at h
    rcases hdue with hdue | hdue
    · cases hdue.symm.trans h.status.1
    · exact absurd (hok.trans h.status.2) hdue
  | statusKept hmd hpc' =>
    refine hs.of_same rfl rfl rfl fun h => ?_
    simp only [Unused, hpc'] at h
    exact ⟨rfl, h.hello, h.pose⟩
  | universeSent hmd due hpc' hhave hdue =>
    refine hs.of_same rfl rfl rfl fun h => ?_
    simp only [Unused, hpc'] at h
    rcases hdue with hdue | hdue
    · cases h.1.symm.trans hdue
    · cases hdue.symm.trans h.2.1
  | universeSkipped hmd due hpc' =>
    refine hs.of_same rfl rfl rfl fun h => ?_
    simp only [Unused, hpc'] at h
    exact h.2.2
  | offline | stale | current | readGeneration | drain | messagesEnd | walk | pose | poseSkipped =>
    exact hs.of_same rfl rfl rfl fun _ => trivial
  | message m d hpc' =>
    refine hs.of_same rfl rfl rfl fun _ => ?_
    simp only [Unused, hpc']

instance (e : Event F D δ ι) (s : PlaySession F D δ) : Decidable (Refreshed e s) := by
  unfold Refreshed
  split <;> infer_instance

theorem step_updateUniverse {h : Handlers D δ ι} {io : Io F D ι} (sources : Sources D)
    {s : PlaySession F D δ} (hpc : s.driver.pc = .updateUniverse) :
    step h (.step io, sources) s =
      { driver := { s.driver.updateUniverse (io.reading sources) with pc := .sendStatus io.hmd }
        current := io.chaperone.currentId
        found := match io.chaperone.currentId, UniverseSession.searched io sources s.driver with
          | some id, some (some u) => some (id, u)
          | _, _ => s.found } := by
  simp only [step, Provider.step, frameStep, hpc]
  rfl

omit [FloatOrder F] [Arith F] [FloatConv F D] [FloatBits F 32] [FloatBits D 64] in
/-- What a call of `UpdateUniverse` leaves to the frame. -/
theorem fits_or_quiet {io : Io F D ι} {sources : Sources D} {s d : Provider F D δ} {id : UInt64}
    {found : Option (UInt64 × Universe D)} (hid : io.chaperone.currentId = some id)
    (hok : Retains io sources s → Quiet io.hmd s)
    (hsearch : s.now - s.lastUniverseSearch < seconds 1 ∨ (sources.lookup id).isNone ∧
      ¬(s.universeFallback = true ∧ s.universeFailures + 1 ≥ 3))
    (huniverse : d.universe_ = s.universe_ ∧ d.haveUniverse = s.haveUniverse ∧
      d.usingFallback = s.usingFallback)
    (hquiet : Quiet io.hmd s → Unused d) :
    Fits ⟨d, io.chaperone.currentId, found⟩ ∨ Unused d := by
  -- the universe of another id is kept, and then not used, or there is none to keep
  by_cases hret : Retains io sources s
  · exact Or.inr (hquiet (hok hret))
  · refine Or.inl fun id' hid' hhave hfallback => ?_
    cases hid.symm.trans hid'
    by_contra hne
    refine hret ⟨id, hid, huniverse.2.1 ▸ hhave, huniverse.2.2 ▸ hfallback, ?_, hsearch⟩
    rw [← huniverse.1]
    exact hne

theorem kept_updateUniverse {h : Handlers D δ ι} {io : Io F D ι} {sources : Sources D}
    {s : PlaySession F D δ} (hpc : s.driver.pc = .updateUniverse)
    (hok : Retains io sources s.driver → Quiet io.hmd s.driver) (hs : s.Kept) :
    (step h (.step io, sources) s).Kept := by
  have hexit := universeExit (io.reading sources) s.driver
  rw [step_updateUniverse sources hpc]
  generalize s.driver.updateUniverse (io.reading sources) = d at hexit
  have hnone : (∀ id, ¬s.driver.Searches (io.reading sources) id) →
      UniverseSession.searched io sources s.driver = none := UniverseSession.not_searched
  have hquiet : Quiet io.hmd s.driver → Unused { s.driver with pc := .sendStatus io.hmd } :=
    fun hq => ⟨hq.status, hq.hello, hq.pose⟩
  cases hexit with
  | unread hid =>
    rw [show io.chaperone.currentId = none from hid]
    exact ⟨hs.found, hs.fallback, Or.inl fun id hid' => by cases hid'⟩
  | known id hid hknown =>
    rw [hnone fun id' h' => by
      cases hid.symm.trans h'.current
      exact h'.unknown hknown]
    rw [show io.chaperone.currentId = some id from hid]
    refine ⟨hs.found, hs.fallback, Or.inl fun id' hid' _ _ => ?_⟩
    cases hid'
    exact hknown.2.2
  | limited id hid hnew hlimit =>
    rw [hnone fun id' h' => h'.due hlimit]
    refine ⟨?_, hs.fallback, fits_or_quiet hid hok (Or.inl hlimit) ⟨rfl, rfl, rfl⟩ hquiet⟩
    cases io.chaperone.currentId <;> exact hs.found
  | found id u hsearch hfound =>
    have hu : u.id = id := Sources.lookup_id hfound
    rw [UniverseSession.searched_of_searches hsearch, show sources.lookup id = some u from hfound,
      show io.chaperone.currentId = some id from hsearch.current]
    refine ⟨fun _ _ => ?_, fun _ h' => absurd h' Bool.false_ne_true, Or.inl fun id' hid' _ _ => ?_⟩
    · rw [hu]
    · cases hid'
      exact hu
  | fallbackKept id hsearch hlookup hfallback =>
    -- the fallback stays the zero transform, whatever its id
    rw [UniverseSession.searched_of_searches hsearch,
      show sources.lookup id = none from hlookup]
    refine ⟨fun _ h' => ?_, hs.fallback, Or.inl fun _ _ _ h' => ?_⟩
    · cases hfallback.symm.trans h'
    · cases hfallback.symm.trans h'
  | failed id hsearch hlookup hfallback hno =>
    rw [UniverseSession.searched_of_searches hsearch,
      show sources.lookup id = none from hlookup]
    refine ⟨?_, hs.fallback, fits_or_quiet hsearch.current hok (Or.inr ⟨?_, hno⟩) ⟨rfl, rfl, rfl⟩
      fun hq => ⟨hq.status, hq.hello, hq.pose⟩⟩
    · cases io.chaperone.currentId <;> exact hs.found
    · rw [show sources.lookup id = none from hlookup]
      rfl
  | adopted id hsearch hlookup hfallback hon hfailures =>
    refine ⟨fun _ h' => absurd h'.symm Bool.false_ne_true, fun _ _ => rfl,
      Or.inl fun _ _ _ h' => absurd h'.symm Bool.false_ne_true⟩

theorem kept_step (h : Handlers D δ ι) (e : Event F D δ ι) (s : PlaySession F D δ)
    (hok : Refreshed e s) (hs : s.Kept) : (step h e s).Kept := by
  obtain ⟨e, sources⟩ := e
  cases e with
  | step io =>
    by_cases hpc : s.driver.pc = .updateUniverse
    · simp only [Refreshed, hpc] at hok
      exact kept_updateUniverse hpc hok hs
    · have hstep : step h (.step io, sources) s =
          { s with driver := s.driver.frameStep h (io.reading sources) } := by
        simp only [step]
        rfl
      rw [hstep]
      exact kept_frameStep (frameStep_cases h _ _) hpc hs
  | net e => exact hs.of_same rfl rfl rfl fun hu => hu.of_others _ s.driver.devices
  | frame now =>
    show Kept { s with driver := s.driver.beginFrame now }
    rcases beginFrame_cases now s.driver with hb | ⟨-, -, hb⟩ | ⟨-, -, hb⟩ <;> rw [hb]
    · exact hs
    · exact hs.of_same rfl rfl rfl fun _ => trivial
    · exact hs.of_same rfl rfl rfl fun _ => trivial
  | outside f => exact hs.of_same rfl rfl rfl fun hu => hu.of_others s.driver.client _

/-- **In a run in which no frame uses the universe that it keeps from another id, every universe
that is announced, and every universe that a position is converted with, is the one that was found
for the id that the frame has read, or the fallback.** -/
theorem uses_current (h : Handlers D δ ι) (devices : δ) (fallback : Bool) (path : String)
    (before : List (Event F D δ ι)) (e : Event F D δ ι)
    (hes : Meets Refreshed (step h) before (init devices fallback path)) :
    UsesCurrent e (run (step h) before (init devices fallback path)) :=
  (run_invariant_of_meets (kept_step h) before hes (kept_init devices fallback path)).usesCurrent e

/-- The universe that a step uses is what it sends, or what it converts the position with. -/
theorem client_of_used {h : Handlers D δ ι} {io : Io F D ι} {sources : Sources D}
    {s : PlaySession F D δ} {u : Universe D} (hu : used (.step io, sources) s.driver = some u) :
    (step h (.step io, sources) s).driver.client
        = (s.driver.client.send (universePayload F u) io.outcome).2 ∨
      ∃ hmd, s.driver.pc = .sendHmdPose hmd ∧
        (step h (.step io, sources) s).driver.client
          = (s.driver.client.send (posePayload (some u) hmd.matrix) io.outcome).2 := by
  unfold used at hu
  split at hu
  next hmd due he hpc =>
    split at hu
    next hdue =>
      cases hu
      refine Or.inl ?_
      simp only [step, Provider.step, frameStep, hpc, sendUniverse, if_pos hdue]
      rfl
    next => cases hu
  next hmd he hpc =>
    split at hu
    next hdue =>
      refine Or.inr ⟨hmd, hpc, ?_⟩
      rw [← hu]
      simp only [step, Provider.step, frameStep, hpc, sendHmdPose, if_pos hdue]
      rfl
    next => cases hu
  next => cases hu

end Steps

/-! ## A new universe id -/

/-- Chaperone data with the universe 7. -/
def onlySeven : Sources ℚ where
  json := .ok none
  path := .ok none
  default := .ok (some (.object [("universes", .array [.object [("universeID", .unsigned 7),
    ("standing", .object [("translation", .array [.unsigned 1, .unsigned 0, .unsigned 2])])]])]))

/-- A headset that is tracked in the universe `id`, and writes that go through. -/
def headsetIn (id : UInt64) : Io ℚ ℚ Unit where
  vr := ()
  hmd := ⟨true, true, fun i j => if i.val = j.val then 1 else 0⟩
  chaperone := ⟨some id, fun _ => none⟩
  outcome := .sent 100

/-- `n` steps of a frame. -/
def frameIn (now : Int) (id : UInt64) (n : Nat) : List (Event ℚ ℚ Unit Unit) :=
  (.frame now, onlySeven) :: List.replicate n (.step (headsetIn id), onlySeven)

def connected : List (Event ℚ ℚ Unit Unit) :=
  [(.net .connect, onlySeven), (.net .publish, onlySeven)]

/-- In the first frame the universe is found. -/
theorem uses_current_first :
    UsesCurrent (.step (headsetIn 7), onlySeven)
      (run (step .idle) (connected ++ frameIn (seconds 5) 7 8) (init () true "")) :=
  uses_current .idle () true "" _ _ (by decide +kernel)

/-- The headset is recentred, and the position is converted with the universe of before. -/
theorem not_current :
    ¬∀ (es : List (Event ℚ ℚ Unit Unit)) (e : Event ℚ ℚ Unit Unit),
      UsesCurrent e (run (step .idle) es (init () true "")) := by
  intro h
  have hlast := h (connected ++ frameIn (seconds 5) 7 9 ++ frameIn (seconds 7) 8 7)
    (.step (headsetIn 8), onlySeven) ⟨7, 1, 0, 2, 0⟩ (by decide +kernel) 8 (by decide +kernel)
  exact absurd hlast (by decide +kernel)

end PlaySession

end Rebocap.Driver
