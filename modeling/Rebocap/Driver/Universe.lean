import Rebocap.Driver.Chaperone

/-!
# The universe of the driver

`UpdateUniverse` as a state machine, under every sequence of ids, contents of the sources and
times. Between two calls the frames announce the universe.

* `UniverseSession.never_downgrades` — what a call can change, and that a universe is kept while
  the headset has the id it was found for
-/

namespace Rebocap.Driver

open Lib Net FloatOrder Arith Provider

variable {F D δ ι : Type}

/-! ## Sessions -/

/-- The driver, and how many searches have failed since the last one that succeeded. -/
structure UniverseSession (F D δ : Type) where
  driver : Provider F D δ
  failed : Nat

namespace UniverseSession

inductive Event (F D ι : Type) where
  | call (now : Int) (io : Io F D ι) (sources : Sources D)
  /-- What the frames and the network thread do in between. -/
  | between (helloSent : Bool) (client : Client)

def init [Zero D] (devices : δ) (universeFallback : Bool) (defaultChaperone : String) :
    UniverseSession F D δ where
  driver := .init devices universeFallback defaultChaperone
  failed := 0

/-- The driver when a call starts. -/
def atCall (now : Int) (s : UniverseSession F D δ) : Provider F D δ := { s.driver with now := now }

section Steps

variable [FloatOrder D] [Arith D]

/-- What the search of a call finds, none where the call does not search. -/
def searched (io : Io F D ι) (sources : Sources D) (s : Provider F D δ) :
    Option (Option (Universe D)) :=
  match io.chaperone.currentId with
  | none => none
  | some id =>
    if s.Known id ∨ s.now - s.lastUniverseSearch < seconds 1 then none
    else some (sources.lookup id)

def step (e : Event F D ι) (s : UniverseSession F D δ) : UniverseSession F D δ :=
  match e with
  | .call now io sources =>
    { driver := (s.atCall now).updateUniverse (io.reading sources)
      failed := match searched io sources (s.atCall now) with
        | none => s.failed
        | some none => s.failed + 1
        | some (some _) => 0 }
  | .between helloSent client =>
    { s with driver := { s.driver with helloSent := helloSent, client := client } }

theorem step_call (now : Int) (io : Io F D ι) (sources : Sources D)
    (s : UniverseSession F D δ) :
    step (.call now io sources) s =
      { driver := (s.atCall now).updateUniverse (io.reading sources)
        failed := match searched io sources (s.atCall now) with
          | none => s.failed
          | some none => s.failed + 1
          | some (some _) => 0 } := rfl

theorem searched_of_searches {io : Io F D ι} {sources : Sources D} {s : Provider F D δ}
    {id : UInt64} (h : s.Searches (io.reading sources) id) :
    searched io sources s = some (sources.lookup id) := by
  have hid : io.chaperone.currentId = some id := h.current
  simp only [searched, hid]
  exact if_neg (not_or.mpr ⟨h.unknown, h.due⟩)

theorem searches_of_searched {io : Io F D ι} {sources : Sources D} {s : Provider F D δ}
    {r : Option (Universe D)} (h : searched io sources s = some r) :
    ∃ id, s.Searches (io.reading sources) id ∧ r = sources.lookup id := by
  unfold searched at h
  split at h
  next => cases h
  next id hid =>
    split at h
    · cases h
    next hs =>
      obtain ⟨hunknown, hdue⟩ := not_or.mp hs
      exact ⟨id, ⟨hid, hunknown, hdue⟩, (Option.some.inj h).symm⟩

/-! ## One call -/

/-- What a call can change. -/
structure Advances (now : Int) (io : Io F D ι) (sources : Sources D)
    (s s' : UniverseSession F D δ) : Prop where
  fallback : s'.driver.universeFallback = s.driver.universeFallback
  have_universe : s.driver.haveUniverse = true → s'.driver.haveUniverse = true
  announced : s'.driver.universe_ ≠ s.driver.universe_ → s'.driver.helloSent = false
  failures_le : s.driver.universeFailures ≤ s.failed → s'.driver.universeFailures ≤ s'.failed
  adopted : s.driver.usingFallback = false → s'.driver.usingFallback = true →
    s.driver.universeFallback = true ∧ 3 ≤ s'.driver.universeFailures ∧
      ∃ id, io.chaperone.currentId = some id ∧ s'.driver.universe_ = Universe.zero id
  found : ∀ u, searched io sources (s.atCall now) = some (some u) →
    s'.driver.universe_ = u ∧ s'.driver.haveUniverse = true ∧ s'.driver.usingFallback = false

/-- A call that does not search leaves all as it is. -/
theorem advances_of_not_searched {now : Int} {io : Io F D ι} {sources : Sources D}
    {s : UniverseSession F D δ} (h : searched io sources (s.atCall now) = none) :
    Advances now io sources s { s with driver := s.atCall now } where
  fallback := rfl
  have_universe h := h
  announced h := absurd rfl h
  failures_le h := h
  adopted h h' := absurd (h.symm.trans h') Bool.false_ne_true
  found u hu := by
    rw [h] at hu
    cases hu

theorem not_searched {io : Io F D ι} {sources : Sources D} {s : Provider F D δ}
    (h : ∀ id, ¬s.Searches (io.reading sources) id) : searched io sources s = none := by
  cases hs : searched io sources s with
  | none => rfl
  | some r =>
    obtain ⟨id, hsearch, -⟩ := searches_of_searched hs
    exact absurd hsearch (h id)

/-- A search that finds nothing counts, and gives no universe. -/
theorem advances_of_failed {now : Int} {io : Io F D ι} {sources : Sources D}
    {s : UniverseSession F D δ} {d : Provider F D δ}
    (h : searched io sources (s.atCall now) = some none)
    (hfallback : d.universeFallback = s.driver.universeFallback)
    (hhave : s.driver.haveUniverse = true → d.haveUniverse = true)
    (hannounced : d.universe_ ≠ s.driver.universe_ → d.helloSent = false)
    (hfailures : d.universeFailures ≤ s.driver.universeFailures + 1)
    (hadopted : s.driver.usingFallback = false → d.usingFallback = true →
      s.driver.universeFallback = true ∧ 3 ≤ d.universeFailures ∧
        ∃ id, io.chaperone.currentId = some id ∧ d.universe_ = Universe.zero id) :
    Advances now io sources s { driver := d, failed := s.failed + 1 } where
  fallback := hfallback
  have_universe := hhave
  announced := hannounced
  failures_le hle := Nat.le_trans hfailures (Nat.succ_le_succ hle)
  adopted := hadopted
  found u hu := by
    rw [h] at hu
    cases hu

theorem advances_call (now : Int) (io : Io F D ι) (sources : Sources D)
    (s : UniverseSession F D δ) : Advances now io sources s (step (.call now io sources) s) := by
  have hexit := universeExit (io.reading sources) (s.atCall now)
  rw [step_call]
  generalize (s.atCall now).updateUniverse (io.reading sources) = d at hexit
  cases hexit with
  | unread h =>
    have hnone : searched io sources (s.atCall now) = none :=
      not_searched fun id hs => by cases h.symm.trans hs.current
    rw [hnone]
    exact advances_of_not_searched hnone
  | known id hid h =>
    have hnone : searched io sources (s.atCall now) = none :=
      not_searched fun id' hs => by
        cases hid.symm.trans hs.current
        exact hs.unknown h
    rw [hnone]
    exact advances_of_not_searched hnone
  | limited id hid hnew h =>
    have hnone : searched io sources (s.atCall now) = none :=
      not_searched fun id' hs => hs.due h
    rw [hnone]
    exact advances_of_not_searched hnone
  | found id u h hfound =>
    have hsearched : searched io sources (s.atCall now) = some (some u) :=
      (searched_of_searches h).trans (congrArg some hfound)
    rw [hsearched]
    exact {
      fallback := rfl
      have_universe := fun _ => rfl
      announced := fun _ => rfl
      failures_le := fun _ => Nat.le_refl 0
      adopted := fun _ h' => absurd h' Bool.false_ne_true
      found := fun v hv => by
        cases hsearched.symm.trans hv
        exact ⟨rfl, rfl, rfl⟩ }
  | fallbackKept id h hnone =>
    have hsearched : searched io sources (s.atCall now) = some none :=
      (searched_of_searches h).trans (congrArg some hnone)
    rw [hsearched]
    exact advances_of_failed hsearched rfl (fun h => h) (fun h => absurd rfl h) (Nat.le_succ _)
      fun h h' => absurd (h.symm.trans h') Bool.false_ne_true
  | failed id h hnone =>
    have hsearched : searched io sources (s.atCall now) = some none :=
      (searched_of_searches h).trans (congrArg some hnone)
    rw [hsearched]
    exact advances_of_failed hsearched rfl (fun h => h) (fun h => absurd rfl h) (Nat.le_refl _)
      fun h h' => absurd (h.symm.trans h') Bool.false_ne_true
  | adopted id h hnone _ hon hfailures =>
    have hsearched : searched io sources (s.atCall now) = some none :=
      (searched_of_searches h).trans (congrArg some hnone)
    rw [hsearched]
    exact advances_of_failed hsearched rfl (fun _ => rfl) (fun _ => rfl) (Nat.le_refl _)
      fun _ _ => ⟨hon, hfailures, id, h.current, rfl⟩

/-! ## Every run -/

/-- The counter of the driver, and its configuration. -/
structure Counted (universeFallback : Bool) (s : UniverseSession F D δ) : Prop where
  fallback : s.driver.universeFallback = universeFallback
  failures_le : s.driver.universeFailures ≤ s.failed

theorem counted_step {universeFallback : Bool} (e : Event F D ι) (s : UniverseSession F D δ)
    (hs : s.Counted universeFallback) : (step e s).Counted universeFallback := by
  cases e with
  | call now io sources =>
    have h := advances_call now io sources s
    exact ⟨h.fallback.trans hs.fallback, h.failures_le hs.failures_le⟩
  | between helloSent client => exact ⟨hs.fallback, hs.failures_le⟩

/-- The headset has the id, or it cannot be read. -/
def Reports (id : UInt64) : Event F D ι → Prop
  | .call _ io _ => io.chaperone.currentId = none ∨ io.chaperone.currentId = some id
  | .between .. => True

/-- The call leaves all but the time as it is. -/
theorem call_of_known {id : UInt64} {now : Int} {io : Io F D ι} {sources : Sources D}
    {s : UniverseSession F D δ} (hs : s.driver.Known id)
    (hid : Reports id (.call now io sources)) :
    step (.call now io sources) s = { s with driver := { s.driver with now := now } } := by
  have hnone : searched io sources (s.atCall now) = none := by
    refine not_searched fun id' h => ?_
    rcases hid with hid | hid
    · cases hid.symm.trans h.current
    · cases hid.symm.trans h.current
      exact h.unknown hs
  have hexit := universeExit (io.reading sources) (s.atCall now)
  have hsame : (s.atCall now).updateUniverse (io.reading sources) = s.atCall now := by
    generalize (s.atCall now).updateUniverse (io.reading sources) = d at hexit
    cases hexit with
    | unread | known | limited => rfl
    | found _ _ h | fallbackKept _ h | failed _ h | adopted _ h =>
      cases hnone.symm.trans (searched_of_searches h)
  rw [step_call, hnone, hsame]
  rfl

/-- The universe is the one that was found. -/
structure Holds (u : Universe D) (s : UniverseSession F D δ) : Prop where
  universe_ : s.driver.universe_ = u
  have_universe : s.driver.haveUniverse = true
  found : s.driver.usingFallback = false

omit [FloatOrder D] [Arith D] in
theorem Holds.known {u : Universe D} {s : UniverseSession F D δ} (hs : s.Holds u) :
    s.driver.Known u.id :=
  ⟨hs.have_universe, hs.found, congrArg Universe.id hs.universe_⟩

theorem holds_step {u : Universe D} (e : Event F D ι) (s : UniverseSession F D δ)
    (he : Reports u.id e) (hs : s.Holds u) : (step e s).Holds u := by
  cases e with
  | call now io sources =>
    rw [call_of_known hs.known he]
    exact ⟨hs.universe_, hs.have_universe, hs.found⟩
  | between helloSent client => exact ⟨hs.universe_, hs.have_universe, hs.found⟩

/-- **The universe is never downgraded.** In every run, a call keeps `have_universe_` and clears
`hello_sent_` where it changes `universe_`; it adopts the fallback only where that is on and three
searches or more have failed since the last one that succeeded, as the zero transform for the
current id; a search that succeeds ends it. The universe that is found has the id that the headset
reports, and while it does, no call changes it, or whether it is announced. -/
theorem never_downgrades (devices : δ) (universeFallback : Bool) (path : String)
    (es : List (Event F D ι)) (now : Int) (io : Io F D ι) (sources : Sources D) :
    let s : UniverseSession F D δ := run step es (init devices universeFallback path)
    let s' := step (.call now io sources) s
    (s.driver.haveUniverse = true → s'.driver.haveUniverse = true) ∧
      (s'.driver.universe_ ≠ s.driver.universe_ → s'.driver.helloSent = false) ∧
      (s.driver.usingFallback = false → s'.driver.usingFallback = true →
        universeFallback = true ∧ 3 ≤ s'.failed ∧
          ∃ id, io.chaperone.currentId = some id ∧ s'.driver.universe_ = Universe.zero id) ∧
      ∀ u, searched io sources (s.atCall now) = some (some u) →
        io.chaperone.currentId = some u.id ∧ s'.Holds u ∧
          ∀ later : List (Event F D ι), (∀ e ∈ later, Reports u.id e) →
            let t := run step later s'
            t.Holds u ∧ ∀ now' (io' : Io F D ι) sources', Reports u.id (.call now' io' sources') →
              (step (.call now' io' sources') t).driver.helloSent = t.driver.helloSent := by
  intro s s'
  have hs : s.Counted universeFallback :=
    run_invariant counted_step es ⟨rfl, Nat.le_refl 0⟩
  have h : Advances now io sources s s' := advances_call now io sources s
  refine ⟨h.have_universe, h.announced, ?_, ?_⟩
  · intro hoff hon
    obtain ⟨hfallback, hfailures, hzero⟩ := h.adopted hoff hon
    exact ⟨hs.fallback ▸ hfallback, Nat.le_trans hfailures (h.failures_le hs.failures_le), hzero⟩
  · intro u hu
    obtain ⟨id, hsearch, hlookup⟩ := searches_of_searched hu
    have hid : u.id = id := Sources.lookup_id hlookup.symm
    obtain ⟨huniverse, hhave, hfound⟩ := h.found u hu
    have hholds : s'.Holds u := ⟨huniverse, hhave, hfound⟩
    refine ⟨hid ▸ hsearch.current, hholds, fun later hlater => ?_⟩
    have ht : (run step later s').Holds u :=
      run_invariant_of_meets holds_step later (Meets.of_forall later hlater) hholds
    refine ⟨ht, fun now' io' sources' hreports => ?_⟩
    rw [call_of_known ht.known hreports]

end Steps

end UniverseSession

end Rebocap.Driver
