import Rebocap.Driver.Sends
import Rebocap.Lib.RatScalar
import Rebocap.Lib.RateLimit

/-!
# How often the driver does things

`RunFrame` runs as often as SteamVR calls it. What it does not do in every frame it does by the
clock: it sends the headset's pose, looks for the play space and checks the trackers.

* `rates` — how much of it a stretch of time holds
* `path_failed_paced` — what lies between two reports of a failed lookup
-/

namespace Rebocap.Driver

open Lib Proto Net FloatConv FloatBits

/-! ## Looking for the play space -/

/-- How a lookup ends. A failure may be reported. -/
inductive Outcome where
  | found
  | fallbackKept
  | failed (report : Option Bytes)
deriving DecidableEq

/-- What `UpdateUniverse` remembers of its lookups. -/
structure Search where
  last : Int
  failures : Nat
  usingFallback : Bool
  universeFallback : Bool

namespace Search

def step : Int × Outcome → Search → Search
  | (t, .found), s => { s with last := t, failures := 0, usingFallback := false }
  | (t, .fallbackKept), s => { s with last := t }
  | (t, .failed _), s =>
    { s with
      last := t
      failures := s.failures + 1
      usingFallback := s.universeFallback && s.failures + 1 ≥ 3 }

/-- A lookup that can come next. -/
structure Allows (o : Int × Outcome) (s : Search) : Prop where
  due : s.last + seconds 1 ≤ o.1
  kept : o.2 = .fallbackKept → s.usingFallback = true
  failed : ∀ report, o.2 = .failed report →
    s.usingFallback = false ∧ (report.isSome = true ↔ s.failures % 30 = 0)

/-- The fallback is adopted with the third failure. -/
def Adopts (s : Search) : Prop :=
  s.universeFallback = true → s.usingFallback = true ∨ s.failures < 3

theorem adopts_step (o : Int × Outcome) {s : Search} (h : s.Adopts) : (step o s).Adopts := by
  obtain ⟨t, o⟩ := o
  cases o with
  | found => exact fun _ => Or.inr (by simp [step])
  | fallbackKept => exact h
  | failed report =>
    intro hon
    have hon : s.universeFallback = true := hon
    by_cases h3 : s.failures + 1 ≥ 3
    · exact Or.inl (by simp [step, hon, h3])
    · exact Or.inr (by simpa only [step] using Nat.lt_of_not_le h3)

/-- The lookups since a failure: each takes a second, and none but a failure is counted. -/
structure Since (t : Int) (failures : Nat) (s : Search) : Prop where
  counted : failures ≤ s.failures
  spent : t + seconds (s.failures - failures) ≤ s.last

theorem Since.step {t : Int} {n : Nat} {o : Int × Outcome} {s : Search} (h : Since t n s)
    (hallows : Allows o s) (hfound : o.2 ≠ .found) : Since t n (step o s) := by
  obtain ⟨t', o⟩ := o
  have hdue : s.last + seconds 1 ≤ t' := hallows.due
  obtain ⟨hcounted, hspent⟩ := h
  unfold seconds at *
  cases o with
  | found => exact absurd rfl hfound
  | fallbackKept => exact ⟨hcounted, by simp only [Search.step, seconds]; omega⟩
  | failed report =>
    refine ⟨Nat.le_succ_of_le hcounted, ?_⟩
    simp only [Search.step, seconds]
    push_cast
    omega

theorem Since.run {t : Int} {n : Nat} : ∀ (os : List (Int × Outcome)) {s : Search},
    Since t n s → Meets Allows Search.step os s → (∀ o ∈ os, o.2 ≠ .found) →
    Since t n (Lib.run Search.step os s) := by
  intro os
  induction os with
  | nil => exact fun h _ _ => h
  | cons o os ih =>
    rintro s h ⟨ho, hos⟩ hfound
    exact ih (h.step ho (hfound o List.mem_cons_self)) hos
      fun o' ho' => hfound o' (List.mem_cons_of_mem o ho')

theorem universeFallback_run (os : List (Int × Outcome)) (s : Search) :
    (run step os s).universeFallback = s.universeFallback := by
  have hstep : ∀ (o : Int × Outcome) (s' : Search),
      s'.universeFallback = s.universeFallback →
      (step o s').universeFallback = s.universeFallback := by
    rintro ⟨t, o⟩ s' h
    cases o <;> exact h
  exact run_invariant hstep os rfl

/-- **Two reported failures with no success between them are 30 s apart.** With the fallback there
is no second one. -/
theorem apart {a b c : List (Int × Outcome)} {t t' : Int} {p p' : Bytes} {s : Search}
    (hmeets : Meets Allows step
      (a ++ (t, .failed (some p)) :: (b ++ (t', .failed (some p')) :: c)) s)
    (hadopts : s.Adopts) (hfound : ∀ o ∈ b, o.2 ≠ .found) :
    s.universeFallback = false ∧ t + seconds 30 ≤ t' := by
  obtain ⟨ha, hfirst, hrest⟩ := Meets.append_iff.mp hmeets
  obtain ⟨hb, hsecond, -⟩ := Meets.append_iff.mp hrest
  have hadopts' :=
    run_invariant (fun o _ h => adopts_step o h) (a ++ (t, .failed (some p)) :: b) hadopts
  rw [run_append, run_cons] at hadopts'
  have hconst := universeFallback_run (a ++ (t, .failed (some p)) :: b) s
  rw [run_append, run_cons] at hconst
  generalize run step a s = before at *
  obtain ⟨-, hreported⟩ := hfirst.failed _ rfl
  have hsince : Since t (before.failures + 1) (step (t, .failed (some p)) before) :=
    ⟨Nat.le_refl _, by simp [step, seconds]⟩
  have hsince' := hsince.run b hb hfound
  generalize run step b (step (t, .failed (some p)) before) = after at *
  obtain ⟨hkept, hreported'⟩ := hsecond.failed _ rfl
  have hdue : after.last + seconds 1 ≤ t' := hsecond.due
  have hcounted := hsince'.counted
  have hspent := hsince'.spent
  have h30 : before.failures % 30 = 0 := hreported.mp rfl
  have h30' : after.failures % 30 = 0 := hreported'.mp rfl
  constructor
  · rw [← hconst]
    by_contra hon
    rcases hadopts' (by simpa using hon) with hfallback | hfew
    · rw [hkept] at hfallback
      cases hfallback
    · omega
  · unfold seconds at *
    omega

end Search

namespace Provider

variable {F D δ ι : Type} [FloatOrder F] [Arith F] [FloatOrder D] [Arith D] [FloatConv F D]
  [FloatBits F 32] [FloatBits D 64]

def search (s : Provider F D δ) : Search where
  last := s.lastUniverseSearch
  failures := s.universeFailures
  usingFallback := s.usingFallback
  universeFallback := s.universeFallback

/-- How the lookup of `id` ends. -/
def outcome (io : Io F D ι) (id : UInt64) (s : Provider F D δ) : Outcome :=
  if (io.chaperone.lookup id).isSome then .found
  else if s.usingFallback then .fallbackKept
  else .failed (payloadOf io s)

/-- The lookup of a step, and when its frame has started. -/
def searches : Event F D δ ι → Provider F D δ → List (Int × Outcome)
  | .step io, s =>
    match s.pc with
    | .updateUniverse => (searched io s).toList.map fun id => (s.now, outcome io id s)
    | _ => []
  | _, _ => []

/-- What a step remembers of its lookup, and that it could come next. -/
def Follows (os : List (Int × Outcome)) (s s' : Search) : Prop :=
  s' = run Search.step os s ∧ Meets Search.Allows Search.step os s

theorem follows_nil (s : Search) : Follows [] s s := ⟨rfl, trivial⟩

/-- A lookup that `UpdateUniverse` makes. -/
theorem follows_searched {io : Io F D ι} {s : Provider F D δ} {id : UInt64} {o : Outcome}
    {s' : Search} (hsearch : s.Searches io id) (ho : outcome io id s = o)
    (hkept : o = .fallbackKept → s.usingFallback = true)
    (hfailed : ∀ report, o = .failed report →
      s.usingFallback = false ∧ (report.isSome = true ↔ s.universeFailures % 30 = 0))
    (hs' : s' = Search.step (s.now, o) s.search) :
    Follows ((searched io s).toList.map fun id => (s.now, outcome io id s)) s.search s' := by
  rw [searched_eq_some.mpr hsearch]
  have hdue : s.lastUniverseSearch + seconds 1 ≤ s.now := by
    have := hsearch.due
    omega
  subst ho
  exact ⟨hs', ⟨hdue, hkept, hfailed⟩, trivial⟩

/-- Every 30th failure is reported. -/
theorem report_of_failed {io : Io F D ι} {s : Provider F D δ} {id : UInt64}
    (hpc : s.pc = .updateUniverse) (hsearch : s.Searches io id)
    (hnone : io.chaperone.lookup id = none) (hfallback : s.usingFallback = false) :
    outcome io id s = .failed (payloadOf io s) ∧
      ((payloadOf io s).isSome = true ↔ s.universeFailures % 30 = 0) := by
  have hdue : pathFailedDue io s = (s.universeFailures % 30 == 0) := by
    simp [pathFailedDue, searched_eq_some.mpr hsearch, hnone, hfallback]
  constructor
  · simp [outcome, hnone, hfallback]
  · simp [payloadOf, hpc, hdue]

theorem follows_updateUniverse (io : Io F D ι) {s : Provider F D δ}
    (hpc : s.pc = .updateUniverse) :
    Follows ((searched io s).toList.map fun id => (s.now, outcome io id s)) s.search
      (s.updateUniverse io).search := by
  have hquiet : searched io s = none →
      Follows ((searched io s).toList.map fun id => (s.now, outcome io id s)) s.search
        s.search := by
    intro hnone
    rw [hnone]
    exact follows_nil _
  have hexit := universeExit io s
  generalize s.updateUniverse io = s' at hexit
  cases hexit with
  | unread hid => exact hquiet (by simp [searched, hid])
  | known id hid hknown => exact hquiet (by simp [searched, hid, hknown])
  | limited id hid hnew hlimit => exact hquiet (by simp [searched, hid, hlimit])
  | found id u hsearch hfound =>
    exact follows_searched (o := .found) hsearch (by simp [outcome, hfound])
      (fun h => by cases h) (fun _ h => by cases h) rfl
  | fallbackKept id hsearch hnone hfallback =>
    exact follows_searched (o := .fallbackKept) hsearch (by simp [outcome, hnone, hfallback])
      (fun _ => hfallback) (fun _ h => by cases h) rfl
  | failed id hsearch hnone hfallback hno =>
    obtain ⟨houtcome, hreport⟩ := report_of_failed hpc hsearch hnone hfallback
    refine follows_searched hsearch houtcome (fun h => by cases h) ?_ ?_
    · rintro _ ⟨⟩
      exact ⟨hfallback, hreport⟩
    · have hfew : s.universeFallback = true → s.universeFailures < 2 := by
        intro hon
        have := not_and.mp hno hon
        omega
      simpa [search, Search.step, hfallback] using hfew
  | adopted id hsearch hnone hfallback hon hfailures =>
    obtain ⟨houtcome, hreport⟩ := report_of_failed hpc hsearch hnone hfallback
    refine follows_searched hsearch houtcome (fun h => by cases h) ?_ ?_
    · rintro _ ⟨⟩
      exact ⟨hfallback, hreport⟩
    · have h3 : s.universeFailures + 1 ≥ 3 := hfailures
      simp [search, Search.step, hon, h3]

/-- Only `UpdateUniverse` touches it. -/
theorem search_frameStep {h : Handlers D δ ι} {io : Io F D ι} {s : Provider F D δ}
    (hpc : s.pc ≠ .updateUniverse) : (s.frameStep h io).search = s.search := by
  have hstep := frameStep_cases h io s
  generalize s.frameStep h io = s' at hstep
  cases hstep with
  | universeKept t hpc' | universeFound id found hpc' | universeNotFound id c hpc'
  | universeFallback id c hpc' => exact absurd hpc' hpc
  | _ => rfl

/-- **The lookups are those of the machine.** -/
theorem follows_step (h : Handlers D δ ι) (e : Event F D δ ι) (s : Provider F D δ) :
    Follows (searches e s) s.search (step h e s).search := by
  cases e with
  | net e | outside f => exact follows_nil _
  | frame now =>
    show Follows [] s.search (s.beginFrame now).search
    rcases beginFrame_cases now s with hs | ⟨-, -, hs⟩ | ⟨-, -, hs⟩ <;> rw [hs]
    all_goals exact follows_nil _
  | step io =>
    by_cases hpc : s.pc = .updateUniverse
    · have hsearch : (step h (.step io) s).search = (s.updateUniverse io).search := by
        show (s.frameStep h io).search = _
        rw [frameStep, hpc]
        rfl
      have hsearches : searches (.step io) s
          = (searched io s).toList.map fun id => (s.now, outcome io id s) := by
        rw [searches, hpc]
      rw [hsearch, hsearches]
      exact follows_updateUniverse io hpc
    · have hnone : searches (.step io) s = [] := by
        rw [searches]
        split
        · contradiction
        · rfl
      rw [hnone, show (step h (.step io) s).search = s.search from search_frameStep hpc]
      exact follows_nil _

/-! ## The whole run -/

/-- The lookups of a run. -/
def lookups (h : Handlers D δ ι) (devices : δ) (universeFallback : Bool)
    (defaultChaperone : String) (es : List (Event F D δ ι)) : List (Int × Outcome) :=
  trace searches (step h) es (init devices universeFallback defaultChaperone)

theorem meets_lookups (h : Handlers D δ ι) : ∀ (es : List (Event F D δ ι)) (s : Provider F D δ),
    Meets Search.Allows Search.step (trace searches (step h) es s) s.search := by
  intro es
  induction es with
  | nil => exact fun _ => trivial
  | cons e es ih =>
    intro s
    obtain ⟨hnext, hmeets⟩ := follows_step h e s
    rw [trace_cons, Meets.append_iff, ← hnext]
    exact ⟨hmeets, ih _⟩

/-- **Between two `path_failed` there is a lookup that succeeds, or there are 30 s**, in every run.
With the fallback in use there is such a lookup. -/
theorem path_failed_paced (h : Handlers D δ ι) (devices : δ) (fallback : Bool) (path : String)
    (es : List (Event F D δ ι)) {a b c : List (Int × Outcome)} {t t' : Int} {p p' : Bytes}
    (hlookups : lookups h devices fallback path es
      = a ++ (t, .failed (some p)) :: (b ++ (t', .failed (some p')) :: c))
    (hfound : ∀ o ∈ b, o.2 ≠ .found) : fallback = false ∧ t + seconds 30 ≤ t' := by
  have hmeets := meets_lookups h es (init (F := F) (D := D) devices fallback path)
  rw [show trace searches (step h) es _ = _ from hlookups] at hmeets
  exact Search.apart hmeets (fun _ => Or.inr (show 0 < 3 by decide)) hfound

/-- A headset whose play space is in no file. -/
def withoutPlaySpace : Io ℚ ℚ Unit where
  vr := ()
  hmd := ⟨true, true, fun i j => if i.val = j.val then 1 else 0⟩
  chaperone := ⟨some 1, fun _ => none⟩
  outcome := .wouldBlock

/-- Half a minute of frames, one in each second. -/
def halfMinute : List (Event ℚ ℚ Unit Unit) :=
  [.net .connect, .net .publish] ++ (List.range 31).flatMap fun k =>
    .frame (seconds (k + 1)) :: List.replicate 9 (.step withoutPlaySpace)

theorem path_failed_paced_halfMinute :
    lookups .idle () false "" halfMinute
        = [] ++ (seconds 1, .failed (some (encodePathFailed 1))) ::
          ((List.range 29).map (fun (k : Nat) => (seconds (k + 2), .failed none)) ++
            (seconds 31, .failed (some (encodePathFailed 1))) :: []) ∧
      seconds 1 + seconds 30 ≤ seconds 31 := by
  have hlookups : lookups .idle () false "" halfMinute
      = [] ++ (seconds 1, .failed (some (encodePathFailed 1))) ::
        ((List.range 29).map (fun (k : Nat) => (seconds (k + 2), .failed none)) ++
          (seconds 31, .failed (some (encodePathFailed 1))) :: []) := by decide +kernel
  have hfound : ∀ o ∈ (List.range 29).map
      (fun (k : Nat) => (seconds (k + 2), Outcome.failed none)), o.2 ≠ .found := by decide
  exact ⟨hlookups, (path_failed_paced .idle () false "" halfMinute hlookups hfound).2⟩

/-! ## By the clock -/

/-- When a step passes a message of a kind to `send`. -/
def sentAt (kind : MsgKind) : Event F D δ ι → Provider F D δ → List Int
  | .step io, s => if (payloadOf io s).bind payloadKind = some kind then [s.now] else []
  | _, _ => []

/-- When a step looks for the play space. -/
def searchedAt (e : Event F D δ ι) (s : Provider F D δ) : List Int := (searches e s).map Prod.fst

/-- When a step calls `CheckTimeout` on the trackers. -/
def checkedAt : Event F D δ ι → Provider F D δ → List Int
  | .step _, s =>
    let due := s.now - s.lastTimeoutCheck > milliseconds 200
    match s.pc with
    | .offline => if due then [s.now] else []
    | .messages => if s.inbox[s.next]? = none ∧ due then [s.now] else []
    | _ => []
  | _, _ => []

/-- **The times of a step are its calls**: it calls `CheckTimeout` once for each, after all else
that it does to the devices. -/
theorem devices_checkedAt (h : Handlers D δ ι) (io : Io F D ι) (s : Provider F D δ) :
    (s.frameStep h io).devices = (checkedAt (.step io) s).foldl
      (fun d _ => h.checkTimeouts io.vr d)
      (s.frameStep { h with checkTimeouts := fun _ d => d } io).devices := by
  have hcheck : ∀ s' : Provider F D δ, (checkTimeouts h io s').devices =
      (if s'.now - s'.lastTimeoutCheck > milliseconds 200 then [s'.now] else []).foldl
        (fun d _ => h.checkTimeouts io.vr d) s'.devices := by
    intro s'
    unfold checkTimeouts
    split <;> rfl
  have hidle : ∀ s' : Provider F D δ,
      (checkTimeouts { h with checkTimeouts := fun _ d => d } io s').devices = s'.devices := by
    intro s'
    unfold checkTimeouts
    split <;> rfl
  cases hpc : s.pc with
  | offline => simp only [frameStep, checkedAt, hpc, hcheck, hidle]
  | messages =>
    simp only [frameStep, checkedAt, hpc, handleMessage]
    cases hm : s.inbox[s.next]? with
    | some m => simp
    | none => simp only [hcheck, hidle, true_and]
  | _ => simp only [frameStep, checkedAt, hpc, sendStatus, sendUniverse, sendHmdPose,
      List.foldl_nil]

omit [FloatOrder F] [Arith F] [FloatOrder D] [Arith D] [FloatConv F D] [FloatBits F 32]
  [FloatBits D 64] in
/-- Where a frame starts, no clock is moved. -/
theorem clocks_beginFrame (now : Int) (s : Provider F D δ) :
    (s.beginFrame now).lastHmdSend = s.lastHmdSend ∧
      (s.beginFrame now).lastTimeoutCheck = s.lastTimeoutCheck := by
  rcases beginFrame_cases now s with hs | ⟨-, -, hs⟩ | ⟨-, -, hs⟩ <;> rw [hs]
  all_goals exact ⟨rfl, rfl⟩

theorem lastHmdSend_frameStep {h : Handlers D δ ι} {io : Io F D ι} {s : Provider F D δ}
    (hpc : ∀ hmd, s.pc ≠ .sendHmdPose hmd) : (s.frameStep h io).lastHmdSend = s.lastHmdSend := by
  have hstep := frameStep_cases h io s
  generalize s.frameStep h io = s' at hstep
  cases hstep with
  | pose hmd hpc' | poseSkipped hmd hpc' => exact absurd hpc' (hpc hmd)
  | _ => rfl

/-- A pose is passed to `send` in one place. -/
theorem pc_of_sentAt_position {io : Io F D ι} {s : Provider F D δ}
    (h : (payloadOf io s).bind payloadKind = some .position) : ∃ hmd, s.pc = .sendHmdPose hmd := by
  obtain ⟨p, hp, hkind⟩ := Option.bind_eq_some_iff.mp h
  unfold payloadOf at hp
  split at hp
  · obtain ⟨-, ⟨⟩⟩ := Option.ite_none_right_eq_some.mp hp
    simp [HandshakeSession.pathFailedPayload] at hkind
  · obtain ⟨-, ⟨⟩⟩ := Option.ite_none_right_eq_some.mp hp
    simp at hkind
  · obtain ⟨-, ⟨⟩⟩ := Option.ite_none_right_eq_some.mp hp
    simp at hkind
  next hmd hpc => exact ⟨hmd, hpc⟩
  · cases hp

/-- The headset's pose is passed on at most every 10 ms. -/
theorem limits_pose (h : Handlers D δ ι) :
    Limits (milliseconds 10) lastHmdSend (step h) (sentAt (F := F) (D := D) .position) := by
  intro e s
  cases e with
  | net e | outside f => exact Or.inl ⟨rfl, rfl⟩
  | frame now => exact Or.inl ⟨rfl, (clocks_beginFrame now s).1⟩
  | step io =>
    by_cases hpc : ∃ hmd, s.pc = .sendHmdPose hmd
    · obtain ⟨hmd, hpc⟩ := hpc
      show (_ ∧ (s.frameStep h io).lastHmdSend = _) ∨
        ∃ t, _ ∧ _ ∧ (s.frameStep h io).lastHmdSend = t
      rw [frameStep, hpc]
      by_cases hdue : s.now - s.lastHmdSend ≥ milliseconds 10
      · refine Or.inr ⟨s.now, ?_, by omega, ?_⟩
        · simp [sentAt, payloadOf, hpc, hdue]
        · simp [sendHmdPose, hdue]
      · refine Or.inl ⟨?_, ?_⟩
        · simp [sentAt, payloadOf, hpc, hdue]
        · simp [sendHmdPose, hdue]
    · have hnone : sentAt .position (.step io) s = [] :=
        if_neg fun hsent => hpc (pc_of_sentAt_position hsent)
      exact Or.inl ⟨hnone, lastHmdSend_frameStep (not_exists.mp hpc)⟩

/-- The play space is looked for at most every second. -/
theorem limits_search (h : Handlers D δ ι) :
    Limits (seconds 1) lastUniverseSearch (step h) (searchedAt (F := F) (D := D)) := by
  intro e s
  obtain ⟨hnext, hmeets⟩ := follows_step h e s
  have hlast : (step h e s).lastUniverseSearch = (run Search.step (searches e s) s.search).last :=
    congrArg Search.last hnext
  have hone : searches e s = [] ∨ ∃ o, searches e s = [o] := by
    cases e with
    | net e | frame now | outside f => exact Or.inl rfl
    | step io =>
      rw [searches]
      split
      · cases searched io s with
        | none => exact Or.inl rfl
        | some id => exact Or.inr ⟨_, rfl⟩
      · exact Or.inl rfl
  rcases hone with hnone | ⟨⟨t, o⟩, hone⟩
  · refine Or.inl ⟨by rw [searchedAt, hnone, List.map_nil], ?_⟩
    rw [hlast, hnone]
    rfl
  · rw [hone] at hlast hmeets
    refine Or.inr ⟨t, by rw [searchedAt, hone, List.map_cons, List.map_nil], hmeets.1.due, ?_⟩
    rw [hlast]
    cases o <;> rfl

theorem lastTimeoutCheck_frameStep {h : Handlers D δ ι} {io : Io F D ι} {s : Provider F D δ}
    (hoffline : s.pc ≠ .offline) (hmessages : s.pc ≠ .messages) :
    (s.frameStep h io).lastTimeoutCheck = s.lastTimeoutCheck := by
  have hstep := frameStep_cases h io s
  generalize s.frameStep h io = s' at hstep
  cases hstep with
  | offline t d hpc => exact absurd hpc hoffline
  | message m d hpc | messagesEnd t d hpc => exact absurd hpc hmessages
  | _ => rfl

/-- The trackers are checked at most every 200 ms. -/
theorem limits_check (h : Handlers D δ ι) :
    Limits (milliseconds 200) lastTimeoutCheck (step h) (checkedAt (F := F)) := by
  intro e s
  cases e with
  | net e | outside f => exact Or.inl ⟨rfl, rfl⟩
  | frame now => exact Or.inl ⟨rfl, (clocks_beginFrame now s).2⟩
  | step io =>
    show (_ ∧ (s.frameStep h io).lastTimeoutCheck = _) ∨
      ∃ t, _ ∧ _ ∧ (s.frameStep h io).lastTimeoutCheck = t
    have hchecked : ∀ s' : Provider F D δ, s'.now = s.now →
        s'.lastTimeoutCheck = s.lastTimeoutCheck →
        (checkTimeouts h io s').lastTimeoutCheck
          = if s.now - s.lastTimeoutCheck > milliseconds 200 then s.now
            else s.lastTimeoutCheck := by
      intro s' hnow hlast
      unfold checkTimeouts
      rw [hnow, hlast]
      split
      · rfl
      · exact hlast
    by_cases hoffline : s.pc = .offline
    · have hlast : (s.frameStep h io).lastTimeoutCheck
          = if s.now - s.lastTimeoutCheck > milliseconds 200 then s.now
            else s.lastTimeoutCheck := by
        rw [frameStep, hoffline]
        exact hchecked _ rfl rfl
      by_cases hdue : s.now - s.lastTimeoutCheck > milliseconds 200
      · refine Or.inr ⟨s.now, ?_, by omega, by rw [hlast, if_pos hdue]⟩
        simp [checkedAt, hoffline, hdue]
      · refine Or.inl ⟨?_, by rw [hlast, if_neg hdue]⟩
        simp [checkedAt, hoffline, hdue]
    · by_cases hmessages : s.pc = .messages
      · cases hm : s.inbox[s.next]? with
        | some m =>
          refine Or.inl ⟨?_, ?_⟩
          · simp [checkedAt, hmessages, hm]
          · rw [frameStep, hmessages]
            simp only [handleMessage, hm]
        | none =>
          have hlast : (s.frameStep h io).lastTimeoutCheck
              = if s.now - s.lastTimeoutCheck > milliseconds 200 then s.now
                else s.lastTimeoutCheck := by
            rw [frameStep, hmessages]
            simp only [handleMessage, hm]
            exact hchecked _ rfl rfl
          by_cases hdue : s.now - s.lastTimeoutCheck > milliseconds 200
          · refine Or.inr ⟨s.now, ?_, by omega, by rw [hlast, if_pos hdue]⟩
            simp [checkedAt, hmessages, hm, hdue]
          · refine Or.inl ⟨?_, by rw [hlast, if_neg hdue]⟩
            simp [checkedAt, hmessages, hm, hdue]
      · refine Or.inl ⟨?_, lastTimeoutCheck_frameStep hoffline hmessages⟩
        rw [checkedAt]
        split
        · contradiction
        · contradiction
        · rfl

/-- How many of the times lie between `a` and `a + w`. -/
def countIn (a w : Int) (ts : List Int) : Int := (ts.filter fun t => a ≤ t ∧ t ≤ a + w).length

/-- **How much a stretch of time holds**, in every run and however often `RunFrame` is called: of
headset poses `w / 10 ms + 1`, of lookups `w / 1 s + 1` and of checks `w / 200 ms + 1`. -/
theorem rates (h : Handlers D δ ι) (devices : δ) (fallback : Bool) (path : String)
    (es : List (Event F D δ ι)) (a : Int) (w : Nat) :
    let during (done : Event F D δ ι → Provider F D δ → List Int) :=
      countIn a w (trace done (step h) es (init devices fallback path))
    during (sentAt .position) ≤ w / milliseconds 10 + 1 ∧
      during searchedAt ≤ w / seconds 1 + 1 ∧ during checkedAt ≤ w / milliseconds 200 + 1 := by
  have hw : (0 : Int) ≤ w := Int.natCast_nonneg w
  exact ⟨length_window_le (by decide) (limits_pose h) es _ a hw,
    length_window_le (by decide) (limits_search h) es _ a hw,
    length_window_le (by decide) (limits_check h) es _ a hw⟩

end Provider

end Rebocap.Driver
