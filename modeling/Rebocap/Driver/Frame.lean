import Mathlib.Data.Fin.VecNotation
import Rebocap.Driver.Coordinates
import Rebocap.Net.Client
import Rebocap.Proto.Encode

/-!
# `Provider::RunFrame`

A frame is cut at its accesses to the client: between any two of them the network thread can take
any number of steps. What `RunFrame` calls and what does not touch the client (trackers, hand
poses, walk-in-place) is a parameter, `Handlers`.

Times are nanoseconds of the steady clock.

* `Provider.universeExit` — the exits of `UpdateUniverse`
* `Provider.frameStep_cases` — what a step of a frame does, case by case
-/

namespace Rebocap.Driver

open Lib Proto Net FloatConv FloatBits

variable {F D δ ι : Type}

/-! ## Data -/

def milliseconds (n : Int) : Int := n * 1000000

def seconds (n : Int) : Int := n * 1000000000

/-- What `GetRawTrackedDevicePoses` says about the headset. -/
structure HmdPose (F : Type) where
  poseIsValid : Bool
  deviceIsConnected : Bool
  matrix : Matrix34 F

/-- What `UpdateUniverse` reads: the headset's universe id, and the entry for an id in the first
source that has one. A lookup that throws finds nothing. -/
structure Chaperone (D : Type) where
  currentId : Option UInt64
  lookup : UInt64 → Option (Universe D)

/-- What a step of a frame reads from outside: SteamVR's answers to the devices, the headset, the
chaperone data and what the kernel does with a write. -/
structure Io (F D ι : Type) where
  vr : ι
  hmd : HmdPose F
  chaperone : Chaperone D
  outcome : SendResult

/-- What `RunFrame` calls for its devices. -/
structure Handlers (D δ ι : Type) where
  onMessage : ι → Msg → Option (Universe D) → (now : Int) → δ → δ
  checkTimeouts : ι → δ → δ
  updateWalkInPlace : ι → (now : Int) → (connected : Bool) → δ → δ

/-- Devices that do nothing. -/
def Handlers.idle : Handlers D δ ι where
  onMessage := fun _ _ _ _ d => d
  checkTimeouts := fun _ d => d
  updateWalkInPlace := fun _ _ _ d => d

/-- Where a frame is. -/
inductive Pc (F : Type) where
  | idle
  /-- `connected()` has returned false. -/
  | offline
  /-- Before `client_.generation() != generation_`. -/
  | checkGeneration
  /-- Before `generation_ = client_.generation()`. -/
  | readGeneration
  | drain
  /-- In the loop over `inbox_`. -/
  | messages
  | walk
  | updateUniverse
  | sendStatus (hmd : HmdPose F)
  | sendUniverse (hmd : HmdPose F) (statusDue : Bool)
  | sendHmdPose (hmd : HmdPose F)

/-- The fields of `Provider` that `RunFrame` works on. -/
structure Provider (F D δ : Type) where
  client : Client
  pc : Pc F
  now : Int
  inbox : List Received
  /-- The message of `inbox` that the loop is at. -/
  next : Nat
  devices : δ
  generation : Nat
  statusSent : Bool
  helloSent : Bool
  lastHmdOk : Bool
  haveUniverse : Bool
  usingFallback : Bool
  universeFallback : Bool
  universeFailures : Nat
  universe_ : Universe D
  defaultChaperone : String
  lastHmdSend : Int
  lastTimeoutCheck : Int
  lastUniverseSearch : Int
  /-- The messages handled so far, each with `generation_` in its frame. -/
  handled : List (Nat × Received)

/-- The driver after `Init`. -/
def Provider.init [Zero D] (devices : δ) (universeFallback : Bool) (defaultChaperone : String) :
    Provider F D δ where
  client := {}
  pc := .idle
  now := 0
  inbox := []
  next := 0
  devices := devices
  generation := 0
  statusSent := false
  helloSent := false
  lastHmdOk := false
  haveUniverse := false
  usingFallback := false
  universeFallback := universeFallback
  universeFailures := 0
  universe_ := Universe.zero 0
  defaultChaperone := defaultChaperone
  lastHmdSend := 0
  lastTimeoutCheck := 0
  lastUniverseSearch := 0
  handled := []

/-! ## The parts of a frame -/

namespace Provider

/-- `have_universe_ ? &universe_ : nullptr`. -/
def knownUniverse (s : Provider F D δ) : Option (Universe D) :=
  if s.haveUniverse then some s.universe_ else none

def checkTimeouts (h : Handlers D δ ι) (io : Io F D ι) (s : Provider F D δ) : Provider F D δ :=
  if s.now - s.lastTimeoutCheck > milliseconds 200 then
    { s with lastTimeoutCheck := s.now, devices := h.checkTimeouts io.vr s.devices }
  else s

theorem checkTimeouts_eq (h : Handlers D δ ι) (io : Io F D ι) (s : Provider F D δ) :
    ∃ t d, checkTimeouts h io s = { s with lastTimeoutCheck := t, devices := d } := by
  unfold checkTimeouts
  split
  · exact ⟨_, _, rfl⟩
  · exact ⟨s.lastTimeoutCheck, s.devices, rfl⟩

/-- `client_.send`, whose result is not used. -/
def sendAndForget (s : Provider F D δ) (payload : Bytes) (o : SendResult) : Provider F D δ :=
  { s with client := (s.client.send payload o).2 }

/-- The end of `UpdateUniverse` where no source has the id. -/
def universeNotFound [Zero D] (id : UInt64) (o : SendResult) (s : Provider F D δ) :
    Provider F D δ :=
  if s.usingFallback then s
  else
    let failures := s.universeFailures
    let s := { s with universeFailures := failures + 1 }
    let s := if failures % 30 = 0 then
        s.sendAndForget (encodePathFailed (if s.defaultChaperone.isEmpty then 1 else 2)) o
      else s
    if s.universeFallback ∧ s.universeFailures ≥ 3 then
      { s with
        universe_ := Universe.zero id
        haveUniverse := true
        usingFallback := true
        helloSent := false }
    else s

def updateUniverse [Zero D] (io : Io F D ι) (s : Provider F D δ) : Provider F D δ :=
  match io.chaperone.currentId with
  | none => s -- no headset yet
  | some id =>
    if s.haveUniverse ∧ ¬s.usingFallback ∧ s.universe_.id = id then s
    else if s.now - s.lastUniverseSearch < seconds 1 then s
    else
      let s := { s with lastUniverseSearch := s.now }
      match io.chaperone.lookup id with
      | some found =>
        { s with
          universe_ := found
          haveUniverse := true
          usingFallback := false
          universeFailures := 0
          helloSent := false }
      | none => s.universeNotFound id io.outcome

/-! ### The exits of `UpdateUniverse` -/

/-- The universe was found for `id`, so there is nothing to search for. -/
def Known (id : UInt64) (s : Provider F D δ) : Prop :=
  s.haveUniverse = true ∧ s.usingFallback = false ∧ s.universe_.id = id

instance (id : UInt64) (s : Provider F D δ) : Decidable (s.Known id) :=
  inferInstanceAs (Decidable (_ ∧ _ ∧ _))

/-- The call reads an id that is not known, and searches for it. -/
structure Searches (io : Io F D ι) (id : UInt64) (s : Provider F D δ) : Prop where
  current : io.chaperone.currentId = some id
  unknown : ¬s.Known id
  due : ¬s.now - s.lastUniverseSearch < seconds 1

/-- The client after a search that failed: every 30th failure is reported. -/
def afterFailure (o : SendResult) (s : Provider F D δ) : Client :=
  if s.universeFailures % 30 = 0 then
    (s.client.send (encodePathFailed (if s.defaultChaperone.isEmpty then 1 else 2)) o).2
  else s.client

/-- What `UpdateUniverse` does to `s`, exit by exit. -/
inductive UniverseExit [Zero D] (io : Io F D ι) (s : Provider F D δ) : Provider F D δ → Prop where
  | unread (h : io.chaperone.currentId = none) : UniverseExit io s s
  | known (id : UInt64) (hid : io.chaperone.currentId = some id) (h : s.Known id) :
    UniverseExit io s s
  | limited (id : UInt64) (hid : io.chaperone.currentId = some id) (hnew : ¬s.Known id)
      (h : s.now - s.lastUniverseSearch < seconds 1) : UniverseExit io s s
  | found (id : UInt64) (u : Universe D) (h : s.Searches io id)
      (hfound : io.chaperone.lookup id = some u) :
    UniverseExit io s { s with
      lastUniverseSearch := s.now
      universe_ := u
      haveUniverse := true
      usingFallback := false
      universeFailures := 0
      helloSent := false }
  | fallbackKept (id : UInt64) (h : s.Searches io id) (hnone : io.chaperone.lookup id = none)
      (hfallback : s.usingFallback = true) :
    UniverseExit io s { s with lastUniverseSearch := s.now }
  | failed (id : UInt64) (h : s.Searches io id) (hnone : io.chaperone.lookup id = none)
      (hfallback : s.usingFallback = false)
      (hno : ¬(s.universeFallback = true ∧ s.universeFailures + 1 ≥ 3)) :
    UniverseExit io s { s with
      client := s.afterFailure io.outcome
      lastUniverseSearch := s.now
      universeFailures := s.universeFailures + 1 }
  | adopted (id : UInt64) (h : s.Searches io id) (hnone : io.chaperone.lookup id = none)
      (hfallback : s.usingFallback = false) (hon : s.universeFallback = true)
      (hfailures : s.universeFailures + 1 ≥ 3) :
    UniverseExit io s { s with
      client := s.afterFailure io.outcome
      lastUniverseSearch := s.now
      universeFailures := s.universeFailures + 1
      universe_ := Universe.zero id
      haveUniverse := true
      usingFallback := true
      helloSent := false }

/-- What a failed search does first. -/
theorem sendPathFailed_eq (o : SendResult) (s : Provider F D δ) (t : Int) (n : Nat) :
    (if s.universeFailures % 30 = 0 then
        ({ s with lastUniverseSearch := t, universeFailures := n } : Provider F D δ).sendAndForget
          (encodePathFailed (if s.defaultChaperone.isEmpty then 1 else 2)) o
      else { s with lastUniverseSearch := t, universeFailures := n })
      = { s with client := s.afterFailure o, lastUniverseSearch := t, universeFailures := n } := by
  unfold afterFailure
  split <;> rfl

/-- **The exits of `UpdateUniverse`.** -/
theorem universeExit [Zero D] (io : Io F D ι) (s : Provider F D δ) :
    UniverseExit io s (s.updateUniverse io) := by
  unfold updateUniverse
  split
  next h => exact .unread h
  next id hid =>
    split
    next h => exact .known id hid ⟨h.1, by simpa using h.2.1, h.2.2⟩
    next h =>
      have hnew : ¬s.Known id := fun hk => h ⟨hk.1, by simp [hk.2.1], hk.2.2⟩
      split
      next hlimit => exact .limited id hid hnew hlimit
      next hdue =>
        have hsearch : s.Searches io id := ⟨hid, hnew, hdue⟩
        dsimp only
        split
        next u hfound => exact .found id u hsearch hfound
        next hnone =>
          unfold universeNotFound
          split
          next hfallback => exact .fallbackKept id hsearch hnone hfallback
          next hfallback =>
            have hfallback : s.usingFallback = false := by simpa using hfallback
            dsimp only
            rw [sendPathFailed_eq]
            split
            next h => exact .adopted id hsearch hnone hfallback h.1 h.2
            next h => exact .failed id hsearch hnone hfallback h

/-! ### What is sent -/

variable [FloatOrder F] [Arith F] [FloatOrder D] [Arith D] [FloatConv F D] [FloatBits F 32]
  [FloatBits D 64]

/-- The payload of `SendUniverse`. -/
def universePayload (F : Type) [FloatConv F D] [FloatBits F 32] (u : Universe D) : Bytes :=
  let bits (d : D) : BitVec 32 := toBits (narrow d : F)
  encodeUniverse (bits u.yaw) ![bits u.x, bits u.y, bits u.z]

/-- The payload of `SendHmdPose`. -/
def posePayload (u : Option (Universe D)) (m : Matrix34 F) : Bytes :=
  let p : Vec3 D := headPosition m
  let q : Quat D := headQuaternion m
  let (p, q) := match u with
    | none => (p, q)
    | some u => toStanding u p q
  let bits (d : D) : BitVec 32 := toBits (narrow d : F)
  encodePosition 0 ![toBits q.w, toBits q.x, toBits q.y, toBits q.z] ![bits p.x, bits p.y, bits p.z]

def statusPayload (hmdOk : Bool) : Bytes :=
  encodeStatus 0 (if hmdOk then Status.ok.toInt32 else Status.disconnected.toInt32)

omit [FloatOrder F] [Arith F] [FloatOrder D] [Arith D] [FloatBits D 64] in
@[simp] theorem payloadKind_universePayload (u : Universe D) :
    payloadKind (universePayload F u) = some .universeChange :=
  payloadKind_encodeUniverse _ _

@[simp] theorem payloadKind_posePayload (u : Option (Universe D)) (m : Matrix34 F) :
    payloadKind (posePayload u m) = some .position := by
  simp [posePayload]

@[simp] theorem payloadKind_statusPayload (hmdOk : Bool) :
    payloadKind (statusPayload hmdOk) = some .trackerStatus :=
  payloadKind_encodeStatus _ _

/-- `tracker_status`, once per connection and on change. -/
def sendStatus (io : Io F D ι) (hmd : HmdPose F) (s : Provider F D δ) : Provider F D δ :=
  let hmdOk := hmd.poseIsValid && hmd.deviceIsConnected
  let statusDue := !s.statusSent || hmdOk != s.lastHmdOk
  if statusDue then
    let (ok, client) := s.client.send (statusPayload hmdOk) io.outcome
    { s with client := client, statusSent := ok, lastHmdOk := hmdOk, pc := .sendUniverse hmd true }
  else { s with pc := .sendUniverse hmd false }

/-- `uch`, after each status and each change found by `UpdateUniverse`. -/
def sendUniverse (io : Io F D ι) (hmd : HmdPose F) (statusDue : Bool) (s : Provider F D δ) :
    Provider F D δ :=
  if s.haveUniverse && (statusDue || !s.helloSent) then
    let (ok, client) := s.client.send (universePayload F s.universe_) io.outcome
    { s with client := client, helloSent := ok, pc := .sendHmdPose hmd }
  else { s with pc := .sendHmdPose hmd }

def sendHmdPose (io : Io F D ι) (hmd : HmdPose F) (s : Provider F D δ) : Provider F D δ :=
  if s.now - s.lastHmdSend ≥ milliseconds 10 then
    { s.sendAndForget (posePayload s.knownUniverse hmd.matrix) io.outcome with
      lastHmdSend := s.now
      pc := .idle }
  else { s with pc := .idle }

/-- The next message of `inbox_`, or the end of the loop. -/
def handleMessage (h : Handlers D δ ι) (io : Io F D ι) (s : Provider F D δ) : Provider F D δ :=
  match s.inbox[s.next]? with
  | some m =>
    { s with
      devices := h.onMessage io.vr m.msg s.knownUniverse s.now s.devices
      next := s.next + 1
      handled := s.handled ++ [(s.generation, m)] }
  | none => { checkTimeouts h io { s with inbox := [], next := 0 } with pc := .walk }

/-- The part of a frame up to its next access to the client. -/
def frameStep (h : Handlers D δ ι) (io : Io F D ι) (s : Provider F D δ) : Provider F D δ :=
  match s.pc with
  | .idle => s
  | .offline =>
    let s := { s with devices := h.updateWalkInPlace io.vr s.now s.client.connected s.devices }
    { checkTimeouts h io s with pc := .idle }
  | .checkGeneration =>
    { s with pc := if s.client.generation ≠ s.generation then .readGeneration else .drain }
  | .readGeneration =>
    { s with
      generation := s.client.generation
      statusSent := false
      helloSent := false
      pc := .drain }
  | .drain =>
    let (inbox, client) := s.client.drain s.inbox
    { s with inbox := inbox, client := client, next := 0, pc := .messages }
  | .messages => handleMessage h io s
  | .walk =>
    { s with
      devices := h.updateWalkInPlace io.vr s.now s.client.connected s.devices
      pc := .updateUniverse }
  | .updateUniverse => { s.updateUniverse io with pc := .sendStatus io.hmd }
  | .sendStatus hmd => s.sendStatus io hmd
  | .sendUniverse hmd statusDue => s.sendUniverse io hmd statusDue
  | .sendHmdPose hmd => s.sendHmdPose io hmd

/-! ## What a step of a frame does -/

/-- The client after a `path_failed` that may have been sent. -/
def TriedPathFailed (c c' : Client) : Prop :=
  c' = c ∨ ∃ failed o, c' = (c.send (encodePathFailed failed) o).2

/-- What a step of a frame does to `s`. -/
inductive FrameStep (io : Io F D ι) (s : Provider F D δ) : Provider F D δ → Prop where
  | idle (hpc : s.pc = .idle) : FrameStep io s s
  | offline (t : Int) (d : δ) (hpc : s.pc = .offline) :
    FrameStep io s { s with lastTimeoutCheck := t, devices := d, pc := .idle }
  | stale (hpc : s.pc = .checkGeneration) (hgen : s.client.generation ≠ s.generation) :
    FrameStep io s { s with pc := .readGeneration }
  | current (hpc : s.pc = .checkGeneration) (hgen : s.client.generation = s.generation) :
    FrameStep io s { s with pc := .drain }
  | readGeneration (hpc : s.pc = .readGeneration) :
    FrameStep io s { s with
      generation := s.client.generation
      statusSent := false
      helloSent := false
      pc := .drain }
  | drain (hpc : s.pc = .drain) :
    FrameStep io s { s with
      inbox := s.client.queue
      client := { s.client with queue := [] }
      next := 0
      pc := .messages }
  | message (m : Received) (d : δ) (hpc : s.pc = .messages) (hm : s.inbox[s.next]? = some m) :
    FrameStep io s { s with
      devices := d
      next := s.next + 1
      handled := s.handled ++ [(s.generation, m)] }
  | messagesEnd (t : Int) (d : δ) (hpc : s.pc = .messages) (hm : s.inbox[s.next]? = none) :
    FrameStep io s { s with
      inbox := []
      next := 0
      lastTimeoutCheck := t
      devices := d
      pc := .walk }
  | walk (d : δ) (hpc : s.pc = .walk) :
    FrameStep io s { s with devices := d, pc := .updateUniverse }
  | universeKept (t : Int) (hpc : s.pc = .updateUniverse)
      (h : ∀ id, io.chaperone.currentId = some id →
        s.haveUniverse ∧ (¬s.usingFallback → s.universe_.id = id) ∨
          s.now - s.lastUniverseSearch < seconds 1 ∨ s.usingFallback) :
    FrameStep io s { s with lastUniverseSearch := t, pc := .sendStatus io.hmd }
  | universeFound (id : UInt64) (found : Universe D) (hpc : s.pc = .updateUniverse)
      (hid : io.chaperone.currentId = some id) (hfound : io.chaperone.lookup id = some found) :
    FrameStep io s { s with
      lastUniverseSearch := s.now
      universe_ := found
      haveUniverse := true
      usingFallback := false
      universeFailures := 0
      helloSent := false
      pc := .sendStatus io.hmd }
  | universeNotFound (id : UInt64) (c : Client) (hpc : s.pc = .updateUniverse)
      (hid : io.chaperone.currentId = some id) (hnone : io.chaperone.lookup id = none)
      (hfallback : s.usingFallback = false) (hc : TriedPathFailed s.client c) :
    FrameStep io s { s with
      client := c
      lastUniverseSearch := s.now
      universeFailures := s.universeFailures + 1
      pc := .sendStatus io.hmd }
  | universeFallback (id : UInt64) (c : Client) (hpc : s.pc = .updateUniverse)
      (hid : io.chaperone.currentId = some id) (hnone : io.chaperone.lookup id = none)
      (hfallback : s.usingFallback = false) (hc : TriedPathFailed s.client c)
      (hon : s.universeFallback = true) (hfailures : s.universeFailures + 1 ≥ 3) :
    FrameStep io s { s with
      client := c
      lastUniverseSearch := s.now
      universeFailures := s.universeFailures + 1
      universe_ := Universe.zero id
      haveUniverse := true
      usingFallback := true
      helloSent := false
      pc := .sendStatus io.hmd }
  | status (hmd : HmdPose F) (hmdOk : Bool) (hpc : s.pc = .sendStatus hmd)
      (hok : hmdOk = (hmd.poseIsValid && hmd.deviceIsConnected))
      (hdue : s.statusSent = false ∨ hmdOk ≠ s.lastHmdOk) :
    FrameStep io s { s with
      client := (s.client.send (statusPayload hmdOk) io.outcome).2
      statusSent := (s.client.send (statusPayload hmdOk) io.outcome).1
      lastHmdOk := hmdOk
      pc := .sendUniverse hmd true }
  | statusKept (hmd : HmdPose F) (hpc : s.pc = .sendStatus hmd) (hsent : s.statusSent = true)
      (hok : (hmd.poseIsValid && hmd.deviceIsConnected) = s.lastHmdOk) :
    FrameStep io s { s with pc := .sendUniverse hmd false }
  | universeSent (hmd : HmdPose F) (due : Bool) (hpc : s.pc = .sendUniverse hmd due)
      (hhave : s.haveUniverse = true) (hdue : due = true ∨ s.helloSent = false) :
    FrameStep io s { s with
      client := (s.client.send (universePayload F s.universe_) io.outcome).2
      helloSent := (s.client.send (universePayload F s.universe_) io.outcome).1
      pc := .sendHmdPose hmd }
  | universeSkipped (hmd : HmdPose F) (due : Bool) (hpc : s.pc = .sendUniverse hmd due)
      (h : s.haveUniverse = false ∨ due = false ∧ s.helloSent = true) :
    FrameStep io s { s with pc := .sendHmdPose hmd }
  | pose (hmd : HmdPose F) (hpc : s.pc = .sendHmdPose hmd) :
    FrameStep io s { s with
      client := (s.client.send (posePayload s.knownUniverse hmd.matrix) io.outcome).2
      lastHmdSend := s.now
      pc := .idle }
  | poseSkipped (hmd : HmdPose F) (hpc : s.pc = .sendHmdPose hmd) :
    FrameStep io s { s with pc := .idle }

theorem updateUniverse_cases (io : Io F D ι) (s : Provider F D δ) (hpc : s.pc = .updateUniverse) :
    FrameStep io s { s.updateUniverse io with pc := .sendStatus io.hmd } := by
  have hkept : ∀ {t : Int} {id : UInt64}, io.chaperone.currentId = some id →
      (s.haveUniverse ∧ (¬s.usingFallback → s.universe_.id = id) ∨
        s.now - s.lastUniverseSearch < seconds 1 ∨ s.usingFallback) →
      FrameStep io s { s with lastUniverseSearch := t, pc := .sendStatus io.hmd } := by
    intro t id hid h
    refine .universeKept t hpc fun id' hid' => ?_
    rw [hid] at hid'
    cases hid'
    exact h
  have htried : TriedPathFailed s.client (s.afterFailure io.outcome) := by
    unfold afterFailure
    split
    · exact Or.inr ⟨_, _, rfl⟩
    · exact Or.inl rfl
  have hexit := universeExit io s
  generalize s.updateUniverse io = s' at hexit
  cases hexit with
  | unread h => exact .universeKept s.lastUniverseSearch hpc (by simp [h])
  | known id hid h => exact hkept hid (Or.inl ⟨h.1, fun _ => h.2.2⟩)
  | limited id hid _ h => exact hkept hid (Or.inr (Or.inl h))
  | found id u h hfound => exact .universeFound id u hpc h.current hfound
  | fallbackKept id h _ hfallback => exact hkept h.current (Or.inr (Or.inr hfallback))
  | failed id h hnone hfallback =>
    exact .universeNotFound id _ hpc h.current hnone hfallback htried
  | adopted id h hnone hfallback hon hfailures =>
    exact .universeFallback id _ hpc h.current hnone hfallback htried hon hfailures

/-- **What a step of a frame does, case by case.** -/
theorem frameStep_cases (h : Handlers D δ ι) (io : Io F D ι) (s : Provider F D δ) :
    FrameStep io s (s.frameStep h io) := by
  unfold frameStep
  split
  next hpc => exact .idle hpc
  next hpc =>
    obtain ⟨t, d, hs⟩ := checkTimeouts_eq h io
      { s with devices := h.updateWalkInPlace io.vr s.now s.client.connected s.devices }
    dsimp only at hs ⊢
    rw [hs]
    exact .offline t d hpc
  next hpc =>
    split
    next hgen => exact .stale hpc hgen
    next hgen => exact .current hpc (by simpa using hgen)
  next hpc => exact .readGeneration hpc
  next hpc => exact .drain hpc
  next hpc =>
    unfold handleMessage
    split
    next m hm => exact .message m _ hpc hm
    next hm =>
      obtain ⟨t, d, hs⟩ := checkTimeouts_eq h io { s with inbox := [], next := 0 }
      dsimp only at hs ⊢
      rw [hs]
      exact .messagesEnd t d hpc hm
  next hpc => exact .walk _ hpc
  next hpc => exact updateUniverse_cases io s hpc
  next hmd hpc =>
    unfold sendStatus
    dsimp only
    split
    next hdue => exact .status hmd _ hpc rfl (by simpa using hdue)
    next hdue =>
      simp only [Bool.or_eq_true, Bool.not_eq_true', bne_iff_ne, not_or] at hdue
      exact .statusKept hmd hpc (by simpa using hdue.1) (by simpa using hdue.2)
  next hmd due hpc =>
    unfold sendUniverse
    split
    next hdue =>
      simp only [Bool.and_eq_true, Bool.or_eq_true, Bool.not_eq_true'] at hdue
      exact .universeSent hmd due hpc hdue.1 hdue.2
    next hdue =>
      refine .universeSkipped hmd due hpc ?_
      cases hhave : s.haveUniverse <;> cases due <;> cases hsent : s.helloSent <;> simp_all
  next hmd hpc =>
    unfold sendHmdPose
    split
    · exact .pose hmd hpc
    · exact .poseSkipped hmd hpc

/-! ## The system -/

/-- What can happen. -/
inductive Event (F D δ ι : Type) where
  /-- A step of the network thread. -/
  | net (e : Client.Event)
  /-- `RunFrame` starts: it reads the clock and asks the client if it is connected. -/
  | frame (now : Int)
  /-- The frame goes on. -/
  | step (io : Io F D ι)
  /-- SteamVR or another driver does something to the devices. -/
  | outside (f : δ → δ)

def beginFrame (now : Int) (s : Provider F D δ) : Provider F D δ :=
  match s.pc with
  | .idle => { s with now := now, pc := if s.client.connected then .checkGeneration else .offline }
  | _ => s

def step (h : Handlers D δ ι) : Event F D δ ι → Provider F D δ → Provider F D δ
  | .net e, s => { s with client := Client.step e s.client }
  | .frame now, s => s.beginFrame now
  | .step io, s => s.frameStep h io
  | .outside f, s => { s with devices := f s.devices }

omit [FloatOrder F] [Arith F] [FloatOrder D] [Arith D] [FloatConv F D] [FloatBits F 32]
  [FloatBits D 64] in
theorem beginFrame_cases (now : Int) (s : Provider F D δ) :
    s.beginFrame now = s ∨
      (s.pc = .idle ∧ s.client.connected = true ∧
        s.beginFrame now = { s with now := now, pc := .checkGeneration }) ∨
      (s.pc = .idle ∧ s.client.connected = false ∧
        s.beginFrame now = { s with now := now, pc := .offline }) := by
  unfold beginFrame
  split
  next hpc =>
    cases hc : s.client.connected with
    | true => exact Or.inr (Or.inl ⟨hpc, rfl, rfl⟩)
    | false => exact Or.inr (Or.inr ⟨hpc, rfl, rfl⟩)
  next => exact Or.inl rfl

/-- The driver after a run from `Init` on. -/
def after (h : Handlers D δ ι) (devices : δ) (universeFallback : Bool) (defaultChaperone : String)
    (es : List (Event F D δ ι)) : Provider F D δ :=
  run (step h) es (init devices universeFallback defaultChaperone)

end Provider

end Rebocap.Driver
