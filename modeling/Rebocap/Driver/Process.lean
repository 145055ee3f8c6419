import Rebocap.Driver.Sends
import Rebocap.Net.Linearization

/-!
# `RunFrame` and the client's thread, system call by system call

In `Provider` a frame calls `send` in one step, and the network thread is `Client`. Here the two
threads are those of `Threads`: the network thread goes on while the frame is in `send`, and the
rest of the process opens and closes descriptors.

* `refines` — this does nothing that `Provider` does not do
-/

namespace Rebocap.Driver

open Lib Proto Net FloatConv FloatBits HandshakeSession

variable {F D δ ι : Type}

/-! ## The two threads -/

/-- What a frame reads of the client: `fd_`, `generation_` and `queue_`. -/
def shownClient (s : Threads) : Client where
  generation := s.generation
  fd := s.fd.map fun _ => s.generation
  queue := s.queue

namespace Provider

/-- The frame with another client. -/
def on (c : Client) (s : Provider F D δ) : Provider F D δ := { s with client := c }

@[simp] theorem on_client (c : Client) (s : Provider F D δ) : (s.on c).client = c := rfl

@[simp] theorem on_on (c c' : Client) (s : Provider F D δ) : (s.on c').on c = s.on c := rfl

/-- The frame beside another client and other devices. -/
def beside (c : Client) (d : δ) (s : Provider F D δ) : Provider F D δ :=
  { s with client := c, devices := d }

section Resume

variable [FloatOrder F] [Arith F] [FloatOrder D] [Arith D] [FloatConv F D] [FloatBits F 32]
  [FloatBits D 64]

/-- The rest of a step of a frame, after `send` has returned. -/
def resume (io : Io F D ι) (ok : Bool) (s : Provider F D δ) : Provider F D δ :=
  match s.pc with
  | .updateUniverse => { (s.updateUniverse io).on s.client with pc := .sendStatus io.hmd }
  | .sendStatus hmd =>
    { s with
      statusSent := ok
      lastHmdOk := hmd.poseIsValid && hmd.deviceIsConnected
      pc := .sendUniverse hmd true }
  | .sendUniverse hmd _ => { s with helloSent := ok, pc := .sendHmdPose hmd }
  | .sendHmdPose _ => { s with lastHmdSend := s.now, pc := .idle }
  | _ => s

end Resume

end Provider

/-- The driver's two threads. -/
structure Process (F D δ ι : Type) where
  threads : Threads
  /-- The frame thread. Its `client` is not used. -/
  frame : Provider F D δ
  /-- What the step that is in `send` has read. -/
  calling : Option (Io F D ι)

namespace Process

inductive Event (F D δ ι : Type) where
  /-- The network thread goes on. -/
  | net (a : Answer)
  /-- `RunFrame` starts. -/
  | frame (now : Int)
  /-- The frame goes on, up to its next access to the client. -/
  | step (io : Io F D ι)
  /-- It goes on in `send`. -/
  | send (o : SendResult)
  /-- SteamVR or another driver does something to the devices. -/
  | outside (f : δ → δ)
  | stop
  | opens (fd : Nat)
  | closes (fd : Nat)

def init [Zero D] (devices : δ) (universeFallback : Bool) (defaultChaperone : String)
    (isOpen : Nat → Bool) : Process F D δ ι where
  threads := Threads.init isOpen
  frame := Provider.init devices universeFallback defaultChaperone
  calling := none

def onThreads (e : Threads.Event) (p : Process F D δ ι) : Process F D δ ι :=
  { p with threads := Threads.step e p.threads }

variable [FloatOrder F] [Arith F] [FloatOrder D] [Arith D] [FloatConv F D] [FloatBits F 32]
  [FloatBits D 64]

/-- A step of a frame that is not in `send`. -/
def frameStep (h : Handlers D δ ι) (io : Io F D ι) (p : Process F D δ ι) : Process F D δ ι :=
  match Provider.payloadOf io p.frame with
  | some payload => { p.onThreads (.call payload) with calling := some io }
  | none =>
    let frame := (p.frame.on (shownClient p.threads)).frameStep h io
    match p.frame.pc with
    | .drain => { p.onThreads .drain with frame := frame }
    | _ => { p with frame := frame }

def sendStep (o : SendResult) (p : Process F D δ ι) : Process F D δ ι :=
  match p.calling, p.threads.sender with
  | some io, .unlock ok =>
    { p.onThreads (.send o) with frame := p.frame.resume io ok, calling := none }
  | _, _ => p.onThreads (.send o)

def step (h : Handlers D δ ι) : Event F D δ ι → Process F D δ ι → Process F D δ ι
  | .net a, p => p.onThreads (.net a)
  | .frame now, p =>
    match p.calling with
    | none => { p with frame := (p.frame.on (shownClient p.threads)).beginFrame now }
    | some _ => p
  | .step io, p =>
    match p.calling with
    | none => p.frameStep h io
    | some _ => p
  | .send o, p => p.sendStep o
  | .outside f, p => { p with frame := { p.frame with devices := f p.frame.devices } }
  | .stop, p => p.onThreads .stop
  | .opens fd, p => p.onThreads (.opens fd)
  | .closes fd, p => p.onThreads (.closes fd)

/-! ## The steps of `Provider` -/

/-- What a step is to `Provider`. A `send` takes effect in one of its system calls. -/
def events : Event F D δ ι → Process F D δ ι → List (Provider.Event F D δ ι)
  | .net a, p => (Threads.netEvents a p.threads).map .net
  | .frame now, p => if p.calling.isNone then [.frame now] else []
  | .step io, p =>
    if p.calling.isNone ∧ Provider.payloadOf io p.frame = none then [.step io] else []
  | .send o, p =>
    match p.calling, Threads.acts (.send o) p.threads with
    | some io, _ :: _ => [.step { io with outcome := o }]
    | _, _ => []
  | .outside f, _ => [.outside f]
  | .stop, _ | .opens _, _ | .closes _, _ => []

/-- The frame once the `send` that it is in has returned, where its result is decided. -/
def settled (p : Process F D δ ι) : Provider F D δ :=
  match p.calling, p.threads.sender.result with
  | some io, some ok => p.frame.resume io ok
  | _, _ => p.frame

end Process

/-! ## What a step of a frame has of the client -/

namespace Provider

variable [FloatOrder F] [Arith F] [FloatOrder D] [Arith D] [FloatConv F D] [FloatBits F 32]
  [FloatBits D 64]

/-- Two clients that a frame reads the same of. -/
structure SameShown (c c' : Client) : Prop where
  generation : c.generation = c'.generation
  connected : c.connected = c'.connected
  queue : c.queue = c'.queue

section UpdateUniverse

omit [FloatOrder F] [Arith F] [Arith D] [FloatConv F D] [FloatBits F 32] [FloatBits D 64]

theorem adopt_beside (id : UInt64) (c e : Client) (d d' : δ) (s : Provider F D δ) :
    beside e d' (if (s.beside c d).universeFallback = true ∧
          (s.beside c d).universeFailures ≥ 3 then
        { s.beside c d with
          universe_ := Universe.zero id
          haveUniverse := true
          usingFallback := true
          helloSent := false }
      else s.beside c d) =
    beside e d' (if s.universeFallback = true ∧ s.universeFailures ≥ 3 then
        { s with
          universe_ := Universe.zero id
          haveUniverse := true
          usingFallback := true
          helloSent := false }
      else s) := by
  by_cases hon : s.universeFallback = true ∧ s.universeFailures ≥ 3
  · have hon' : (s.beside c d).universeFallback = true ∧ (s.beside c d).universeFailures ≥ 3 := hon
    rw [if_pos hon, if_pos hon']
    rfl
  · have hoff : ¬((s.beside c d).universeFallback = true ∧ (s.beside c d).universeFailures ≥ 3) :=
      hon
    rw [if_neg hon, if_neg hoff]
    rfl

theorem universeNotFound_beside (id : UInt64) (o o' : SendResult) (c e : Client) (d d' : δ)
    (s : Provider F D δ) : ((s.beside c d).universeNotFound id o).beside e d' =
      (s.universeNotFound id o').beside e d' := by
  unfold universeNotFound
  by_cases hfallback : s.usingFallback
  · have hfallback' : (s.beside c d).usingFallback = true := hfallback
    rw [if_pos hfallback, if_pos hfallback']
    rfl
  have hsearch : ¬(s.beside c d).usingFallback = true := hfallback
  rw [if_neg hfallback, if_neg hsearch]
  dsimp only
  by_cases hreport : s.universeFailures % 30 = 0
  · have hreport' : (s.beside c d).universeFailures % 30 = 0 := hreport
    rw [if_pos hreport, if_pos hreport']
    exact (adopt_beside id _ e d d' { s with universeFailures := s.universeFailures + 1 }).trans
      (adopt_beside id _ e s.devices d'
        { s with universeFailures := s.universeFailures + 1 }).symm
  · have hquiet : ¬(s.beside c d).universeFailures % 30 = 0 := hreport
    rw [if_neg hreport, if_neg hquiet]
    exact adopt_beside id c e d d' { s with universeFailures := s.universeFailures + 1 }

/-- `UpdateUniverse` reads neither the client nor the devices, and the result of `send` is not
used. -/
theorem updateUniverse_beside (io : Io F D ι) (o : SendResult) (c e : Client) (d d' : δ)
    (s : Provider F D δ) : ((s.beside c d).updateUniverse { io with outcome := o }).beside e d' =
      (s.updateUniverse io).beside e d' := by
  unfold updateUniverse
  dsimp only
  cases io.chaperone.currentId with
  | none => rfl
  | some id =>
    dsimp only
    by_cases hknown : s.haveUniverse ∧ ¬s.usingFallback ∧ s.universe_.id = id
    · have hknown' : (s.beside c d).haveUniverse ∧ ¬(s.beside c d).usingFallback ∧
          (s.beside c d).universe_.id = id := hknown
      rw [if_pos hknown, if_pos hknown']
      rfl
    have hnew : ¬((s.beside c d).haveUniverse ∧ ¬(s.beside c d).usingFallback ∧
        (s.beside c d).universe_.id = id) := hknown
    rw [if_neg hknown, if_neg hnew]
    by_cases hlimit : s.now - s.lastUniverseSearch < seconds 1
    · have hlimit' : (s.beside c d).now - (s.beside c d).lastUniverseSearch < seconds 1 := hlimit
      rw [if_pos hlimit, if_pos hlimit']
      rfl
    have hdue : ¬(s.beside c d).now - (s.beside c d).lastUniverseSearch < seconds 1 := hlimit
    rw [if_neg hlimit, if_neg hdue]
    cases io.chaperone.lookup id with
    | some u => rfl
    | none =>
      exact universeNotFound_beside id o io.outcome c e d d' { s with lastUniverseSearch := s.now }

theorem updateUniverse_devices (io : Io F D ι) (s : Provider F D δ) :
    (s.updateUniverse io).devices = s.devices := by
  have hexit := universeExit io s
  generalize s.updateUniverse io = s' at hexit
  cases hexit <;> rfl

/-- Nothing but the client depends on the client and on what `send` does. -/
theorem updateUniverse_on (io : Io F D ι) (o : SendResult) (c e : Client) (s : Provider F D δ) :
    ((s.on c).updateUniverse { io with outcome := o }).on e = (s.updateUniverse io).on e := by
  have hdevices := updateUniverse_devices { io with outcome := o } (s.on c)
  have hsame := updateUniverse_beside io o c e s.devices s.devices s
  calc ((s.on c).updateUniverse { io with outcome := o }).on e
      = ((s.on c).updateUniverse { io with outcome := o }).beside e
          ((s.on c).updateUniverse { io with outcome := o }).devices := rfl
    _ = (s.updateUniverse io).beside e s.devices := by rw [hdevices]; exact hsame
    _ = (s.updateUniverse io).on e := by rw [← updateUniverse_devices io s]; rfl

end UpdateUniverse

/-- A step that calls `send` has nothing of the client but the result. -/
theorem frameStep_send {h : Handlers D δ ι} {io : Io F D ι} {s : Provider F D δ} {payload : Bytes}
    (hp : payloadOf io s = some payload) : s.frameStep h io =
      (s.resume io (s.client.send payload io.outcome).1).on
        (s.client.send payload io.outcome).2 := by
  cases hpc : s.pc with
  | idle | offline | checkGeneration | readGeneration | drain | messages | walk =>
    simp [payloadOf, hpc] at hp
  | updateUniverse =>
    simp only [payloadOf, hpc] at hp
    split at hp
    next hdue =>
      cases hp
      rcases client_updateUniverse io s with ⟨hno, -⟩ | ⟨-, hclient⟩
      · exact absurd (pathFailedDue_iff.mp hdue) hno
      · rw [← hclient]
        simp only [frameStep, resume, hpc]
        rfl
    next => cases hp
  | sendStatus hmd =>
    simp only [payloadOf, hpc] at hp
    split at hp
    next hdue =>
      cases hp
      simp only [frameStep, resume, hpc]
      unfold sendStatus
      exact if_pos hdue
    next => cases hp
  | sendUniverse hmd due =>
    simp only [payloadOf, hpc] at hp
    split at hp
    next hdue =>
      cases hp
      simp only [frameStep, resume, hpc]
      unfold sendUniverse
      exact if_pos hdue
    next => cases hp
  | sendHmdPose hmd =>
    simp only [payloadOf, hpc] at hp
    split at hp
    next hdue =>
      cases hp
      simp only [frameStep, resume, hpc]
      unfold sendHmdPose
      exact if_pos hdue
    next => cases hp

omit [FloatOrder F] [Arith F] [FloatOrder D] [Arith D] [FloatConv F D] [FloatBits F 32]
  [FloatBits D 64] in
theorem checkTimeouts_on (h : Handlers D δ ι) (io : Io F D ι) (c : Client) (s : Provider F D δ) :
    checkTimeouts h io (s.on c) = (checkTimeouts h io s).on c := by
  unfold checkTimeouts
  by_cases hdue : s.now - s.lastTimeoutCheck > milliseconds 200
  · have hdue' : (s.on c).now - (s.on c).lastTimeoutCheck > milliseconds 200 := hdue
    rw [if_pos hdue, if_pos hdue']
    rfl
  · have hearly : ¬(s.on c).now - (s.on c).lastTimeoutCheck > milliseconds 200 := hdue
    rw [if_neg hdue, if_neg hearly]

/-- A step that does not call `send`. -/
theorem frameStep_on {h : Handlers D δ ι} {io : Io F D ι} {s : Provider F D δ} {c c' : Client}
    (hp : payloadOf io s = none) (hc : SameShown c c') : (s.on c).frameStep h io =
      ((s.on c').frameStep h io).on (run Client.act (acts (.step io) s) c) := by
  have hpc' : ∀ c, (s.on c).pc = s.pc := fun _ => rfl
  cases hpc : s.pc with
  | idle =>
    simp only [frameStep, acts, hp, hpc', hpc]
    rfl
  | offline =>
    simp only [frameStep, acts, hp, hpc', hpc, on_client, hc.connected]
    exact congrArg (fun s : Provider F D δ => { s with pc := .idle }) (checkTimeouts_on h io c
      { s.on c' with
        pc := .offline
        devices := h.updateWalkInPlace io.vr s.now c'.connected s.devices })
  | checkGeneration =>
    simp only [frameStep, acts, hp, hpc', hpc, on_client, hc.generation]
    rfl
  | readGeneration =>
    simp only [frameStep, acts, hp, hpc', hpc, on_client, hc.generation]
    rfl
  | drain =>
    simp only [frameStep, acts, hpc', hpc, Client.drain, on_client, hc.queue]
    rfl
  | messages =>
    simp only [frameStep, acts, hp, hpc', hpc, handleMessage]
    have hnext : ∀ c, (s.on c).inbox[(s.on c).next]? = s.inbox[s.next]? := fun _ => rfl
    rw [hnext, hnext]
    split
    · rfl
    · exact congrArg (fun s : Provider F D δ => { s with pc := .walk }) (checkTimeouts_on h io c
        { s.on c' with pc := .messages, inbox := [], next := 0 })
  | walk =>
    simp only [frameStep, acts, hp, hpc', hpc, on_client, hc.connected]
    rfl
  | updateUniverse =>
    have hquiet : ∀ c, ¬ReportsFailure io (s.on c) := by
      intro c hdue
      have hp' : payloadOf io (s.on c) = none := hp
      simp only [payloadOf, hpc', hpc, if_pos (pathFailedDue_iff.mpr hdue)] at hp'
      cases hp'
    have hclient : ((s.on c).updateUniverse io).client = c := by
      rcases client_updateUniverse io (s.on c) with ⟨-, hclient⟩ | ⟨hdue, -⟩
      · exact hclient
      · exact absurd hdue (hquiet c)
    have hsame : (s.on c).updateUniverse io = ((s.on c').updateUniverse io).on c := by
      calc (s.on c).updateUniverse io
          = ((s.on c).updateUniverse io).on ((s.on c).updateUniverse io).client := rfl
        _ = ((s.on c).updateUniverse io).on c := by rw [hclient]
        _ = (s.updateUniverse io).on c := updateUniverse_on io io.outcome c c s
        _ = ((s.on c').updateUniverse io).on c := (updateUniverse_on io io.outcome c' c s).symm
    simp only [frameStep, acts, hp, hpc', hpc, hsame]
    rfl
  | sendStatus hmd =>
    have hquiet : statusDue hmd s = false := by
      simpa [payloadOf, hpc] using hp
    have hkeep : ∀ c, (s.on c).sendStatus io hmd = { s.on c with pc := .sendUniverse hmd false } :=
      fun c => if_neg (Bool.eq_false_iff.mp hquiet)
    simp only [frameStep, acts, hp, hpc', hpc, hkeep]
    rfl
  | sendUniverse hmd due =>
    have hquiet : (s.haveUniverse && (due || !s.helloSent)) = false := by
      simpa [payloadOf, hpc] using hp
    have hkeep : ∀ c, (s.on c).sendUniverse io hmd due = { s.on c with pc := .sendHmdPose hmd } :=
      fun c => if_neg (Bool.eq_false_iff.mp hquiet)
    simp only [frameStep, acts, hp, hpc', hpc, hkeep]
    rfl
  | sendHmdPose hmd =>
    have hquiet : ¬s.now - s.lastHmdSend ≥ milliseconds 10 := by
      simpa [payloadOf, hpc] using hp
    have hkeep : ∀ c, (s.on c).sendHmdPose io hmd = { s.on c with pc := .idle } :=
      fun c => if_neg hquiet
    simp only [frameStep, acts, hp, hpc', hpc, hkeep]
    rfl

omit [FloatOrder F] [Arith F] [FloatOrder D] [Arith D] [FloatConv F D] [FloatBits F 32]
  [FloatBits D 64] in
theorem beginFrame_on {s : Provider F D δ} {c c' : Client} (hc : SameShown c c') (now : Int) :
    (s.on c).beginFrame now = ((s.on c').beginFrame now).on c := by
  unfold beginFrame
  cases hpc : s.pc <;> simp only [on, hpc, hc.connected]

omit [FloatOrder F] [Arith F] [Arith D] [FloatConv F D] [FloatBits F 32] [FloatBits D 64] in
/-- Of the client and the devices, what follows a `send` has nothing but the result. -/
theorem resume_beside (io : Io F D ι) (o : SendResult) (ok : Bool) (c e : Client) (d d' : δ)
    (s : Provider F D δ) : ((s.beside c d).resume { io with outcome := o } ok).beside e d' =
      (s.resume io ok).beside e d' := by
  have hpc' : (s.beside c d).pc = s.pc := rfl
  unfold resume
  rw [hpc']
  cases hpc : s.pc with
  | updateUniverse =>
    exact congrArg (fun s : Provider F D δ => { s with pc := .sendStatus io.hmd })
      (updateUniverse_beside io o c e d d' s)
  | _ => rfl

omit [FloatOrder F] [Arith F] [Arith D] [FloatConv F D] [FloatBits F 32] [FloatBits D 64] in
theorem devices_resume (io : Io F D ι) (ok : Bool) (s : Provider F D δ) :
    (s.resume io ok).devices = s.devices := by
  unfold resume
  split
  · exact updateUniverse_devices io s
  all_goals rfl

omit [FloatOrder F] [Arith F] [Arith D] [FloatConv F D] [FloatBits F 32] [FloatBits D 64] in
theorem client_resume (io : Io F D ι) (ok : Bool) (s : Provider F D δ) :
    (s.resume io ok).client = s.client := by
  unfold resume
  split <;> rfl

omit [FloatOrder F] [Arith F] [Arith D] [FloatConv F D] [FloatBits F 32] [FloatBits D 64] in
theorem resume_on (io : Io F D ι) (o : SendResult) (ok : Bool) (c e : Client)
    (s : Provider F D δ) :
    ((s.on c).resume { io with outcome := o } ok).on e = (s.resume io ok).on e := by
  have hdevices := devices_resume { io with outcome := o } ok (s.on c)
  have hsame := resume_beside io o ok c e s.devices s.devices s
  calc ((s.on c).resume { io with outcome := o } ok).on e
      = ((s.on c).resume { io with outcome := o } ok).beside e
          ((s.on c).resume { io with outcome := o } ok).devices := rfl
    _ = (s.resume io ok).beside e s.devices := by rw [hdevices]; exact hsame
    _ = (s.resume io ok).on e := by rw [← devices_resume io ok s]; rfl

omit [FloatOrder F] [Arith F] [Arith D] [FloatConv F D] [FloatBits F 32] [FloatBits D 64] in
theorem resume_devices (io : Io F D ι) (ok : Bool) (d : δ) (s : Provider F D δ) :
    (s.beside s.client d).resume io ok = (s.resume io ok).beside s.client d := by
  have hclient := client_resume io ok (s.beside s.client d)
  have hdevices := devices_resume io ok (s.beside s.client d)
  calc (s.beside s.client d).resume io ok
      = ((s.beside s.client d).resume io ok).beside ((s.beside s.client d).resume io ok).client
          ((s.beside s.client d).resume io ok).devices := rfl
    _ = ((s.beside s.client d).resume io ok).beside s.client d := by rw [hclient, hdevices]; rfl
    _ = (s.resume io ok).beside s.client d := resume_beside io io.outcome ok s.client _ d d s

end Provider

/-! ## The simulation -/

/-- What a `send` that has no result yet is called with. -/
def payloadIn : Sender → Option Bytes
  | .lock payload | .load payload | .write payload _ => some payload
  | _ => none

theorem sameShown {s : Threads} {c : Client} (h : Threads.Shows s c) :
    Provider.SameShown c (shownClient s) where
  generation := h.generation
  connected := by rw [Client.connected, h.fd]; rfl
  queue := h.queue

namespace Process

variable [FloatOrder F] [Arith F] [FloatOrder D] [Arith D] [FloatConv F D] [FloatBits F 32]
  [FloatBits D 64]

open Provider

/-- `Provider` is where the two threads are. -/
structure Agrees (p : Process F D δ ι) (q : Provider F D δ) : Prop where
  held : p.threads.shared.Held
  shows : Threads.Shows p.threads q.client
  frame : q = p.settled.on q.client
  calling : ∀ io, p.calling = some io → p.threads.sender ≠ .idle ∧
    ∀ payload, payloadIn p.threads.sender = some payload → payloadOf io p.frame = some payload
  idle : p.calling = none → p.threads.sender = .idle

variable {p : Process F D δ ι} {q : Provider F D δ}

/-- Where the frame is not in `send`. -/
theorem Agrees.of_idle {threads : Threads} {frame : Provider F D δ} {c : Client}
    (hheld : threads.shared.Held) (hshows : Threads.Shows threads c)
    (hidle : threads.sender = .idle) :
    Agrees (⟨threads, frame, none⟩ : Process F D δ ι) (frame.on c) where
  held := hheld
  shows := hshows
  frame := rfl
  calling _ h := by cases h
  idle _ := hidle

theorem Agrees.not_calling (h : Agrees p q) (hcalling : p.calling = none) :
    q = p.frame.on q.client := by
  have hframe := h.frame
  rw [settled, hcalling] at hframe
  exact hframe

/-- A step that leaves the frame thread where it is. -/
theorem Agrees.of_threads (h : Agrees p q) {e : Threads.Event}
    (hsender : (Threads.step e p.threads).sender = p.threads.sender) :
    Agrees (p.onThreads e) (q.on (run Client.act (Threads.acts e p.threads) q.client)) where
  held := Threads.held_step e p.threads h.held
  shows := (Threads.linear_step e h.shows h.held).state
  frame := by
    have hsettled : (p.onThreads e).settled = p.settled := by
      simp only [settled, onThreads, hsender]
    rw [hsettled]
    exact (congrArg (on _) h.frame).trans (on_on _ _ _)
  calling io hio := by
    rw [onThreads, hsender]
    exact h.calling io hio
  idle hnone := by
    rw [onThreads, hsender]
    exact h.idle hnone

/-- A step in `send` that decides nothing. -/
theorem Agrees.of_send (h : Agrees p q) {io : Io F D ι} (hcalling : p.calling = some io)
    {o : SendResult} (hacts : Threads.acts (.send o) p.threads = [])
    (hresult : (p.threads.sendStep o).sender.result = p.threads.sender.result)
    (hne : (p.threads.sendStep o).sender ≠ .idle)
    (hpayload : ∀ payload, payloadIn (p.threads.sendStep o).sender = some payload →
      payloadIn p.threads.sender = some payload) :
    Agrees (p.onThreads (.send o)) q where
  held := Threads.held_step _ p.threads h.held
  shows := by
    have hshows := (Threads.linear_step (.send o) h.shows h.held).state
    rw [hacts] at hshows
    exact hshows
  frame := by
    have hsettled : (p.onThreads (.send o)).settled = p.settled := by
      simp only [settled, onThreads, Threads.step, hresult]
    rw [hsettled]
    exact h.frame
  calling io' hio' := ⟨hne, fun payload hp => (h.calling io' hio').2 payload (hpayload payload hp)⟩
  idle hnone := by
    have hnone : p.calling = none := hnone
    rw [hcalling] at hnone
    cases hnone

/-- The system call in which a `send` takes effect. -/
theorem Agrees.decides (hd : Handlers D δ ι) (h : Agrees p q) {io : Io F D ι}
    (hcalling : p.calling = some io)
    {o : SendResult} {payload : Bytes} (hpayload : payloadIn p.threads.sender = some payload)
    (hacts : Threads.acts (.send o) p.threads = [.send payload o])
    (hseen : Threads.seen (.send o) p.threads =
      (p.threads.sendStep o).sender.result.toList.map .returned) :
    Agrees (p.onThreads (.send o)) (q.frameStep hd { io with outcome := o }) := by
  have hlinear := Threads.linear_step (.send o) h.shows h.held
  have hshows := hlinear.state
  have hreturned := hlinear.seen
  rw [hacts, run_cons, run_nil, Client.act] at hshows
  rw [hseen, hacts, trace_cons, trace_nil, Client.seen] at hreturned
  generalize hsend : q.client.send payload o = w at hshows hreturned
  obtain ⟨ok, c⟩ := w
  have hresult : (p.threads.sendStep o).sender.result = some ok := by
    cases hr : (p.threads.sendStep o).sender.result with
    | none =>
      rw [hr] at hreturned
      cases hreturned
    | some ok' =>
      rw [hr] at hreturned
      cases hreturned
      rfl
  have hundecided : p.threads.sender.result = none := by
    cases hs : p.threads.sender with
    | unlock _ | shutdown _ =>
      rw [hs] at hpayload
      cases hpayload
    | _ => rfl
  have hframe : q = p.frame.on q.client := by
    have hsettled : p.settled = p.frame := by simp only [settled, hcalling, hundecided]
    rw [← hsettled]
    exact h.frame
  have hdue : payloadOf { io with outcome := o } q = some payload := by
    rw [hframe]
    exact (h.calling io hcalling).2 payload hpayload
  have hstep : q.frameStep hd { io with outcome := o } = (p.frame.resume io ok).on c := by
    rw [frameStep_send hdue, hsend, hframe]
    exact resume_on io o ok q.client c p.frame
  rw [hstep]
  refine ⟨Threads.held_step _ p.threads h.held, hshows, ?_, ?_, ?_⟩
  · have hsettled : (p.onThreads (.send o)).settled = p.frame.resume io ok := by
      simp only [settled, onThreads, Threads.step, hresult, hcalling]
    rw [hsettled]
    rfl
  · intro io' hio'
    refine ⟨fun hidle => ?_, fun payload' hp => ?_⟩
    · have hidle : (p.threads.sendStep o).sender = .idle := hidle
      rw [hidle] at hresult
      cases hresult
    · have hp : payloadIn (p.threads.sendStep o).sender = some payload' := hp
      cases hs : (p.threads.sendStep o).sender with
      | lock _ | load _ | write _ _ =>
        rw [hs] at hresult
        cases hresult
      | _ =>
        rw [hs] at hp
        cases hp
  · intro hnone
    have hnone : p.calling = none := hnone
    rw [hcalling] at hnone
    cases hnone

/-- A step in `send`. -/
theorem Agrees.send (hd : Handlers D δ ι) (h : Agrees p q) (o : SendResult) :
    Agrees (p.sendStep o) (run (Provider.step hd) (events (.send o) p) q) := by
  cases hcalling : p.calling with
  | none =>
    have hidle := h.idle hcalling
    have hstay : p.threads.sendStep o = p.threads := by simp only [Threads.sendStep, hidle]
    have hp : p.sendStep o = p := by
      simp only [sendStep, hcalling, onThreads, Threads.step, hstay]
      rw [← hcalling]
    have hevents : events (.send o) p = [] := by simp only [events, hcalling]
    rw [hp, hevents]
    exact h
  | some io =>
    -- the steps that are none of `Provider`'s
    have hquiet : Threads.acts (.send o) p.threads = [] →
        p.sendStep o = p.onThreads (.send o) →
        (p.threads.sendStep o).sender.result = p.threads.sender.result →
        (p.threads.sendStep o).sender ≠ .idle →
        (∀ payload, payloadIn (p.threads.sendStep o).sender = some payload →
          payloadIn p.threads.sender = some payload) →
        Agrees (p.sendStep o) (run (Provider.step hd) (events (.send o) p) q) := by
      intro hacts hp hresult hne hpayload
      have hevents : events (.send o) p = [] := by simp only [events, hcalling, hacts]
      rw [hp, hevents]
      exact h.of_send hcalling hacts hresult hne hpayload
    -- and the one that is
    have hdecides : ∀ payload, payloadIn p.threads.sender = some payload →
        Threads.acts (.send o) p.threads = [.send payload o] →
        Threads.seen (.send o) p.threads =
          (p.threads.sendStep o).sender.result.toList.map .returned →
        p.sendStep o = p.onThreads (.send o) →
        Agrees (p.sendStep o) (run (Provider.step hd) (events (.send o) p) q) := by
      intro payload hpayload hacts hseen hp
      have hevents : events (.send o) p = [.step { io with outcome := o }] := by
        simp only [events, hcalling, hacts]
      rw [hp, hevents]
      exact h.decides hd hcalling hpayload hacts hseen
    cases hs : p.threads.sender with
    | idle => exact absurd hs (h.calling io hcalling).1
    | lock payload =>
      have hstep : (p.threads.sendStep o).sender = .load payload ∨
          (p.threads.sendStep o).sender = .lock payload := by
        simp only [Threads.sendStep, hs]
        split
        · exact Or.inl rfl
        · exact Or.inr hs
      refine hquiet (by simp only [Threads.acts, hs]) (by simp only [sendStep, hcalling, hs])
        ?_ ?_ ?_
      · rcases hstep with hstep | hstep
        · rw [hstep, hs]
          rfl
        · rw [hstep, hs]
      · rcases hstep with hstep | hstep <;> simp [hstep]
      · rcases hstep with hstep | hstep <;> rw [hstep, hs] <;> exact fun _ hp => hp
    | load payload =>
      have hp : p.sendStep o = p.onThreads (.send o) := by simp only [sendStep, hcalling, hs]
      cases hfd : p.threads.fd with
      | none =>
        exact hdecides payload (by rw [hs]; rfl) (by simp only [Threads.acts, hs, hfd, if_true])
          (by simp only [Threads.seen, hs]) hp
      | some fd =>
        have hstep : (p.threads.sendStep o).sender = .write payload fd := by
          simp only [Threads.sendStep, hs, hfd]
        refine hquiet (by simp [Threads.acts, hs, hfd]) hp ?_ ?_ ?_
        · rw [hstep, hs]
          rfl
        · rw [hstep]
          simp
        · rw [hstep, hs]
          exact fun _ hp => hp
    | write payload fd =>
      exact hdecides payload (by rw [hs]; rfl) (by simp only [Threads.acts, hs])
        (by simp only [Threads.seen, hs]) (by simp only [sendStep, hcalling, hs])
    | shutdown fd =>
      have hstep : (p.threads.sendStep o).sender = .unlock false := by
        simp only [Threads.sendStep, hs]
        split <;> rfl
      refine hquiet (by simp only [Threads.acts, hs]) (by simp only [sendStep, hcalling, hs])
        ?_ ?_ ?_
      · rw [hstep, hs]
        rfl
      · rw [hstep]
        simp
      · rw [hstep]
        exact fun _ hp => by cases hp
    | unlock ok =>
      have hacts : Threads.acts (.send o) p.threads = [] := by simp only [Threads.acts, hs]
      have hevents : events (.send o) p = [] := by simp only [events, hcalling, hacts]
      have hp : p.sendStep o =
          ⟨Threads.step (.send o) p.threads, p.frame.resume io ok, none⟩ := by
        simp only [sendStep, hcalling, hs]
        rfl
      have hsettled : p.settled = p.frame.resume io ok := by
        simp only [settled, hcalling, hs, Sender.result]
      have hshows := (Threads.linear_step (.send o) h.shows h.held).state
      rw [hacts] at hshows
      have hframe : q = (p.frame.resume io ok).on q.client := by
        rw [← hsettled]
        exact h.frame
      rw [hp, hevents, run_nil, hframe]
      refine Agrees.of_idle (Threads.held_step _ p.threads h.held) hshows ?_
      simp only [Threads.step, Threads.sendStep, hs]

/-- A step of a frame that is not in `send`. -/
theorem Agrees.frameStep (hd : Handlers D δ ι) (h : Agrees p q) (hcalling : p.calling = none)
    (io : Io F D ι) : Agrees (p.frameStep hd io)
      (run (Provider.step hd) (events (.step io) p) q) := by
  have hidle := h.idle hcalling
  have hframe := h.not_calling hcalling
  cases hpayload : payloadOf io p.frame with
  | some payload =>
    have hp : p.frameStep hd io =
        ⟨Threads.step (.call payload) p.threads, p.frame, some io⟩ := by
      simp only [Process.frameStep, hpayload, onThreads]
    have hevents : events (.step io) p = [] := by simp [events, hpayload]
    have hcall : Threads.step (.call payload) p.threads =
        { p.threads with sender := .lock payload } := by
      simp only [Threads.step, hidle, if_true]
    rw [hp, hevents, run_nil]
    refine ⟨Threads.held_step _ p.threads h.held,
      (Threads.linear_step (.call payload) h.shows h.held).state, ?_, ?_,
      fun hnone => by cases hnone⟩
    · rw [hcall]
      exact hframe
    · intro io' hio'
      cases hio'
      rw [hcall]
      exact ⟨by simp, fun payload' hp' => by cases hp'; exact hpayload⟩
  | none =>
    have hevents : events (.step io) p = [.step io] := by
      simp only [events, hcalling, hpayload, Option.isNone_none, and_self, if_true]
    have hstep : q.frameStep hd io = ((p.frame.on (shownClient p.threads)).frameStep hd io).on
        (run Client.act (Provider.acts (.step io) p.frame) q.client) := by
      rw [hframe]
      exact frameStep_on hpayload (sameShown h.shows)
    rw [hevents, run_cons, run_nil, Provider.step, hstep]
    by_cases hpc : p.frame.pc = .drain
    · have hp : p.frameStep hd io = ⟨Threads.step .drain p.threads,
          (p.frame.on (shownClient p.threads)).frameStep hd io, none⟩ := by
        simp only [Process.frameStep, hpayload, hpc, onThreads, hcalling]
      have hacts : Provider.acts (.step io) p.frame = Threads.acts .drain p.threads := by
        simp only [Provider.acts, hpc, Threads.acts, hidle, if_true]
      rw [hp, hacts]
      refine Agrees.of_idle (Threads.held_step _ p.threads h.held)
        (Threads.linear_step .drain h.shows h.held).state ?_
      simp only [Threads.step, hidle, if_true]
    · have hp : p.frameStep hd io = ⟨p.threads,
          (p.frame.on (shownClient p.threads)).frameStep hd io, none⟩ := by
        simp only [Process.frameStep, hpayload, hcalling]
      have hacts : Provider.acts (.step io) p.frame = [] := by
        simp only [Provider.acts, hpayload, Option.toList_none, List.map_nil]
      rw [hp, hacts]
      exact Agrees.of_idle h.held h.shows hidle

theorem Agrees.outside (h : Agrees p q) (f : δ → δ) :
    Agrees { p with frame := { p.frame with devices := f p.frame.devices } }
      { q with devices := f q.devices } where
  held := h.held
  shows := h.shows
  frame := by
    have hdevices : q.devices = p.frame.devices := by
      rw [h.frame]
      show p.settled.devices = _
      rw [settled]
      split
      · exact devices_resume _ _ p.frame
      · rfl
    have hsettled : settled { p with frame := { p.frame with devices := f p.frame.devices } } =
        p.settled.beside p.settled.client (f p.frame.devices) := by
      cases hcalling : p.calling with
      | none =>
        simp only [settled, hcalling]
        rfl
      | some io =>
        cases hresult : p.threads.sender.result with
        | none =>
          simp only [settled, hcalling, hresult]
          rfl
        | some ok =>
          simp only [settled, hcalling, hresult, client_resume]
          exact resume_devices io ok (f p.frame.devices) p.frame
    rw [hsettled, hdevices]
    exact congrArg (fun s : Provider F D δ => { s with devices := f p.frame.devices }) h.frame
  calling io hio := h.calling io hio
  idle := h.idle

theorem run_net (hd : Handlers D δ ι) (es : List Client.Event) (q : Provider F D δ) :
    run (Provider.step hd) (es.map .net) q = q.on (run Client.step es q.client) := by
  induction es generalizing q with
  | nil => rfl
  | cons e es ih => exact ih _

/-- **A step of the two threads is at most one step of `Provider`.** -/
theorem Agrees.step (hd : Handlers D δ ι) (e : Event F D δ ι) (p : Process F D δ ι)
    (q : Provider F D δ) (h : Agrees p q) :
    Agrees (step hd e p) (run (Provider.step hd) (events e p) q) := by
  cases e with
  | net a =>
    have hnet := h.of_threads (e := .net a) (Threads.netStep_rest a p.threads).2
    have hacts : Threads.acts (.net a) p.threads = (Threads.netEvents a p.threads).map .net := rfl
    rw [hacts, Threads.run_map_net] at hnet
    rw [events, run_net]
    exact hnet
  | frame now =>
    cases hcalling : p.calling with
    | none =>
      have hp : Process.step hd (.frame now) p =
          ⟨p.threads, (p.frame.on (shownClient p.threads)).beginFrame now, none⟩ := by
        simp only [Process.step, hcalling]
      have hevents : events (.frame now) p = [.frame now] := by simp [events, hcalling]
      have hstep : q.beginFrame now =
          ((p.frame.on (shownClient p.threads)).beginFrame now).on q.client := by
        rw [← beginFrame_on (sameShown h.shows)]
        exact congrArg (beginFrame now) (h.not_calling hcalling)
      rw [hp, hevents, run_cons, run_nil, Provider.step, hstep]
      exact Agrees.of_idle h.held h.shows (h.idle hcalling)
    | some io =>
      have hp : Process.step hd (.frame now) p = p := by simp only [Process.step, hcalling]
      have hevents : events (.frame now) p = [] := by simp [events, hcalling]
      rw [hp, hevents]
      exact h
  | step io =>
    cases hcalling : p.calling with
    | none =>
      have hp : Process.step hd (.step io) p = p.frameStep hd io := by
        simp only [Process.step, hcalling]
      rw [hp]
      exact h.frameStep hd hcalling io
    | some io' =>
      have hp : Process.step hd (.step io) p = p := by simp only [Process.step, hcalling]
      have hevents : events (.step io) p = [] := by simp [events, hcalling]
      rw [hp, hevents]
      exact h
  | send o => exact h.send hd o
  | outside f => exact h.outside f
  | stop => exact h.of_threads (e := .stop) rfl
  | opens fd =>
    refine h.of_threads (e := .opens fd) ?_
    rw [Threads.step]
    split <;> rfl
  | closes fd =>
    refine h.of_threads (e := .closes fd) ?_
    rw [Threads.step]
    split <;> rfl

/-! ## The run -/

theorem agrees_init (devices : δ) (fallback : Bool) (path : String) (isOpen : Nat → Bool) :
    Agrees (init devices fallback path isOpen : Process F D δ ι)
      (Provider.init devices fallback path) where
  held := Shared.held_init isOpen
  shows := Threads.shows_init isOpen
  frame := rfl
  calling _ h := by cases h
  idle _ := rfl

/-- **What the two threads do, `Provider` does**, in every interleaving of their system calls with
each other and with the rest of the process: there is a run of `Provider` after which the client is
where the threads are, and the frame where its thread is, once the `send` it is in has returned. -/
theorem refines (hd : Handlers D δ ι) (devices : δ) (fallback : Bool) (path : String)
    (isOpen : Nat → Bool) (es : List (Event F D δ ι)) :
    let p := run (step hd) es (init devices fallback path isOpen)
    let q := after hd devices fallback path
      (trace events (step hd) es (init devices fallback path isOpen))
    Threads.Shows p.threads q.client ∧ q = p.settled.on q.client :=
  have h := run_trace_of_related (Agrees.step hd) es (agrees_init devices fallback path isOpen)
  ⟨h.shows, h.frame⟩

end Process

end Rebocap.Driver
