import Rebocap.Driver.Devices
import Rebocap.Lib.Simulation

/-!
# What the devices see of the driver

For its devices a run of the driver is a run of a smaller machine: frames start, and each hands over
messages, calls walk-in-place and comes to its timeout check. Where a frame is, and what the network
thread does in between, does not show.

* `Provider.rounds_step` — a step of the driver is a run of turns
* `Provider.rounds_after` — and so is every run of it
* `Provider.rounds_invariant` — what the turns keep holds in every state
-/

namespace Rebocap.Driver

open Lib Proto Net FloatConv FloatBits

variable {F D δ ι : Type}

/-! ## The machine -/

/-- What the devices see of the driver. -/
structure Rounds (δ : Type) where
  devices : δ
  /-- The messages handled so far, each with `generation_` in its frame. -/
  handled : List (Nat × Received)
  /-- When the frame has started. -/
  now : Int
  /-- `last_timeout_check_`. -/
  checked : Int
  /-- The frame has been at its timeout check. -/
  settled : Bool

inductive Turn (D δ ι : Type) where
  | frame (now : Int)
  | message (io : ι) (m : Nat × Received) (u : Option (Universe D))
  | updateWalkInPlace (io : ι) (connected : Bool)
  | checkTimeouts (io : ι)
  | outside (f : δ → δ)

namespace Rounds

def turn (h : Handlers D δ ι) : Turn D δ ι → Rounds δ → Rounds δ
  | .frame now, r => { r with now := now, settled := false }
  | .message io m u, r =>
    { r with
      devices := h.onMessage io m.2.msg u r.now r.devices
      handled := r.handled ++ [m] }
  | .updateWalkInPlace io connected, r =>
    { r with devices := h.updateWalkInPlace io r.now connected r.devices }
  | .checkTimeouts io, r =>
    if r.now - r.checked > milliseconds 200 then
      { r with devices := h.checkTimeouts io r.devices, checked := r.now, settled := true }
    else { r with settled := true }
  | .outside f, r => { r with devices := f r.devices }

def init (devices : δ) : Rounds δ where
  devices := devices
  handled := []
  now := 0
  checked := 0
  settled := true

end Rounds

/-! ## The driver -/

/-- A frame that is there has been at its timeout check. -/
def Pc.settled : Pc F → Bool
  | .offline | .checkGeneration | .readGeneration | .drain | .messages => false
  | _ => true

namespace Provider

def rounds (s : Provider F D δ) : Rounds δ where
  devices := s.devices
  handled := s.handled
  now := s.now
  checked := s.lastTimeoutCheck
  settled := s.pc.settled

/-- The turns of a step of a frame. -/
def frameTurns (io : Io F D ι) (s : Provider F D δ) : List (Turn D δ ι) :=
  match s.pc with
  | .offline => [.updateWalkInPlace io.vr s.client.connected, .checkTimeouts io.vr]
  | .messages =>
    match s.inbox[s.next]? with
    | some m => [.message io.vr (s.generation, m) s.knownUniverse]
    | none => [.checkTimeouts io.vr]
  | .walk => [.updateWalkInPlace io.vr s.client.connected]
  | _ => []

/-- The turns of a step of the driver. -/
def turns (e : Event F D δ ι) (s : Provider F D δ) : List (Turn D δ ι) :=
  match e with
  | .net _ => []
  | .frame now =>
    match s.pc with
    | .idle => [.frame now]
    | _ => []
  | .step io => s.frameTurns io
  | .outside f => [.outside f]

/-- What a step of a frame does with what it reads. -/
theorem mem_frameTurns {io : Io F D ι} {s : Provider F D δ} {t : Turn D δ ι}
    (h : t ∈ s.frameTurns io) :
    (∃ m u, t = .message io.vr m u) ∨ (∃ connected, t = .updateWalkInPlace io.vr connected) ∨
      t = .checkTimeouts io.vr := by
  unfold frameTurns at h
  cases hpc : s.pc with
  | offline =>
    simp only [hpc, List.mem_cons, List.not_mem_nil, or_false] at h
    rcases h with rfl | rfl
    · exact .inr (.inl ⟨_, rfl⟩)
    · exact .inr (.inr rfl)
  | messages =>
    simp only [hpc] at h
    split at h
    · exact .inl ⟨_, _, List.mem_singleton.mp h⟩
    · exact .inr (.inr (List.mem_singleton.mp h))
  | walk =>
    simp only [hpc] at h
    exact .inr (.inl ⟨_, List.mem_singleton.mp h⟩)
  | _ => simp [hpc] at h

/-- The next step of the frame comes to the timeout check. -/
def atCheck (s : Provider F D δ) : Bool :=
  match s.pc with
  | .offline => true
  | .messages => s.inbox[s.next]?.isNone
  | _ => false

theorem check_mem_frameTurns {io : Io F D ι} {s : Provider F D δ} :
    .checkTimeouts io.vr ∈ s.frameTurns io ↔ s.atCheck = true := by
  unfold frameTurns atCheck
  cases hpc : s.pc with
  | messages => cases hm : s.inbox[s.next]? <;> simp
  | _ => simp

/-- A turn outside a frame is of a kind. -/
def OutsideTurn (outside : (δ → δ) → Prop) : Turn D δ ι → Prop
  | .outside f => outside f
  | _ => True

theorem meets_outsideTurn {outside : (δ → δ) → Prop} {e : Event F D δ ι} (he : Outside outside e)
    (h : Handlers D δ ι) (s : Provider F D δ) :
    Meets (fun t _ => OutsideTurn outside t) (Rounds.turn h) (turns e s) s.rounds := by
  refine Meets.of_forall _ fun t ht => ?_
  cases e with
  | net e => cases ht
  | frame now =>
    simp only [turns] at ht
    split at ht
    · rw [List.mem_singleton.mp ht]
      trivial
    · cases ht
  | step io =>
    rcases mem_frameTurns ht with ⟨m, u, rfl⟩ | ⟨connected, rfl⟩ | rfl <;> trivial
  | outside f =>
    rw [List.mem_singleton.mp ht]
    exact he

theorem rounds_checkTimeouts (h : Handlers D δ ι) (io : Io F D ι) (s : Provider F D δ) (pc : Pc F)
    (hpc : pc.settled = true) :
    ({ checkTimeouts h io s with pc := pc } : Provider F D δ).rounds
      = Rounds.turn h (.checkTimeouts io.vr) s.rounds := by
  by_cases hdue : s.now - s.lastTimeoutCheck > milliseconds 200
  · simp [checkTimeouts, rounds, Rounds.turn, hdue, hpc]
  · simp [checkTimeouts, rounds, Rounds.turn, hdue, hpc]

theorem rounds_updateUniverse [Zero D] (io : Io F D ι) (s : Provider F D δ) :
    (s.updateUniverse io).rounds = s.rounds := by
  have hexit := universeExit io s
  generalize s.updateUniverse io = s' at hexit
  cases hexit <;> rfl

section Steps

variable [FloatOrder F] [Arith F] [FloatOrder D] [Arith D] [FloatConv F D] [FloatBits F 32]
  [FloatBits D 64]

theorem rounds_frameStep (h : Handlers D δ ι) (io : Io F D ι) (s : Provider F D δ) :
    (s.frameStep h io).rounds = run (Rounds.turn h) (s.frameTurns io) s.rounds := by
  unfold frameStep frameTurns
  cases hpc : s.pc with
  | idle => rfl
  | offline =>
    dsimp only
    rw [rounds_checkTimeouts h io _ .idle rfl]
    simp [rounds, Rounds.turn, hpc, Pc.settled]
  | checkGeneration =>
    by_cases hgen : s.client.generation ≠ s.generation <;>
      simp [rounds, hgen, hpc, Pc.settled]
  | readGeneration | drain | walk => simp [rounds, Rounds.turn, hpc, Pc.settled]
  | messages =>
    unfold handleMessage
    dsimp only
    cases hm : s.inbox[s.next]? with
    | some m => simp [rounds, Rounds.turn, hpc, Pc.settled]
    | none =>
      dsimp only
      rw [rounds_checkTimeouts h io _ .walk rfl]
      simp [rounds, hpc, Pc.settled]
  | updateUniverse =>
    have hkept := rounds_updateUniverse io s
    simp only [rounds, Rounds.mk.injEq] at hkept
    simp [rounds, hkept, hpc, Pc.settled]
  | sendStatus hmd =>
    unfold sendStatus
    dsimp only
    split <;> simp [rounds, hpc, Pc.settled]
  | sendUniverse hmd due =>
    unfold sendUniverse
    dsimp only
    split <;> simp [rounds, hpc, Pc.settled]
  | sendHmdPose hmd =>
    unfold sendHmdPose
    dsimp only
    split <;> simp [rounds, sendAndForget, hpc, Pc.settled]

/-- **A step of the driver is a run of turns.** -/
theorem rounds_step (h : Handlers D δ ι) (e : Event F D δ ι) (s : Provider F D δ) :
    (step h e s).rounds = run (Rounds.turn h) (turns e s) s.rounds := by
  cases e with
  | net e => rfl
  | frame now =>
    simp only [step, turns, beginFrame]
    cases hpc : s.pc with
    | idle =>
      cases hc : s.client.connected <;> simp [rounds, Rounds.turn, Pc.settled]
    | _ => simp
  | step io => exact rounds_frameStep h io s
  | outside f => rfl

/-- **For its devices a run of the driver is a run of turns.** -/
theorem rounds_after (h : Handlers D δ ι) (devices : δ) (universeFallback : Bool)
    (defaultChaperone : String) (es : List (Event F D δ ι)) :
    (after h devices universeFallback defaultChaperone es).rounds
      = run (Rounds.turn h)
          (trace turns (step h) es (init devices universeFallback defaultChaperone))
          (.init devices) :=
  run_trace (fun e s => rounds_step h e s) es _

/-- **What the turns keep that the steps allow holds in every state of the driver.** -/
theorem rounds_invariant {h : Handlers D δ ι} {ok : Event F D δ ι → Provider F D δ → Prop}
    {allowed : Turn D δ ι → Rounds δ → Prop} {P : Rounds δ → Prop}
    (hallowed : ∀ e s, ok e s → Meets allowed (Rounds.turn h) (turns e s) s.rounds)
    (hkeep : ∀ t r, allowed t r → P r → P (Rounds.turn h t r))
    {devices : δ} (hinit : P (.init devices)) (universeFallback : Bool)
    (defaultChaperone : String) (es : List (Event F D δ ι))
    (hes : Meets ok (step h) es (init devices universeFallback defaultChaperone)) :
    P (after h devices universeFallback defaultChaperone es).rounds := by
  have hmeets := Meets.trace (fun e s => rounds_step h e s) hallowed es hes
  rw [rounds_after]
  exact run_invariant_of_meets hkeep _ hmeets hinit

end Steps

end Provider

end Rebocap.Driver
