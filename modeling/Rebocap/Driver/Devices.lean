import Rebocap.Driver.WipSafety

/-!
# The devices of `RunFrame`

What the calls of `RunFrame` and the steps outside it keep of the devices holds in every state of
the driver. So a session of walk-in-place can be the driver's.

* `Provider.devices_invariant` — an invariant of the devices
* `WipSafety.safe_of_driver` — walk-in-place is safe under `RunFrame`
-/

namespace Rebocap.Driver

open Lib Proto FloatConv FloatBits

variable {F D δ ι : Type}

namespace Provider

/-- The devices keep `P` in every call, and in the steps outside. -/
structure Keeps (h : Handlers D δ ι) (outside : (δ → δ) → Prop) (P : δ → Prop) : Prop where
  onMessage : ∀ io m u now d, P d → P (h.onMessage io m u now d)
  checkTimeouts : ∀ io d, P d → P (h.checkTimeouts io d)
  updateWalkInPlace : ∀ io now connected d, P d → P (h.updateWalkInPlace io now connected d)
  outside : ∀ f, outside f → ∀ d, P d → P (f d)

/-- The steps outside `RunFrame` are of a kind. -/
def Outside (outside : (δ → δ) → Prop) : Event F D δ ι → Prop
  | .outside f => outside f
  | _ => True

variable {h : Handlers D δ ι} {outside : (δ → δ) → Prop} {P : δ → Prop}

theorem devices_checkTimeouts (hk : Keeps h outside P) (io : Io F D ι) (s : Provider F D δ)
    (hs : P s.devices) : P (checkTimeouts h io s).devices := by
  unfold checkTimeouts
  split
  · exact hk.checkTimeouts io.vr s.devices hs
  · exact hs

theorem devices_universeNotFound [Zero D] (id : UInt64) (o : Net.SendResult)
    (s : Provider F D δ) : (s.universeNotFound id o).devices = s.devices := by
  unfold universeNotFound
  split
  · rfl
  · dsimp only
    have hsent : ∀ s' : Provider F D δ, s'.devices = s.devices →
        (if s'.universeFallback ∧ s'.universeFailures ≥ 3 then
          { s' with
            universe_ := Universe.zero id
            haveUniverse := true
            usingFallback := true
            helloSent := false } else s').devices = s.devices := by
      intro s' hs'
      split <;> exact hs'
    refine hsent _ ?_
    split <;> rfl

theorem devices_updateUniverse [Zero D] (io : Io F D ι) (s : Provider F D δ) :
    (s.updateUniverse io).devices = s.devices := by
  unfold updateUniverse
  split
  · rfl
  · split
    · rfl
    · split
      · rfl
      · dsimp only
        split
        · rfl
        · exact devices_universeNotFound _ _ _

variable [FloatOrder F] [Arith F] [FloatOrder D] [Arith D] [FloatConv F D] [FloatBits F 32]
  [FloatBits D 64]

theorem devices_frameStep (hk : Keeps h outside P) (io : Io F D ι) (s : Provider F D δ)
    (hs : P s.devices) : P (s.frameStep h io).devices := by
  unfold frameStep
  split
  · exact hs
  · exact devices_checkTimeouts hk io _ (hk.updateWalkInPlace _ _ _ _ hs)
  · exact hs
  · exact hs
  · exact hs
  · unfold handleMessage
    split
    · exact hk.onMessage _ _ _ _ _ hs
    · exact devices_checkTimeouts hk io _ hs
  · exact hk.updateWalkInPlace _ _ _ _ hs
  · dsimp only
    rw [devices_updateUniverse]
    exact hs
  · unfold sendStatus
    dsimp only
    split <;> exact hs
  · unfold sendUniverse
    split <;> exact hs
  · unfold sendHmdPose
    split <;> exact hs

/-- **What every call keeps of the devices holds in every state of the driver.** -/
theorem devices_invariant (hk : Keeps h outside P) {devices : δ} (hdevices : P devices)
    (universeFallback : Bool) (defaultChaperone : String) (es : List (Event F D δ ι))
    (hes : ∀ e ∈ es, Outside outside e) :
    P (after h devices universeFallback defaultChaperone es).devices := by
  have hstep : ∀ (e : Event F D δ ι) (s : Provider F D δ), Outside outside e → P s.devices →
      P (step h e s).devices := by
    intro e s he hs
    cases e with
    | net e => exact hs
    | frame now =>
      rcases beginFrame_cases now s with hb | ⟨-, -, hb⟩ | ⟨-, -, hb⟩ <;>
        rw [step, hb] <;> exact hs
    | step io => exact devices_frameStep hk io s hs
    | outside f => exact hk.outside f he _ hs
  exact run_invariant_of_meets hstep es (Meets.of_forall es hes)
    hdevices

end Provider

/-! ## Walk-in-place as a device -/

namespace WipSafety

open Hooks

/-- What vrserver and the other drivers do. -/
def IsOutside : WipSafety.Event → Prop
  | .create .. | .update .. | .activate .. | .deactivate => True
  | _ => False

section Handlers

variable [Arith Binary32]

/-- The calls of `RunFrame`, as steps of a session. SteamVR's answers are what
`UpdateWalkInPlace` reads, and whether a treadmill is accepted. -/
def handlers : Handlers D (Session D) (WalkIo Binary32 × Bool) where
  onMessage io m _ now s := run step [.wait (now - s.clock).toNat, .message m, .proceed io.2,
    .proceed io.2, .proceed io.2] s
  checkTimeouts _ s := s
  updateWalkInPlace io now connected s := run step [.wait (now - s.clock).toNat,
    .updateWalkInPlace { io.1 with connected := connected }] s

/-- Under a clock that does not go back, the steps for a message are its handler. -/
theorem handlers_onMessage {s : Session D} {now : Int} (hpc : s.pc = .idle)
    (hclock : s.clock ≤ now) (io : WalkIo Binary32 × Bool) (m : Msg) (u : Option (Universe D)) :
    let s' := handlers.onMessage io m u now s
    s'.walk = (match m.kind with
      | .wipSetting => s.walk.onWipSetting io.2 m
      | .wipInfo => s.walk.onWipInfo m now
      | _ => s.walk) ∧ s'.pc = .idle ∧ s'.clock = now := by
  have hnow : s.clock + ((now - s.clock).toNat : Int) = now := by omega
  simp only [handlers, run_cons, run_nil, step, hpc, onMessage]
  cases hk : m.kind with
  | wipSetting =>
    simp only [WalkInPlace.onWipSetting]
    rcases s.walk.assignSetting m with ⟨walk, changed⟩
    cases changed
    · exact ⟨rfl, rfl, hnow⟩
    · exact ⟨rfl, rfl, hnow⟩
  | wipInfo => simp only [proceed, hnow, and_self]
  | _ => simp only [proceed, hnow, and_self]

theorem handlers_updateWalkInPlace {s : Session D} {now : Int} (hpc : s.pc = .idle)
    (hclock : s.clock ≤ now) (io : WalkIo Binary32 × Bool) (connected : Bool) :
    let s' := handlers.updateWalkInPlace io now connected s
    s'.walk = s.walk.updateWalkInPlace { io.1 with connected := connected } now ∧
      s'.pc = .idle ∧ s'.clock = now := by
  have hnow : s.clock + ((now - s.clock).toNat : Int) = now := by omega
  simp only [handlers, run_cons, run_nil, step, hpc, hnow, and_self]

variable [FloatOrder F] [Arith F] [FloatOrder D] [Arith D] [FloatConv F D] [FloatBits F 32]
  [FloatBits D 64]

/-- **Walk-in-place is safe in every state of the driver**, whatever vrserver and the other drivers
do at any point of a frame. -/
theorem safe_of_driver (installed : Bool) (driverInput : DriverInput)
    (poseHooks : PoseHooks.State D) (waistDirection : Bool) (clock : Int)
    (universeFallback : Bool) (defaultChaperone : String)
    (es : List (Provider.Event F D (Session D) (WalkIo Binary32 × Bool)))
    (hes : ∀ e ∈ es, Provider.Outside (fun f => ∃ e, IsOutside e ∧ f = step e) e) :
    Safe (Provider.after handlers
      (Session.init installed driverInput poseHooks waistDirection clock) universeFallback
      defaultChaperone es).devices := by
  have hkeeps : Provider.Keeps (handlers : Handlers D _ _) (fun f => ∃ e, IsOutside e ∧ f = step e)
      fun s => ∃ fs : List WipSafety.Event, s = run step fs
        (Session.init installed driverInput poseHooks waistDirection clock) := by
    refine ⟨?_, ?_, ?_, ?_⟩
    · rintro io m u now - ⟨fs, rfl⟩
      exact ⟨fs ++ _, (run_append _ _ _ _).symm⟩
    · intro io s hs
      exact hs
    · rintro io now connected - ⟨fs, rfl⟩
      exact ⟨fs ++ _, (run_append _ _ _ _).symm⟩
    · rintro - ⟨e, -, rfl⟩ - ⟨fs, rfl⟩
      exact ⟨fs ++ [e], (run_append step fs [e] _).symm⟩
  have hinit : ∃ fs : List Event,
      (Session.init installed driverInput poseHooks waistDirection clock : Session D) = run step fs
        (Session.init installed driverInput poseHooks waistDirection clock) := ⟨[], rfl⟩
  obtain ⟨fs, hfs⟩ := Provider.devices_invariant hkeeps hinit universeFallback defaultChaperone es
    hes
  rw [hfs]
  obtain ⟨hr, hx, hh⟩ := kept_run (D := D) installed driverInput poseHooks waistDirection clock fs
  exact safe hr hx hh

end Handlers

end WipSafety

end Rebocap.Driver
