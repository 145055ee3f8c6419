import Rebocap.Driver.Delivery
import Rebocap.Lib.RatScalar

/-!
# Messages and the connections they came on

`queue_` is kept when the connection is lost. A message that no frame has taken by then is handled
in a frame of the next connection, as if it had just arrived.

* `stale_wip_info` — a `wip_info` from before a reconnect is handled after it
* `handled_of_emptied` — where the queue is empty at every reconnect, every message is handled in
  a frame whose `generation_` is its connection
-/

namespace Rebocap.Driver

open Lib Proto Net FloatConv FloatBits

variable {F D δ ι : Type}

namespace Provider

/-! ## Reconnects -/

/-- The step makes a new connection. -/
def Connects (e : Event F D δ ι) (s : Provider F D δ) : Prop :=
  e = .net .connect ∧ s.client.thread = .connecting

/-- No reconnect between the frame's generation check and its drain. -/
def NotBeforeDrain (e : Event F D δ ι) (s : Provider F D δ) : Prop :=
  Connects e s → s.pc ≠ .readGeneration ∧ s.pc ≠ .drain

/-- A new connection is made with an empty queue. -/
def Emptied (e : Event F D δ ι) (s : Provider F D δ) : Prop :=
  Connects e s → s.client.queue = []

/-! ## The messages and their connections -/

structure Fresh (s : Provider F D δ) : Prop where
  queue : ∀ r ∈ s.client.queue, r.conn = s.client.generation
  inbox : ∀ r ∈ s.inbox, r.conn = s.generation
  drain : s.pc = .drain → s.generation = s.client.generation
  handled : ∀ p ∈ s.handled, p.2.conn = p.1

theorem fresh_init [Zero D] (devices : δ) (fallback : Bool) (path : String) :
    (init devices fallback path : Provider F D δ).Fresh where
  queue := by simp [init]
  inbox := by simp [init]
  drain := by simp [init]
  handled := by simp [init]

theorem Fresh.of_same {s s' : Provider F D δ} (hf : s.Fresh) (h : SameMessages s s')
    (hgen : s'.generation = s.generation) (hpc : s'.pc ≠ .drain) : s'.Fresh := by
  obtain ⟨socket, accepted, hclient⟩ := h.client
  exact {
    queue := by
      rw [hclient]
      exact hf.queue
    inbox := by
      rw [h.inbox, hgen]
      exact hf.inbox
    drain := fun hd => absurd hd hpc
    handled := by
      rw [h.handled]
      exact hf.handled }

theorem fresh_net {e : Client.Event} {s : Provider F D δ} (hd : s.Delivering) (hf : s.Fresh)
    (hc : NotBeforeDrain (ι := ι) (.net e) s) (he : Emptied (ι := ι) (.net e) s) :
    Fresh { s with client := Client.step e s.client } := by
  obtain ⟨new, hqueue, hnew, -⟩ := Client.step_exact e hd.consistent hd.exact
  by_cases hgen : (Client.step e s.client).generation = s.client.generation
  · exact {
      queue := by
        intro r hr
        rw [hqueue] at hr
        rw [hgen]
        rcases List.mem_append.mp hr with hr | hr
        · exact hf.queue r hr
        · exact hnew r hr
      inbox := hf.inbox
      drain := fun hpc => (hf.drain hpc).trans hgen.symm
      handled := hf.handled }
  · obtain ⟨rfl, hthread⟩ := Client.step_generation hgen
    have hstep : Client.step .connect s.client
        = { s.client with generation := s.client.generation + 1, thread := .bumped } :=
      if_pos hthread
    exact {
      queue := by
        intro r hr
        rw [hstep, he ⟨rfl, hthread⟩] at hr
        cases hr
      inbox := hf.inbox
      drain := fun hpc => absurd hpc (hc ⟨rfl, hthread⟩).2
      handled := hf.handled }

variable [FloatOrder F] [Arith F] [FloatOrder D] [Arith D] [FloatConv F D] [FloatBits F 32]
  [FloatBits D 64]

theorem fresh_frameStep {io : Io F D ι} {s s' : Provider F D δ} (h : FrameStep io s s')
    (hd : s.Delivering) (hf : s.Fresh) : s'.Fresh := by
  have hclient : ∃ socket accepted, s.client
      = { s.client with socket := socket, accepted := accepted } := ⟨_, _, rfl⟩
  cases h with
  | idle => exact hf
  | current hpc hgen => exact ⟨hf.queue, hf.inbox, fun _ => hgen.symm, hf.handled⟩
  | readGeneration hpc =>
    have hnil := hd.inbox_eq_nil (by simp [hpc])
    exact {
      queue := hf.queue
      inbox := fun r hr => by
        have hr : r ∈ s.inbox := hr
        rw [hnil] at hr
        cases hr
      drain := fun _ => rfl
      handled := hf.handled }
  | drain hpc =>
    exact {
      queue := by simp
      inbox := fun r hr => (hf.queue r hr).trans (hf.drain hpc).symm
      drain := by simp
      handled := hf.handled }
  | message m d hpc hm =>
    exact {
      queue := hf.queue
      inbox := hf.inbox
      drain := hf.drain
      handled := by
        intro p hp
        rcases List.mem_append.mp hp with hp | hp
        · exact hf.handled p hp
        · rw [List.mem_singleton.mp hp]
          exact hf.inbox m (List.mem_of_getElem? hm) }
  | messagesEnd t d hpc hm => exact ⟨hf.queue, by simp, by simp, hf.handled⟩
  | universeNotFound id c hpc _ _ _ hc => exact hf.of_same (.of_tried rfl rfl rfl hc) rfl (by simp)
  | universeFallback id c hpc _ _ _ hc => exact hf.of_same (.of_tried rfl rfl rfl hc) rfl (by simp)
  | status | universeSent | pose => exact hf.of_same (.of_send rfl rfl rfl rfl) rfl (by simp)
  | offline | stale | walk | universeKept | universeFound | statusKept | universeSkipped
  | poseSkipped => exact hf.of_same ⟨rfl, rfl, rfl, hclient⟩ rfl (by simp)

/-- **One step keeps the messages with their connections**, if a new connection finds the queue
empty. -/
theorem fresh_step (h : Handlers D δ ι) (e : Event F D δ ι) (s : Provider F D δ)
    (hc : NotBeforeDrain e s ∧ Emptied e s) (hf : s.Delivering ∧ s.Fresh) :
    (step h e s).Delivering ∧ (step h e s).Fresh := by
  refine ⟨delivering_step h e s hf.1, ?_⟩
  cases e with
  | net e => exact fresh_net hf.1 hf.2 hc.1 hc.2
  | frame now =>
    show (s.beginFrame now).Fresh
    rcases beginFrame_cases now s with hs | ⟨-, -, hs⟩ | ⟨-, -, hs⟩ <;> rw [hs]
    · exact hf.2
    · exact hf.2.of_same ⟨rfl, rfl, rfl, _, _, rfl⟩ rfl (by simp)
    · exact hf.2.of_same ⟨rfl, rfl, rfl, _, _, rfl⟩ rfl (by simp)
  | step io => exact fresh_frameStep (frameStep_cases h io s) hf.1 hf.2
  | outside f => exact ⟨hf.2.queue, hf.2.inbox, hf.2.drain, hf.2.handled⟩

/-! ## Runs with one message -/

/-- A connection, and a chunk with one frame: a `wip_info` that says `WALKING`. -/
def walkingArrives : List (Event ℚ ℚ Unit Unit) :=
  [.net .connect, .net .publish, .net (.recv [4, 0, 0, 0, 0x32, 2, 0x20, 3]), .net .scan,
    .net .scan]

/-- What a frame reads where no headset is there. -/
def noHeadset : Io ℚ ℚ Unit := ⟨(), ⟨false, false, fun _ _ => 0⟩, ⟨none, fun _ => none⟩, .failed⟩

/-- A frame, up to its first message. -/
def frameToFirstMessage : List (Event ℚ ℚ Unit Unit) :=
  [.frame 0, .step noHeadset, .step noHeadset, .step noHeadset, .step noHeadset]

/-- **No message outlives its connection where every new connection finds the queue empty.** -/
theorem handled_of_emptied (h : Handlers D δ ι) (devices : δ) (fallback : Bool) (path : String)
    (es : List (Event F D δ ι))
    (hes : Meets (fun e s => NotBeforeDrain e s ∧ Emptied e s) (step h) es
      (init devices fallback path)) :
    ∀ p ∈ (after h devices fallback path es).handled, p.2.conn = p.1 :=
  (run_invariant_of_meets (fresh_step h) es hes
    ⟨delivering_init devices fallback path, fresh_init devices fallback path⟩).2.handled

/-- A connection on which nothing arrives, and a message on the next one. -/
def messageAfterReconnect : List (Event ℚ ℚ Unit Unit) :=
  [.net .connect, .net .publish, .net .hangup, .net .close] ++ walkingArrives
    ++ frameToFirstMessage

theorem handled_of_emptied_reconnect :
    (after (ι := Unit) .idle () true "" messageAfterReconnect).handled
        = [(2, ⟨2, { kind := .wipInfo, wipStatus := 3 }⟩)] ∧
      ∀ p ∈ (after (ι := Unit) .idle () true "" messageAfterReconnect).handled,
        p.2.conn = p.1 := by
  refine ⟨by decide +kernel, handled_of_emptied .idle () true "" _ ?_⟩
  simp [messageAfterReconnect, walkingArrives, frameToFirstMessage, Meets, NotBeforeDrain, Emptied,
    Connects, step, init, Client.step]

/-- The driver when the message has been received, the app has hung up and connected again, and a
frame has come to its first message. -/
def afterReconnect : List (Event ℚ ℚ Unit Unit) :=
  walkingArrives ++ [.net .hangup, .net .close, .net .connect, .net .publish] ++ frameToFirstMessage

/-- **A `wip_info` from before a reconnect is handled after it.** -/
theorem stale_wip_info :
    (after (ι := Unit) .idle () true "" afterReconnect).handled
        = [(2, ⟨1, { kind := .wipInfo, wipStatus := 3 }⟩)] ∧
      Meets NotBeforeDrain (step (.idle : Handlers ℚ Unit Unit)) afterReconnect
        (init () true "") := by
  refine ⟨by decide +kernel, ?_⟩
  simp [afterReconnect, walkingArrives, frameToFirstMessage, Meets, NotBeforeDrain, Connects, step,
    init]

end Provider

end Rebocap.Driver
