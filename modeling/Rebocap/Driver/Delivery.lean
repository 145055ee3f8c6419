import Rebocap.Driver.Frame
import Rebocap.Net.Reading

/-!
# Delivery from the app to the driver

The network thread pushes what it decodes to `queue_`, a frame takes the whole queue to `inbox_`
and handles it message by message. In every run, however the two threads interleave:

* `delivery_exact` — the messages handled and those still on their way are the messages of the
  stream that was received
-/

namespace Rebocap.Driver

open Lib Proto Net FloatConv FloatBits

variable {F D δ ι : Type}

/-! ## The messages on their way -/

namespace Provider

/-- The messages of connection `g` that were handled so far, then those that the frame has before
it, then those in `queue_`. -/
def delivered (s : Provider F D δ) (g : Nat) : List Msg :=
  onConn g (s.handled.map Prod.snd ++ s.inbox.drop s.next ++ s.client.queue)

/-- What holds in every state of every run. -/
structure Delivering (s : Provider F D δ) : Prop where
  consistent : s.client.Consistent
  /-- No message is lost, made up, doubled or moved. -/
  exact : Client.Exact s.delivered s.client
  /-- `inbox_` is used by the loop over it only. -/
  inbox_eq_nil : s.pc ≠ .messages → s.inbox = []

/-- A step that leaves the messages alone. -/
structure SameMessages (s s' : Provider F D δ) : Prop where
  inbox : s'.inbox = s.inbox
  next : s'.next = s.next
  handled : s'.handled = s.handled
  client : ∃ socket accepted, s'.client
    = { s.client with socket := socket, accepted := accepted }

theorem SameMessages.of_send {s s' : Provider F D δ} {payload : Bytes} {o : SendResult}
    (hinbox : s'.inbox = s.inbox) (hnext : s'.next = s.next) (hhandled : s'.handled = s.handled)
    (hclient : s'.client = (s.client.send payload o).2) : SameMessages s s' :=
  ⟨hinbox, hnext, hhandled, hclient ▸ s.client.send_snd payload o⟩

theorem SameMessages.of_tried {s s' : Provider F D δ} (hinbox : s'.inbox = s.inbox)
    (hnext : s'.next = s.next) (hhandled : s'.handled = s.handled)
    (hclient : TriedPathFailed s.client s'.client) : SameMessages s s' := by
  rcases hclient with hc | ⟨failed, o, hc⟩
  · exact ⟨hinbox, hnext, hhandled, s.client.socket, s.client.accepted, hc⟩
  · exact .of_send hinbox hnext hhandled hc

theorem Delivering.of_same {s s' : Provider F D δ} (hd : s.Delivering) (h : SameMessages s s')
    (hpc : s'.pc ≠ .messages → s.pc ≠ .messages) : s'.Delivering := by
  obtain ⟨socket, accepted, hclient⟩ := h.client
  have hdelivered : s'.delivered = s.delivered := by
    funext g
    rw [delivered, delivered, h.inbox, h.next, h.handled, hclient]
  exact {
    consistent := hclient ▸ ⟨hd.consistent.stream_of_lt, hd.consistent.stream_of_bumped,
      hd.consistent.buf_of_polling, hd.consistent.unread_of_scanning⟩
    exact := by
      rw [hdelivered, hclient]
      exact hd.exact
    inbox_eq_nil := fun hne => by
      rw [h.inbox]
      exact hd.inbox_eq_nil (hpc hne) }

theorem delivering_init [Zero D] (devices : δ) (fallback : Bool) (path : String) :
    (init devices fallback path : Provider F D δ).Delivering where
  consistent := Client.consistent_init
  exact := fun _ => messagesOf_nil.symm
  inbox_eq_nil := fun _ => rfl

/-! ## One step -/

theorem delivering_drain {s : Provider F D δ} (hd : s.Delivering) (hpc : s.pc = .drain) :
    Delivering ({ s with
      inbox := s.client.queue
      client := { s.client with queue := [] }
      next := 0
      pc := .messages } : Provider F D δ) where
  consistent := ⟨hd.consistent.stream_of_lt, hd.consistent.stream_of_bumped,
    hd.consistent.buf_of_polling, hd.consistent.unread_of_scanning⟩
  exact := by
    have hnil := hd.inbox_eq_nil (by simp [hpc])
    intro g
    have hg := hd.exact g
    rw [delivered, hnil] at hg
    simpa [delivered, Client.pending, Client.unread] using hg
  inbox_eq_nil := fun hne => absurd rfl hne

theorem delivering_message {s : Provider F D δ} {m : Received} (d : δ) (hd : s.Delivering)
    (hpc : s.pc = .messages) (hm : s.inbox[s.next]? = some m) :
    Delivering { s with
      devices := d
      next := s.next + 1
      handled := s.handled ++ [(s.generation, m)] } where
  consistent := hd.consistent
  exact := by
    obtain ⟨hlt, hm⟩ := List.getElem?_eq_some_iff.mp hm
    have hdrop : s.inbox.drop s.next = m :: s.inbox.drop (s.next + 1) := by
      rw [← hm]
      exact List.drop_eq_getElem_cons hlt
    intro g
    have hg := hd.exact g
    rw [delivered, hdrop] at hg
    simpa [delivered] using hg
  inbox_eq_nil := fun hne => absurd hpc hne

theorem delivering_messagesEnd {s : Provider F D δ} (t : Int) (d : δ) (hd : s.Delivering)
    (hm : s.inbox[s.next]? = none) :
    Delivering ({ s with
      inbox := []
      next := 0
      lastTimeoutCheck := t
      devices := d
      pc := .walk } : Provider F D δ) where
  consistent := hd.consistent
  exact := by
    have hdrop : s.inbox.drop s.next = [] :=
      List.drop_eq_nil_of_le (List.getElem?_eq_none_iff.mp hm)
    intro g
    have hg := hd.exact g
    rw [delivered, hdrop] at hg
    simpa [delivered] using hg
  inbox_eq_nil := fun _ => rfl

theorem delivering_net {s : Provider F D δ} (e : Client.Event) (hd : s.Delivering) :
    Delivering { s with client := Client.step e s.client } := by
  obtain ⟨new, hqueue, -, hexact⟩ := Client.step_exact e hd.consistent hd.exact
  exact {
    consistent := Client.step_consistent e hd.consistent
    exact := by
      intro g
      have hg := hexact g
      have hdelivered : delivered { s with client := Client.step e s.client } g
          = s.delivered g ++ onConn g new := by
        rw [delivered, delivered, hqueue, ← onConn_append, List.append_assoc _ s.client.queue]
      rw [hdelivered]
      exact hg
    inbox_eq_nil := hd.inbox_eq_nil }

variable [FloatOrder F] [Arith F] [FloatOrder D] [Arith D] [FloatConv F D] [FloatBits F 32]
  [FloatBits D 64]

theorem delivering_frameStep {io : Io F D ι} {s s' : Provider F D δ} (h : FrameStep io s s')
    (hd : s.Delivering) : s'.Delivering := by
  have hclient : ∃ socket accepted, s.client
      = { s.client with socket := socket, accepted := accepted } := ⟨_, _, rfl⟩
  cases h with
  | idle => exact hd
  | drain hpc => exact delivering_drain hd hpc
  | message m d hpc hm => exact delivering_message d hd hpc hm
  | messagesEnd t d hpc hm => exact delivering_messagesEnd t d hd hm
  | universeNotFound id c hpc _ _ _ hc | universeFallback id c hpc _ _ _ hc =>
    exact hd.of_same (.of_tried rfl rfl rfl hc) fun _ => by simp [hpc]
  | status hmd hmdOk hpc | universeSent hmd due hpc | pose hmd hpc =>
    exact hd.of_same (.of_send rfl rfl rfl rfl) fun _ => by simp [hpc]
  | offline t d hpc | stale hpc | current hpc | readGeneration hpc | walk d hpc
  | universeKept t hpc | universeFound id found hpc | statusKept hmd hpc
  | universeSkipped hmd due hpc | poseSkipped hmd hpc =>
    exact hd.of_same ⟨rfl, rfl, rfl, hclient⟩ fun _ => by simp [hpc]

/-- **One step keeps delivery exact.** -/
theorem delivering_step (h : Handlers D δ ι) (e : Event F D δ ι) (s : Provider F D δ)
    (hd : s.Delivering) : (step h e s).Delivering := by
  cases e with
  | net e => exact delivering_net e hd
  | frame now =>
    show (s.beginFrame now).Delivering
    rcases beginFrame_cases now s with hs | ⟨hpc, -, hs⟩ | ⟨hpc, -, hs⟩ <;> rw [hs]
    · exact hd
    · exact hd.of_same ⟨rfl, rfl, rfl, _, _, rfl⟩ fun _ => by simp [hpc]
    · exact hd.of_same ⟨rfl, rfl, rfl, _, _, rfl⟩ fun _ => by simp [hpc]
  | step io => exact delivering_frameStep (frameStep_cases h io s) hd
  | outside f => exact hd.of_same ⟨rfl, rfl, rfl, _, _, rfl⟩ id

/-! ## Every run -/

theorem delivering_after (h : Handlers D δ ι) (devices : δ) (fallback : Bool) (path : String)
    (es : List (Event F D δ ι)) : (after h devices fallback path es).Delivering :=
  run_invariant (delivering_step h) es (delivering_init devices fallback path)

/-- **Delivery is exact, in every run and for every connection.** The messages handled so far, those
of the running frame and those in `queue_` are the messages of the frames received so far, but for
the frames that `read_loop` has still before it. Whenever it waits for the next chunk there is none
of these, `buf` is the rest of the stream, and that is shorter than a frame. Its loop over the
frames ends, and leaves `read_loop` if and only if the rest starts with a header over the limit. -/
theorem delivery_exact (h : Handlers D δ ι) (devices : δ) (fallback : Bool) (path : String)
    (es : List (Event F D δ ι)) :
    let s := after h devices fallback path es
    let c := s.client
    let rest := (splitFrames Client.maxFrame (c.stream c.generation)).2
    (∀ g, s.delivered g ++ c.pending g = messagesOf (c.stream g)) ∧
      (c.thread ≠ .scanning → ∀ g, s.delivered g = messagesOf (c.stream g)) ∧
      (c.thread = .polling → c.buf = rest ∧
        (splitFrames Client.maxFrame (c.stream c.generation)).1.flatMap encodeFrame ++ c.buf
          = c.stream c.generation ∧
        ¬Client.Oversize rest ∧ (4 ≤ rest.length → rest.length < 4 + frameSize rest) ∧
        rest.length ≤ 65539) ∧
      (c.thread = .scanning → ∃ n, (run Client.step (List.replicate n .scan) c).thread
        = if Client.Oversize rest then .returned else .polling) := by
  have hd := delivering_after (F := F) h devices fallback path es
  dsimp only
  refine ⟨hd.exact, ?_, ?_, ?_⟩
  · intro ht g
    have hg := hd.exact g
    rwa [Client.pending_of_ne ht, List.append_nil] at hg
  · intro ht
    obtain ⟨hbuf, hshort, hlen⟩ := Client.retained_of_polling hd.consistent ht
    obtain ⟨-, ho⟩ := hd.consistent.buf_of_polling ht
    have hjoin := splitFrames_join Client.maxFrame
      ((after (F := F) h devices fallback path es).client.stream
        (after (F := F) h devices fallback path es).client.generation)
    rw [← hbuf] at hjoin ⊢
    exact ⟨rfl, hjoin, ho, fun h4 => (hshort h4).2, hlen⟩
  · intro ht
    rw [← hd.consistent.unread_of_scanning ht]
    exact Client.scan_ends _ ht

end Provider

end Rebocap.Driver
