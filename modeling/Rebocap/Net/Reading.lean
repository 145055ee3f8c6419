import Rebocap.Net.Client

/-!
# What `read_loop` makes of a stream

The frames of the stream that was received on a connection are either pushed or still in the
bytes that the loop over the frames has before it. Between two calls of `recv` none is left, and
what is retained in `buf` is the rest of the stream.

* `step_exact` — a step pushes exactly the messages of the frames it consumes
* `step_consistent` — what holds of `buf` in every state
-/

namespace Rebocap.Net

open Lib Proto

/-! ## Messages of a stream -/

/-- The messages of the complete frames of a stream, up to a header over the limit. -/
def messagesOf (stream : Bytes) : List Msg :=
  (splitFrames Client.maxFrame stream).1.filterMap decodeFresh

/-- The messages among `rs` that were received on connection `g`. -/
def onConn (g : Nat) (rs : List Received) : List Msg :=
  (rs.filter fun r => r.conn = g).map Received.msg

@[simp] theorem onConn_nil (g : Nat) : onConn g [] = [] := rfl

@[simp] theorem onConn_append (g : Nat) (rs ts : List Received) :
    onConn g (rs ++ ts) = onConn g rs ++ onConn g ts := by
  simp [onConn]

@[simp] theorem messagesOf_nil : messagesOf [] = [] := by
  have h : ¬HasFrame Client.maxFrame [] := fun h => absurd h.1 (by decide)
  rw [messagesOf, splitFrames_of_not h]
  rfl

theorem messagesOf_of_hasFrame {s : Bytes} (h : HasFrame Client.maxFrame s) (g : Nat) :
    messagesOf s = onConn g (Client.received g (frameHead s)) ++ messagesOf (frameTail s) := by
  rw [messagesOf, splitFrames_of_hasFrame h, List.filterMap_cons, Client.received]
  cases decodeFresh (frameHead s) <;> simp [onConn, messagesOf]

theorem messagesOf_of_not {s : Bytes} (h : ¬HasFrame Client.maxFrame s) : messagesOf s = [] := by
  rw [messagesOf, splitFrames_of_not h]
  rfl

theorem messagesOf_append (s t : Bytes) :
    messagesOf (s ++ t)
      = messagesOf s ++ messagesOf ((splitFrames Client.maxFrame s).2 ++ t) := by
  rw [messagesOf, splitFrames_append, List.filterMap_append]
  rfl

theorem onConn_received_of_ne {g c : Nat} (h : g ≠ c) (p : Bytes) :
    onConn g (Client.received c p) = [] := by
  unfold Client.received
  split
  · rfl
  · simp [onConn, Ne.symm h]

namespace Client

/-- The messages of connection `g` whose frames `read_loop` has before it. -/
def pending (c : Client) (g : Nat) : List Msg :=
  if c.thread = .scanning ∧ g = c.generation then messagesOf c.unread else []

theorem pending_of_ne {c : Client} (h : c.thread ≠ .scanning) (g : Nat) : c.pending g = [] :=
  if_neg fun hg => h hg.1

/-- `pushed` are the messages of the stream, but for those whose frames are still to be scanned. -/
def Exact (pushed : Nat → List Msg) (c : Client) : Prop :=
  ∀ g, pushed g ++ c.pending g = messagesOf (c.stream g)

/-- What holds of the network thread's state at any time. -/
structure Consistent (c : Client) : Prop where
  /-- Nothing was received on a connection that is still to come. -/
  stream_of_lt : ∀ g, c.generation < g → c.stream g = []
  stream_of_bumped : c.thread = .bumped → c.stream c.generation = []
  /-- Between two calls of `recv`, `buf` is the rest of the stream. -/
  buf_of_polling : c.thread = .polling →
    c.buf = (splitFrames maxFrame (c.stream c.generation)).2 ∧ ¬Oversize c.buf
  /-- In the loop, what is left is the rest of the stream. -/
  unread_of_scanning : c.thread = .scanning →
    (splitFrames maxFrame c.unread).2 = (splitFrames maxFrame (c.stream c.generation)).2

theorem consistent_init : Consistent {} where
  stream_of_lt := fun _ _ => rfl
  stream_of_bumped := nofun
  buf_of_polling := nofun
  unread_of_scanning := nofun

/-! ## A pass of the loop over the frames -/

theorem unread_consume (c : Client) (queue : List Received) :
    unread { c with queue := queue, off := c.off + (4 + frameSize c.unread) }
      = frameTail c.unread := by
  rw [frameTail]
  exact unread_of_consumed c _

/-! ## What a step pushes -/

/-- A step pushes the messages of the frames it consumes, with their connection. -/
def Pushes (pushed : Nat → List Msg) (c c' : Client) : Prop :=
  ∃ new, c'.queue = c.queue ++ new ∧ (∀ r ∈ new, r.conn = c.generation) ∧
    Exact (fun g => pushed g ++ onConn g new) c'

variable {c c' : Client} {pushed : Nat → List Msg}

theorem pushes_of_same_queue (hq : c'.queue = c.queue) (h : Exact pushed c') :
    Pushes pushed c c' := by
  refine ⟨[], by rw [hq, List.append_nil], by simp, fun g => ?_⟩
  simpa using h g

/-- Outside the loop over the frames nothing is pushed. -/
theorem pushes_of_not_scanning (h : Exact pushed c) (ht : c.thread ≠ .scanning)
    (ht' : c'.thread ≠ .scanning) (hstream : c'.stream = c.stream) (hq : c'.queue = c.queue) :
    Pushes pushed c c' := by
  refine pushes_of_same_queue hq fun g => ?_
  have hg := h g
  rw [pending_of_ne ht] at hg
  rw [pending_of_ne ht', hstream, hg]

theorem pushes_recv {chunk : Bytes} (hc : c.Consistent) (h : Exact pushed c)
    (ht : c.thread = .polling) :
    Pushes pushed c { c with
      buf := c.buf ++ chunk
      off := 0
      stream := update c.stream c.generation (c.stream c.generation ++ chunk)
      thread := .scanning } := by
  refine pushes_of_same_queue rfl fun g => ?_
  have hg := h g
  rw [pending_of_ne (by simp [ht]), List.append_nil] at hg
  by_cases hgen : g = c.generation
  · subst hgen
    obtain ⟨hbuf, -⟩ := hc.buf_of_polling ht
    rw [pending, if_pos ⟨rfl, rfl⟩, hg]
    simp only [update_same, unread, List.drop_zero]
    rw [messagesOf_append (c.stream c.generation), ← hbuf]
  · rw [pending, if_neg (fun h => hgen h.2), List.append_nil, hg]
    simp only [update_of_ne _ _ hgen]

theorem pushes_scan (h : Exact pushed c) (ht : c.thread = .scanning) :
    Pushes pushed c c.scan := by
  rcases scan_cases c with ⟨hf, hscan⟩ | ⟨hf, -, hscan⟩ | ⟨hf, -, hscan⟩
  · refine ⟨received c.generation (frameHead c.unread), by rw [hscan], ?_, fun g => ?_⟩
    · intro r hr
      unfold received at hr
      split at hr
      · cases hr
      · rw [List.mem_singleton.mp hr]
    · have hg := h g
      rw [hscan]
      dsimp only
      by_cases hgen : g = c.generation
      · subst hgen
        rw [pending, if_pos ⟨ht, rfl⟩, messagesOf_of_hasFrame hf c.generation] at hg
        rw [pending, if_pos ⟨ht, rfl⟩, unread_consume, List.append_assoc]
        exact hg
      · rw [pending, if_neg (fun h => hgen h.2)] at hg ⊢
        rw [onConn_received_of_ne hgen, List.append_nil]
        exact hg
  -- the loop ends, and no frame is left
  all_goals
    refine pushes_of_same_queue (by rw [hscan]) fun g => ?_
    have hg := h g
    have hnone : c.pending g = [] := by
      unfold pending
      split
      · exact messagesOf_of_not hf
      · rfl
    rw [hnone] at hg
    rw [hscan, pending_of_ne (by simp), hg]

/-- **A step pushes exactly the messages of the frames it consumes.** -/
theorem step_exact (e : Event) (hc : c.Consistent) (h : Exact pushed c) :
    Pushes pushed c (step e c) := by
  rcases step_cases e c with hs | ⟨ht, hs⟩ | ⟨ht, hs⟩ | ⟨ht, chunk, -, hs⟩ | ⟨ht, hs⟩ | ⟨ht, hs⟩ |
    ⟨ht, hs⟩ <;> rw [hs]
  · exact pushes_of_same_queue rfl h
  · exact pushes_of_not_scanning h (by simp [ht]) (by simp) rfl rfl
  · exact pushes_of_not_scanning h (by simp [ht]) (by simp) rfl rfl
  · exact pushes_recv hc h ht
  · exact pushes_scan h ht
  · exact pushes_of_not_scanning h (by simp [ht]) (by simp) rfl rfl
  · exact pushes_of_not_scanning h (by simp [ht]) (by simp) rfl rfl

/-! ## What a step keeps -/

theorem splitFrames_nil : splitFrames maxFrame [] = ([], []) :=
  splitFrames_of_not fun h => absurd h.1 (by decide)

/-- Outside of a connection nothing is read. -/
theorem consistent_of_thread {c' : Client} (hc : c.Consistent)
    (hgen : c'.generation = c.generation) (hstream : c'.stream = c.stream)
    (hthread : c'.thread = .connecting ∨ c'.thread = .returned) : c'.Consistent := by
  have hother : c'.thread ≠ .bumped ∧ c'.thread ≠ .polling ∧ c'.thread ≠ .scanning := by
    rcases hthread with h | h <;> rw [h] <;> decide
  exact {
    stream_of_lt := by
      rw [hgen, hstream]
      exact hc.stream_of_lt
    stream_of_bumped := fun h => absurd h hother.1
    buf_of_polling := fun h => absurd h hother.2.1
    unread_of_scanning := fun h => absurd h hother.2.2 }

/-- **What holds of the network thread's state holds after a step.** -/
theorem step_consistent (e : Event) (hc : c.Consistent) : (step e c).Consistent := by
  rcases step_cases e c with hs | ⟨ht, hs⟩ | ⟨ht, hs⟩ | ⟨ht, chunk, -, hs⟩ | ⟨ht, hs⟩ | ⟨ht, hs⟩ |
    ⟨ht, hs⟩ <;> rw [hs]
  · exact hc
  · exact {
      stream_of_lt := fun g hg => hc.stream_of_lt g (Nat.lt_of_succ_lt hg)
      stream_of_bumped := fun _ => hc.stream_of_lt _ (Nat.lt_succ_self _)
      buf_of_polling := fun h => by cases h
      unread_of_scanning := fun h => by cases h }
  · have hempty := hc.stream_of_bumped ht
    exact {
      stream_of_lt := hc.stream_of_lt
      stream_of_bumped := fun h => by cases h
      buf_of_polling := fun _ => by
        show [] = (splitFrames maxFrame (c.stream c.generation)).2 ∧ ¬Oversize []
        rw [hempty, splitFrames_nil]
        exact ⟨rfl, fun h => absurd h.1 (by decide)⟩
      unread_of_scanning := fun h => by cases h }
  · obtain ⟨hbuf, -⟩ := hc.buf_of_polling ht
    exact {
      stream_of_lt := fun g hg => by
        show update c.stream c.generation _ g = []
        rw [update_of_ne _ _ (Nat.ne_of_gt hg)]
        exact hc.stream_of_lt g hg
      stream_of_bumped := fun h => by cases h
      buf_of_polling := fun h => by cases h
      unread_of_scanning := fun _ => by
        simp only [update_same, unread, List.drop_zero]
        rw [splitFrames_append maxFrame (c.stream c.generation), ← hbuf] }
  · have hrest := hc.unread_of_scanning ht
    rcases scan_cases c with ⟨hf, hscan⟩ | ⟨hf, ho, hscan⟩ | ⟨hf, ho, hscan⟩ <;> rw [hscan]
    · exact {
        stream_of_lt := hc.stream_of_lt
        stream_of_bumped := fun h => hc.stream_of_bumped h
        buf_of_polling := fun h => hc.buf_of_polling h
        unread_of_scanning := fun _ => by
          rw [unread_consume]
          rw [splitFrames_of_hasFrame hf] at hrest
          exact hrest }
    · exact consistent_of_thread hc rfl rfl (.inr rfl)
    · exact {
        stream_of_lt := hc.stream_of_lt
        stream_of_bumped := fun h => by cases h
        buf_of_polling := fun _ => by
          rw [splitFrames_of_not hf] at hrest
          exact ⟨hrest, ho⟩
        unread_of_scanning := fun h => by cases h }
  · exact consistent_of_thread hc rfl rfl (.inr rfl)
  · exact consistent_of_thread hc rfl rfl (.inl rfl)

/-! ## The retained buffer -/

/-- What is retained between two calls of `recv` is shorter than one complete frame. -/
theorem retained_of_polling (hc : c.Consistent) (h : c.thread = .polling) :
    c.buf = (splitFrames maxFrame (c.stream c.generation)).2 ∧
      (4 ≤ c.buf.length → frameSize c.buf ≤ maxFrame ∧ c.buf.length < 4 + frameSize c.buf) ∧
      c.buf.length ≤ 65539 := by
  obtain ⟨hbuf, ho⟩ := hc.buf_of_polling h
  have hf : ¬HasFrame maxFrame c.buf := by
    rw [hbuf]
    exact not_hasFrame_rest _ _
  have hshort : 4 ≤ c.buf.length →
      frameSize c.buf ≤ maxFrame ∧ c.buf.length < 4 + frameSize c.buf := by
    intro h4
    have hle : frameSize c.buf ≤ maxFrame := Nat.not_lt.mp fun h => ho ⟨h4, h⟩
    exact ⟨hle, Nat.not_le.mp fun h => hf ⟨h4, hle, h⟩⟩
  refine ⟨hbuf, hshort, ?_⟩
  by_cases h4 : 4 ≤ c.buf.length
  · obtain ⟨hle, hlt⟩ := hshort h4
    unfold maxFrame at hle
    omega
  · omega

/-- **The loop over the frames ends.** It returns from `read_loop` if it comes to a header over
the limit, and goes back to `recv` otherwise. -/
theorem scan_ends (c : Client) (h : c.thread = .scanning) :
    ∃ n, (run step (List.replicate n .scan) c).thread
      = if Oversize (splitFrames maxFrame c.unread).2 then .returned else .polling := by
  induction hn : c.unread.length using Nat.strong_induction_on generalizing c with
  | h n ih =>
    have hstep : step .scan c = c.scan := if_pos h
    rcases scan_cases c with ⟨hf, hscan⟩ | ⟨hf, ho, hscan⟩ | ⟨hf, ho, hscan⟩
    · have hlt := length_frameTail_lt hf
      obtain ⟨k, hk⟩ := ih (frameTail c.unread).length (hn ▸ hlt) c.scan
        (by rw [hscan]; exact h) (by rw [hscan, unread_consume])
      refine ⟨k + 1, ?_⟩
      rw [List.replicate_succ, run_cons, hstep, hk, splitFrames_of_hasFrame hf, hscan,
        unread_consume]
    · refine ⟨1, ?_⟩
      rw [splitFrames_of_not hf, if_pos ho]
      show (step .scan c).thread = _
      rw [hstep, hscan]
    · refine ⟨1, ?_⟩
      rw [splitFrames_of_not hf, if_neg ho]
      show (step .scan c).thread = _
      rw [hstep, hscan]

end Client

end Rebocap.Net
