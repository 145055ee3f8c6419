import Rebocap.Lib.Run
import Rebocap.Net.Socket
import Rebocap.Proto.Decode

/-!
# `BridgeClient`

The network thread goes through `run` and `read_loop` in small steps, so that the accesses of the
frame thread can fall between any two of them. A connection is named by its generation, and so is
the descriptor in `fd_`.

* `Client.step_cases` — what a step of the network thread does
-/

namespace Rebocap.Net

open Lib Proto

/-! ## The client -/

/-- Where the network thread is. -/
inductive Thread where
  /-- In `connect_once`, or waiting to try again. -/
  | connecting
  /-- Behind `++generation_`, before `fd_ = fd`. -/
  | bumped
  /-- At `poll` and `recv`. -/
  | polling
  /-- In the loop over the frames of `buf`. -/
  | scanning
  /-- `read_loop` has returned, `fd_ = -1` is not done. -/
  | returned
deriving DecidableEq, Repr

/-- A message in `queue_`, with the connection it was received on. -/
structure Received where
  conn : Nat
  msg : Msg
deriving DecidableEq

structure Client where
  /-- Counts the connections. It is `unsigned` in the source and wraps at 2^32, here it does not. -/
  generation : Nat := 0
  fd : Option Nat := none
  queue : List Received := []
  /-- The socket behind `fd`. -/
  socket : Socket := {}
  thread : Thread := .connecting
  buf : Bytes := []
  off : Nat := 0
  /-- All that was received on each connection. -/
  stream : Nat → Bytes := fun _ => []
  /-- The payloads whose send returned true, on each connection. -/
  accepted : Nat → List Bytes := fun _ => []

/-- The value of a function changed at one place. -/
def update {α : Type} (f : Nat → α) (g : Nat) (a : α) : Nat → α := fun i => if i = g then a else f i

@[simp] theorem update_same {α : Type} (f : Nat → α) (g : Nat) (a : α) : update f g a g = a :=
  if_pos rfl

theorem update_of_ne {α : Type} (f : Nat → α) {g i : Nat} (a : α) (h : i ≠ g) :
    update f g a i = f i := if_neg h

namespace Client

/-! ## What the frame thread calls -/

def connected (c : Client) : Bool := c.fd.isSome

/-- `drain`: the new value of `out`. -/
def drain (c : Client) (_out : List Received) : List Received × Client :=
  (c.queue, { c with queue := [] })

/-- `send`, with what the kernel does if it comes to a write. -/
def send (c : Client) (payload : Bytes) (o : SendResult) : Bool × Client :=
  match c.fd with
  | none => (false, c)
  | some g =>
    let (ok, socket) := c.socket.send payload o
    let accepted := if ok then update c.accepted g (c.accepted g ++ [payload]) else c.accepted
    (ok, { c with socket := socket, accepted := accepted })

/-- `send` touches the socket and the record of what was accepted. -/
theorem send_snd (c : Client) (payload : Bytes) (o : SendResult) :
    ∃ socket accepted, (c.send payload o).2
      = { c with socket := socket, accepted := accepted } := by
  unfold send
  split
  · exact ⟨c.socket, c.accepted, rfl⟩
  · exact ⟨_, _, rfl⟩

/-! ## The network thread -/

def maxFrame : Nat := 65536

/-- The message that is pushed for a frame, if it decodes. -/
def received (conn : Nat) (payload : Bytes) : List Received :=
  match decodeFresh payload with
  | none => []
  | some m => [⟨conn, m⟩]

/-- One pass of the loop over the frames of `buf`. Where the loop ends, the bytes before `off` are
erased. -/
def scan (c : Client) : Client :=
  if c.buf.length - c.off < 4 then { c with buf := c.buf.drop c.off, thread := .polling }
  else
    let n := leValue ((c.buf.drop c.off).take 4)
    if n > maxFrame then { c with thread := .returned }
    else if c.buf.length - c.off < 4 + n then
      { c with buf := c.buf.drop c.off, thread := .polling }
    else
      { c with
        queue := c.queue ++ received c.generation ((c.buf.drop (c.off + 4)).take n)
        off := c.off + (4 + n) }

/-- What can happen to the network thread. -/
inductive Event where
  | connect
  | publish
  /-- `recv` returns a chunk. -/
  | recv (chunk : Bytes)
  | scan
  /-- `poll` or `recv` fails, the app hangs up, or `stop_` is seen. -/
  | hangup
  | close

/-- One step of `run`. An event that cannot happen where the thread is changes nothing. -/
def step : Event → Client → Client
  | .connect, c =>
    if c.thread = .connecting then { c with generation := c.generation + 1, thread := .bumped }
    else c
  | .publish, c =>
    if c.thread = .bumped then
      { c with fd := some c.generation, socket := {}, buf := [], thread := .polling }
    else c
  | .recv chunk, c =>
    if c.thread = .polling ∧ chunk ≠ [] ∧ chunk.length ≤ 8192 then
      { c with
        buf := c.buf ++ chunk
        off := 0
        stream := update c.stream c.generation (c.stream c.generation ++ chunk)
        thread := .scanning }
    else c
  | .scan, c => if c.thread = .scanning then c.scan else c
  | .hangup, c => if c.thread = .polling then { c with thread := .returned } else c
  | .close, c => if c.thread = .returned then { c with fd := none, thread := .connecting } else c

/-! ## What the loop over the frames does -/

/-- A header that announces more than a frame may hold. -/
def Oversize (s : Bytes) : Prop := 4 ≤ s.length ∧ maxFrame < frameSize s

instance (s : Bytes) : Decidable (Oversize s) := inferInstanceAs (Decidable (_ ∧ _))

/-- The bytes of `buf` that are not consumed yet. -/
def unread (c : Client) : Bytes := c.buf.drop c.off

theorem scan_of_hasFrame {c : Client} (h : HasFrame maxFrame c.unread) :
    c.scan = { c with
      queue := c.queue ++ received c.generation (frameHead c.unread)
      off := c.off + (4 + frameSize c.unread) } := by
  obtain ⟨h4, hlimit, hlen⟩ := h
  have hsize : leValue ((c.buf.drop c.off).take 4) = frameSize c.unread := rfl
  rw [unread, List.length_drop] at h4 hlen
  rw [scan, if_neg (by omega)]
  dsimp only
  rw [hsize, if_neg (by omega), if_neg (by rw [unread]; omega), frameHead, unread, List.drop_drop]

theorem scan_of_oversize {c : Client} (h : Oversize c.unread) :
    c.scan = { c with thread := .returned } := by
  obtain ⟨h4, hsize⟩ := h
  rw [unread, List.length_drop] at h4
  rw [scan, if_neg (by omega)]
  exact if_pos hsize

theorem scan_of_not {c : Client} (hf : ¬HasFrame maxFrame c.unread) (ho : ¬Oversize c.unread) :
    c.scan = { c with buf := c.unread, thread := .polling } := by
  have hsize : leValue ((c.buf.drop c.off).take 4) = frameSize c.unread := rfl
  unfold scan
  split
  next => rfl
  next h4 =>
    have h4' : 4 ≤ c.unread.length := by rw [unread, List.length_drop]; omega
    have hle : frameSize c.unread ≤ maxFrame := Nat.not_lt.mp fun h => ho ⟨h4', h⟩
    have hlen : ¬4 + frameSize c.unread ≤ c.unread.length := fun h => hf ⟨h4', hle, h⟩
    rw [unread, List.length_drop] at hlen
    dsimp only
    rw [hsize, if_neg (by omega), if_pos (by rw [unread]; omega)]
    rfl

/-- What a pass of the loop does: consume a frame, or end. -/
theorem scan_cases (c : Client) :
    (HasFrame maxFrame c.unread ∧ c.scan = { c with
      queue := c.queue ++ received c.generation (frameHead c.unread)
      off := c.off + (4 + frameSize c.unread) }) ∨
    (¬HasFrame maxFrame c.unread ∧ Oversize c.unread ∧ c.scan = { c with thread := .returned }) ∨
    (¬HasFrame maxFrame c.unread ∧ ¬Oversize c.unread ∧
      c.scan = { c with buf := c.unread, thread := .polling }) := by
  by_cases hf : HasFrame maxFrame c.unread
  · exact Or.inl ⟨hf, scan_of_hasFrame hf⟩
  · by_cases ho : Oversize c.unread
    · exact Or.inr (Or.inl ⟨hf, ho, scan_of_oversize ho⟩)
    · exact Or.inr (Or.inr ⟨hf, ho, scan_of_not hf ho⟩)

/-- Behind the frame that was consumed. -/
theorem unread_of_consumed (c : Client) (n : Nat) :
    c.buf.drop (c.off + n) = c.unread.drop n := by
  rw [unread, List.drop_drop]

/-! ## What a step does -/

/-- **What a step of the network thread does.** -/
theorem step_cases (e : Event) (c : Client) :
    step e c = c ∨
    (c.thread = .connecting ∧
      step e c = { c with generation := c.generation + 1, thread := .bumped }) ∨
    (c.thread = .bumped ∧
      step e c
        = { c with fd := some c.generation, socket := {}, buf := [], thread := .polling }) ∨
    (c.thread = .polling ∧ ∃ chunk, chunk ≠ [] ∧
      step e c
        = { c with
            buf := c.buf ++ chunk
            off := 0
            stream := update c.stream c.generation (c.stream c.generation ++ chunk)
            thread := .scanning }) ∨
    (c.thread = .scanning ∧ step e c = c.scan) ∨
    (c.thread = .polling ∧ step e c = { c with thread := .returned }) ∨
    (c.thread = .returned ∧ step e c = { c with fd := none, thread := .connecting }) := by
  cases e with
  | connect =>
    by_cases h : c.thread = .connecting
    · exact Or.inr (Or.inl ⟨h, if_pos h⟩)
    · exact Or.inl (if_neg h)
  | publish =>
    by_cases h : c.thread = .bumped
    · exact Or.inr (Or.inr (Or.inl ⟨h, if_pos h⟩))
    · exact Or.inl (if_neg h)
  | recv chunk =>
    by_cases h : c.thread = .polling ∧ chunk ≠ [] ∧ chunk.length ≤ 8192
    · exact Or.inr (Or.inr (Or.inr (Or.inl ⟨h.1, chunk, h.2.1, if_pos h⟩)))
    · exact Or.inl (if_neg h)
  | scan =>
    by_cases h : c.thread = .scanning
    · exact Or.inr (Or.inr (Or.inr (Or.inr (Or.inl ⟨h, if_pos h⟩))))
    · exact Or.inl (if_neg h)
  | hangup =>
    by_cases h : c.thread = .polling
    · exact Or.inr (Or.inr (Or.inr (Or.inr (Or.inr (Or.inl ⟨h, if_pos h⟩)))))
    · exact Or.inl (if_neg h)
  | close =>
    by_cases h : c.thread = .returned
    · exact Or.inr (Or.inr (Or.inr (Or.inr (Or.inr (Or.inr ⟨h, if_pos h⟩)))))
    · exact Or.inl (if_neg h)

theorem scan_generation (c : Client) : c.scan.generation = c.generation := by
  rcases scan_cases c with ⟨-, hs⟩ | ⟨-, -, hs⟩ | ⟨-, -, hs⟩ <;> rw [hs]

/-- Only a new connection changes the generation. -/
theorem step_generation {e : Event} {c : Client} (h : (step e c).generation ≠ c.generation) :
    e = .connect ∧ c.thread = .connecting := by
  cases e with
  | connect =>
    refine ⟨rfl, ?_⟩
    by_contra ht
    exact h (by rw [step, if_neg ht])
  | scan =>
    refine absurd ?_ h
    simp only [step]
    split
    · exact scan_generation c
    · rfl
  | publish | recv | hangup | close =>
    refine absurd ?_ h
    simp only [step]
    split <;> rfl

end Client

end Rebocap.Net
