import Rebocap.Net.Client

/-!
# `BridgeClient`, system call by system call

The client's own thread and the frame thread, which calls `send`, with the descriptors of the
process. Between any two system calls of one thread the other goes on, and other parts of the
process open and close descriptors of their own: the kernel gives out a number again as soon as it
is closed.

* `Threads.netStep` — `run`, `connect_once`, `wait_connected` and `read_loop`
* `Threads.sendStep` — `send`
-/

namespace Rebocap.Net

open Lib Proto

/-! ## Where the threads are -/

/-- An open descriptor. -/
inductive Descriptor where
  | socket (s : Socket)
  /-- It belongs to another part of the process. -/
  | other
deriving DecidableEq

/-- Where the client's thread is, with its locals. `fd` is a descriptor that it has, `left` counts
the addresses that are left to try. -/
inductive Place where
  /-- Before `!stop_` in `run`. -/
  | top
  | getaddrinfo
  /-- In the loop over the addresses, before `socket`. -/
  | socket (left : Nat)
  | connect (fd left : Nat)
  /-- Before `i < 15 && !stop_` in `wait_connected`. -/
  | waiting (fd left i : Nat)
  | waitPoll (fd left i : Nat)
  | getsockopt (fd left : Nat)
  /-- Before `close(fd)` in the loop over the addresses. -/
  | refused (fd left : Nat)
  | getFlags (fd : Nat)
  | setFlags (fd : Nat)
  | noDelay (fd : Nat)
  /-- `connect_once` has returned -1. -/
  | unreachable
  /-- Before `i < 10 && !stop_`. -/
  | retry (i : Nat)
  /-- `connect_once` has returned `fd`. -/
  | connected (fd : Nat)
  /-- Before `++generation_`. -/
  | generation (fd : Nat)
  /-- Before `fd_ = fd`. -/
  | publish (fd : Nat)
  /-- Before `!stop_` in `read_loop`. -/
  | reading (fd : Nat)
  | poll (fd : Nat)
  | recv (fd : Nat)
  /-- In the loop over the frames of `buf`. -/
  | scan (fd : Nat)
  /-- `read_loop` has returned, before `send_mutex_` is locked. -/
  | lock (fd : Nat)
  /-- Before `fd_ = -1`. -/
  | clear (fd : Nat)
  | close (fd : Nat)
  | unlock
  /-- Before the log message. -/
  | closed
  /-- `run` has returned. -/
  | done
deriving DecidableEq

/-- Where the frame thread is in `send`. -/
inductive Sender where
  | idle
  | lock (payload : Bytes)
  /-- Before `fd_.load()`. -/
  | load (payload : Bytes)
  | write (payload : Bytes) (fd : Nat)
  | shutdown (fd : Nat)
  | unlock (result : Bool)
deriving DecidableEq

inductive Holder where
  | network
  | frame
deriving DecidableEq

/-- What `run` and `read_loop` log. -/
inductive Line where
  /-- "cannot reach bridge at …" -/
  | cannotReach
  /-- "connected to bridge at …" -/
  | connected
  /-- "bad frame length from bridge, reconnecting" -/
  | badLength
  /-- "bridge connection closed" -/
  | closed
deriving DecidableEq

structure Threads where
  table : Nat → Option Descriptor
  fd : Option Nat := none
  /-- It does not wrap, as in `Client`. -/
  generation : Nat := 0
  queue : List Received := []
  stop : Bool := false
  /-- Who has `send_mutex_`. -/
  sendMutex : Option Holder := none
  place : Place := .top
  sender : Sender := .idle
  reportedFailure : Bool := false
  buf : Bytes := []
  off : Nat := 0
  log : List Line := []

/-! ## What the system answers -/

inductive Connect where
  | done
  | inProgress
  | failed

inductive Poll where
  | ready
  | timeout
  /-- `EINTR`. -/
  | interrupted
  | failed

inductive Recv where
  | bytes (chunk : Bytes)
  | interrupted
  /-- It returns 0 or another error. -/
  | ended

/-- The answers to the system calls, each for a thread that makes this call. -/
structure Answer where
  /-- How many addresses there are, if `getaddrinfo` does not fail. -/
  addresses : Option Nat
  /-- The descriptor, if `socket` does not fail. -/
  socket : Option Nat
  connect : Connect
  poll : Poll
  /-- `getsockopt` finds no error. -/
  noError : Bool
  recv : Recv

namespace Threads

/-- A table of descriptors with one changed. -/
def setTable (table : Nat → Option Descriptor) (fd : Nat) (d : Option Descriptor) :
    Nat → Option Descriptor := fun i => if i = fd then d else table i

@[simp] theorem setTable_same (table : Nat → Option Descriptor) (fd : Nat)
    (d : Option Descriptor) : setTable table fd d fd = d := if_pos rfl

theorem setTable_of_ne (table : Nat → Option Descriptor) {fd i : Nat} (d : Option Descriptor)
    (h : i ≠ fd) : setTable table fd d i = table i := if_neg h

def goto (p : Place) (s : Threads) : Threads := { s with place := p }

@[simp] theorem goto_place (p : Place) (s : Threads) : (s.goto p).place = p := rfl

@[simp] theorem goto_buf (p : Place) (s : Threads) : (s.goto p).buf = s.buf := rfl

/-! ## The client's thread -/

/-- `socket` gives out a number that is not in use. -/
def socketStep (left : Nat) (a : Answer) (s : Threads) : Threads :=
  match a.socket with
  | none => s.goto (.socket left)
  | some fd =>
    if s.table fd = none then
      { s with table := setTable s.table fd (some (.socket {})), place := .connect fd left }
    else s.goto (.socket left)

/-- A pass of the loop over the frames. -/
def scanStep (fd : Nat) (s : Threads) : Threads :=
  if s.buf.length - s.off < 4 then { s with buf := s.buf.drop s.off, place := .reading fd }
  else
    let n := leValue ((s.buf.drop s.off).take 4)
    if n > Client.maxFrame then { s with log := s.log ++ [.badLength], place := .lock fd }
    else if s.buf.length - s.off < 4 + n then
      { s with buf := s.buf.drop s.off, place := .reading fd }
    else
      { s with
        queue := s.queue ++ Client.received s.generation ((s.buf.drop (s.off + 4)).take n)
        off := s.off + (4 + n) }

/-- One step of `run`, up to its next access to what it shares. -/
def netStep (a : Answer) (s : Threads) : Threads :=
  match s.place with
  | .top => s.goto (if s.stop then .done else .getaddrinfo)
  | .getaddrinfo =>
    match a.addresses with
    | none => s.goto .unreachable
    | some n => s.goto (.socket n)
  | .socket 0 => s.goto .unreachable
  | .socket (left + 1) => s.socketStep left a
  | .connect fd left =>
    match a.connect with
    | .done => s.goto (.getFlags fd)
    | .inProgress => s.goto (.waiting fd left 0)
    | .failed => s.goto (.refused fd left)
  | .waiting fd left i =>
    s.goto (if i < 15 ∧ s.stop = false then .waitPoll fd left i else .refused fd left)
  | .waitPoll fd left i =>
    match a.poll with
    | .ready => s.goto (.getsockopt fd left)
    | .timeout | .interrupted => s.goto (.waiting fd left (i + 1))
    | .failed => s.goto (.refused fd left)
  | .getsockopt fd left => s.goto (if a.noError then .getFlags fd else .refused fd left)
  | .refused fd left => { s with table := setTable s.table fd none, place := .socket left }
  | .getFlags fd => s.goto (.setFlags fd)
  | .setFlags fd => s.goto (.noDelay fd)
  | .noDelay fd => s.goto (.connected fd)
  | .unreachable =>
    { s with
      log := if s.reportedFailure then s.log else s.log ++ [.cannotReach]
      reportedFailure := true
      place := .retry 0 }
  | .retry i => s.goto (if i < 10 ∧ s.stop = false then .retry (i + 1) else .top)
  | .connected fd =>
    { s with
      reportedFailure := false
      log := s.log ++ [.connected]
      place := .generation fd }
  | .generation fd => { s with generation := s.generation + 1, place := .publish fd }
  | .publish fd => { s with fd := some fd, buf := [], place := .reading fd }
  | .reading fd => s.goto (if s.stop then .lock fd else .poll fd)
  | .poll fd =>
    match a.poll with
    | .ready => s.goto (.recv fd)
    | .timeout | .interrupted => s.goto (.reading fd)
    | .failed => s.goto (.lock fd)
  | .recv fd =>
    match a.recv with
    | .bytes chunk =>
      -- no other number of bytes can be returned
      if chunk ≠ [] ∧ chunk.length ≤ 8192 then
        { s with buf := s.buf ++ chunk, off := 0, place := .scan fd }
      else s
    | .interrupted => s.goto (.reading fd)
    | .ended => s.goto (.lock fd)
  | .scan fd => s.scanStep fd
  | .lock fd =>
    if s.sendMutex = none then { s with sendMutex := some .network, place := .clear fd } else s
  | .clear fd => { s with fd := none, place := .close fd }
  | .close fd => { s with table := setTable s.table fd none, place := .unlock }
  | .unlock => { s with sendMutex := none, place := .closed }
  | .closed => { s with log := s.log ++ [.closed], place := .top }
  | .done => s

theorem scanStep_rest (fd : Nat) (s : Threads) :
    (s.scanStep fd).stop = s.stop ∧ (s.scanStep fd).sender = s.sender := by
  unfold scanStep
  dsimp only
  split
  · exact ⟨rfl, rfl⟩
  · split
    · exact ⟨rfl, rfl⟩
    · split <;> exact ⟨rfl, rfl⟩

/-- The thread changes neither `stop_` nor where the frame thread is. -/
theorem netStep_rest (a : Answer) (s : Threads) :
    (s.netStep a).stop = s.stop ∧ (s.netStep a).sender = s.sender := by
  cases hp : s.place with
  | scan fd =>
    simp only [netStep, hp]
    exact scanStep_rest fd s
  | socket left =>
    cases left with
    | zero =>
      simp only [netStep, hp]
      exact ⟨rfl, rfl⟩
    | succ left =>
      simp only [netStep, hp, socketStep]
      split
      · exact ⟨rfl, rfl⟩
      · split <;> exact ⟨rfl, rfl⟩
  | recv fd =>
    simp only [netStep, hp]
    split
    · split <;> exact ⟨rfl, rfl⟩
    · exact ⟨rfl, rfl⟩
    · exact ⟨rfl, rfl⟩
  | getaddrinfo | connect _ _ | waitPoll _ _ _ | poll _ | lock _ =>
    simp only [netStep, hp]
    split <;> exact ⟨rfl, rfl⟩
  | _ =>
    unfold netStep
    rw [hp]
    exact ⟨rfl, rfl⟩

/-! ## The frame thread -/

/-- What `::send` does to a descriptor that is not the client's is left open. -/
def writeStep (payload : Bytes) (fd : Nat) (o : SendResult) (s : Threads) : Threads :=
  let frame := encodeFrame payload
  match s.table fd with
  | some (.socket k) =>
    let (r, k) := k.write frame o
    { s with
      table := setTable s.table fd (some (.socket k))
      sender := if r = .sent frame.length then .unlock true
        else if r = .wouldBlock then .unlock false
        else .shutdown fd }
  | _ => { s with sender := .shutdown fd }

/-- One step of `send`. -/
def sendStep (o : SendResult) (s : Threads) : Threads :=
  match s.sender with
  | .idle => s
  | .lock payload =>
    if s.sendMutex = none then { s with sendMutex := some .frame, sender := .load payload } else s
  | .load payload =>
    match s.fd with
    | none => { s with sender := .unlock false }
    | some fd => { s with sender := .write payload fd }
  | .write payload fd => s.writeStep payload fd o
  | .shutdown fd =>
    match s.table fd with
    | some (.socket k) =>
      { s with
        table := setTable s.table fd (some (.socket { k with shut := true }))
        sender := .unlock false }
    | _ => { s with sender := .unlock false }
  | .unlock _ => { s with sendMutex := none, sender := .idle }

/-! ## Both -/

inductive Event where
  /-- The client's thread goes on. -/
  | net (a : Answer)
  /-- The frame thread calls `send`. -/
  | call (payload : Bytes)
  /-- It goes on in `send`. -/
  | send (o : SendResult)
  /-- It calls `drain`. -/
  | drain
  /-- `stop_ = true`. -/
  | stop
  /-- Another part of the process opens a descriptor. -/
  | opens (fd : Nat)
  /-- It closes one of its own. -/
  | closes (fd : Nat)

def step : Event → Threads → Threads
  | .net a, s => s.netStep a
  | .call payload, s => if s.sender = .idle then { s with sender := .lock payload } else s
  | .send o, s => s.sendStep o
  | .drain, s => if s.sender = .idle then { s with queue := [] } else s
  | .stop, s => { s with stop := true }
  | .opens fd, s =>
    if s.table fd = none then { s with table := setTable s.table fd (some .other) } else s
  | .closes fd, s =>
    if s.table fd = some .other then { s with table := setTable s.table fd none } else s

/-- The client after `start`: the descriptors that are open are not its own. -/
def init (isOpen : Nat → Bool) : Threads where
  table := fun fd => if isOpen fd then some .other else none

end Threads

end Rebocap.Net
