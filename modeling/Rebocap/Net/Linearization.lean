import Rebocap.Net.Descriptors
import Rebocap.Net.Streams

/-!
# The client seen as one step at a time

The two threads take many system calls for what `Client` does in one step. A call of `send` takes
effect where it finds no descriptor, or with its write, and a connection where it comes to be seen.

* `linearized` — what the threads do, `Client` does step by step, and its callers see the same
-/

namespace Rebocap.Net

open Lib

/-! ## Steps of `Client` -/

/-- What a caller sees of the client. -/
inductive Seen where
  | returned (result : Bool)
  | drained (messages : List Received)
deriving DecidableEq

def Client.seen : Client.Act → Client → List Seen
  | .net _, _ => []
  | .drain, c => [.drained (c.drain []).1]
  | .send payload o, c => [.returned (c.send payload o).1]

def Place.thread : Place → Thread
  | .reading _ | .poll _ | .recv _ => .polling
  | .scan _ => .scanning
  | .lock _ | .clear _ => .returned
  | .publish _ => .bumped
  | _ => .connecting

/-- What `send` is about to return. -/
def Sender.result : Sender → Option Bool
  | .unlock result => some result
  | .shutdown _ => some false
  | _ => none

namespace Threads

/-- What a step of the client's thread is to `Client`. -/
def netEvents (a : Answer) (s : Threads) : List Client.Event :=
  match s.place with
  | .generation _ => [.connect]
  | .publish _ => [.publish]
  | .reading _ => if s.stop then [.hangup] else []
  | .poll _ =>
    match a.poll with
    | .failed => [.hangup]
    | _ => []
  | .recv _ =>
    match a.recv with
    | .bytes chunk => [.recv chunk]
    | .interrupted => []
    | .ended => [.hangup]
  | .scan _ => [.scan]
  | .clear _ => [.close]
  | _ => []

/-- What a step is to `Client`. -/
def acts : Event → Threads → List Client.Act
  | .net a, s => (netEvents a s).map .net
  | .send o, s =>
    match s.sender with
    | .load payload => if s.fd = none then [.send payload o] else []
    | .write payload _ => [.send payload o]
    | _ => []
  | .drain, s => if s.sender = .idle then [.drain] else []
  | _, _ => []

/-- What a caller of the threads sees, in the step that decides it. -/
def seen : Event → Threads → List Seen
  | .send o, s =>
    match s.sender with
    | .load _ | .write _ _ => (s.sendStep o).sender.result.toList.map .returned
    | _ => []
  | .drain, s => if s.sender = .idle then [.drained s.queue] else []
  | _, _ => []

/-- What a caller is returned, in the step in which the call returns. -/
def returns : Event → Threads → List Seen
  | .send _, s =>
    match s.sender with
    | .unlock result => [.returned result]
    | _ => []
  | .drain, s => if s.sender = .idle then [.drained s.queue] else []
  | _, _ => []

/-- What a `send` that is decided has still to return. -/
def pending (s : Threads) : List Seen := s.sender.result.toList.map .returned

/-- The client's state as `Client` has it. -/
structure Shows (s : Threads) (c : Client) : Prop where
  generation : c.generation = s.generation
  fd : c.fd = s.fd.map fun _ => s.generation
  queue : c.queue = s.queue
  thread : c.thread = s.place.thread
  buf : c.buf = s.buf
  off : c.off = s.off
  /-- A socket on which a write was cut short is as good as shut down. -/
  socket : ∀ fd k, s.fd = some fd → s.table fd = some (.socket k) →
    c.socket = if s.sender = .shutdown fd then { k with shut := true } else k

/-- One step, as `Client` makes it. -/
structure Linear (e : Event) (s : Threads) (c : Client) : Prop where
  state : Shows (step e s) (run Client.act (acts e s) c)
  seen : seen e s = trace Client.seen Client.act (acts e s) c

variable {s : Threads} {c : Client}

/-- A step that moves the client's thread on, and is none of `Client`'s. -/
theorem Shows.goto (h : Shows s c) {p : Place} (hthread : p.thread = s.place.thread) :
    Shows (s.goto p) c :=
  { h with thread := h.thread.trans hthread.symm }

/-- Where nothing is in `fd_`, the table does not show. -/
theorem Shows.hidden (h : Shows s c) {table : Nat → Option Descriptor} {p : Place}
    (hfd : s.fd = none) (hthread : p.thread = s.place.thread) :
    Shows { s with table := table, place := p } c :=
  { h with
    thread := h.thread.trans hthread.symm
    socket := by
      intro fd k hsome
      have hsome : s.fd = some fd := hsome
      rw [hfd] at hsome
      cases hsome }

/-- The end of `read_loop`. -/
theorem Shows.hangup (h : Shows s c) {fd : Nat} (hthread : s.place.thread = .polling) :
    Shows (s.goto (.lock fd)) (Client.step .hangup c) := by
  rw [Client.step, if_pos (h.thread.trans hthread)]
  exact { h with thread := rfl }

theorem Shows.scan (h : Shows s c) {fd : Nat} (hp : s.place = .scan fd) :
    Shows (s.scanStep fd) (Client.step .scan c) := by
  have hthread : c.thread = .scanning := by rw [h.thread, hp]; rfl
  rw [Client.step, if_pos hthread]
  unfold scanStep Client.scan
  rw [h.buf, h.off]
  dsimp only
  split
  · exact { h with thread := rfl, buf := rfl, off := rfl }
  · split
    · exact { h with thread := rfl, buf := rfl, off := rfl }
    · split
      · exact { h with thread := rfl, buf := rfl, off := rfl }
      · exact { h with queue := by rw [h.queue, h.generation], buf := rfl, off := rfl }

/-- A step of the client's thread. -/
theorem Shows.net (h : Shows s c) (hheld : s.shared.Held) (a : Answer) :
    Shows (s.netStep a) (run Client.step (netEvents a s) c) := by
  have hgoto : ∀ {p q : Place}, s.place = p → q.thread = p.thread → Shows (s.goto q) c := by
    intro p q hp hq
    exact h.goto (by rw [hp, hq])
  have hshown : s.fd = s.place.phase.shown := hheld.fd
  cases hp : s.place with
  | top =>
    simp only [netStep, netEvents, hp]
    split <;> exact hgoto hp rfl
  | getaddrinfo =>
    simp only [netStep, netEvents, hp]
    split <;> exact hgoto hp rfl
  | socket left =>
    cases left with
    | zero =>
      simp only [netStep, netEvents, hp]
      exact hgoto hp rfl
    | succ left =>
      simp only [netStep, netEvents, hp, socketStep]
      split
      · exact hgoto hp rfl
      · split
        · exact h.hidden (by rw [hshown, hp]; rfl) (by rw [hp]; rfl)
        · exact hgoto hp rfl
  | connect fd left =>
    simp only [netStep, netEvents, hp]
    split <;> exact hgoto hp rfl
  | waiting fd left i =>
    simp only [netStep, netEvents, hp]
    split <;> exact hgoto hp rfl
  | waitPoll fd left i =>
    simp only [netStep, netEvents, hp]
    split <;> exact hgoto hp rfl
  | getsockopt fd left =>
    simp only [netStep, netEvents, hp]
    split <;> exact hgoto hp rfl
  | refused fd left =>
    simp only [netStep, netEvents, hp]
    exact h.hidden (by rw [hshown, hp]; rfl) (by rw [hp]; rfl)
  | getFlags fd | setFlags fd | noDelay fd =>
    simp only [netStep, netEvents, hp]
    exact hgoto hp rfl
  | unreachable =>
    simp only [netStep, netEvents, hp]
    exact { h with thread := by rw [run_nil, h.thread, hp]; rfl }
  | retry i =>
    simp only [netStep, netEvents, hp]
    split <;> exact hgoto hp rfl
  | connected fd =>
    simp only [netStep, netEvents, hp]
    exact { h with thread := by rw [run_nil, h.thread, hp]; rfl }
  | generation fd =>
    have hthread : c.thread = .connecting := by rw [h.thread, hp]; rfl
    have hnone : s.fd = none := by rw [hshown, hp]; rfl
    simp only [netStep, netEvents, hp, run_cons, run_nil, Client.step, if_pos hthread]
    exact { h with
      generation := by rw [h.generation]
      fd := by rw [h.fd, hnone]; rfl
      thread := rfl
      socket := by
        intro fd' k hsome
        have hsome : s.fd = some fd' := hsome
        rw [hnone] at hsome
        cases hsome }
  | publish fd =>
    have hthread : c.thread = .bumped := by rw [h.thread, hp]; rfl
    have hphase : s.shared.phase = .fresh fd := by rw [shared, hp]; rfl
    simp only [netStep, netEvents, hp, run_cons, run_nil, Client.step, if_pos hthread]
    exact { h with
      fd := by rw [h.generation]; rfl
      thread := rfl
      buf := rfl
      socket := by
        rintro fd' k ⟨⟩ hk
        -- nothing was written yet, and `send` has not seen it
        have hempty : s.table fd = some (.socket {}) := hheld.fresh fd hphase
        have hk : s.table fd = some (.socket k) := hk
        rw [hempty] at hk
        cases hk
        have hsender : s.sender ≠ .shutdown fd := by
          intro hs
          have hloaded : s.shared.sender.descriptor = some fd := by rw [shared, hs]; rfl
          have hpublished := hheld.published hloaded
          rw [hphase] at hpublished
          cases hpublished
        rw [if_neg hsender] }
  | reading fd =>
    simp only [netStep, netEvents, hp]
    split
    · exact h.hangup (by rw [hp]; rfl)
    · exact hgoto hp rfl
  | poll fd =>
    simp only [netStep, netEvents, hp]
    cases a.poll with
    | ready | timeout | interrupted => exact hgoto hp rfl
    | failed => exact h.hangup (by rw [hp]; rfl)
  | recv fd =>
    have hthread : c.thread = .polling := by rw [h.thread, hp]; rfl
    simp only [netStep, netEvents, hp]
    cases a.recv with
    | interrupted => exact hgoto hp rfl
    | ended => exact h.hangup (by rw [hp]; rfl)
    | bytes chunk =>
      by_cases hchunk : chunk ≠ [] ∧ chunk.length ≤ 8192
      · simp only [if_pos hchunk, run_cons, run_nil, Client.step,
          if_pos (And.intro hthread hchunk)]
        exact { h with
          thread := rfl
          buf := by rw [h.buf]
          off := rfl }
      · have hno : ¬(c.thread = .polling ∧ chunk ≠ [] ∧ chunk.length ≤ 8192) :=
          fun hyes => hchunk hyes.2
        simp only [if_neg hchunk, run_cons, run_nil, Client.step, if_neg hno]
        exact h
  | scan fd =>
    simp only [netStep, netEvents, hp]
    exact h.scan hp
  | lock fd =>
    simp only [netStep, netEvents, hp]
    split
    · exact { h with thread := by rw [run_nil, h.thread, hp]; rfl }
    · exact h
  | clear fd =>
    have hthread : c.thread = .returned := by rw [h.thread, hp]; rfl
    simp only [netStep, netEvents, hp, run_cons, run_nil, Client.step, if_pos hthread]
    exact { h with
      fd := rfl
      thread := rfl
      socket := fun fd' k hsome => by cases hsome }
  | close fd =>
    simp only [netStep, netEvents, hp]
    exact h.hidden (by rw [hshown, hp]; rfl) (by rw [hp]; rfl)
  | unlock =>
    simp only [netStep, netEvents, hp]
    exact { h with thread := by rw [run_nil, h.thread, hp]; rfl }
  | closed =>
    simp only [netStep, netEvents, hp]
    exact { h with thread := by rw [run_nil, h.thread, hp]; rfl }
  | done =>
    simp only [netStep, netEvents, hp]
    exact h

theorem run_map_net (es : List Client.Event) (c : Client) :
    run Client.act (es.map .net) c = run Client.step es c := by
  induction es generalizing c with
  | nil => rfl
  | cons e es ih => exact ih (Client.step e c)

theorem seen_map_net (es : List Client.Event) (c : Client) :
    trace Client.seen Client.act (es.map .net) c = [] := by
  induction es generalizing c with
  | nil => rfl
  | cons e es ih => exact ih (Client.step e c)

/-! ## The frame thread's steps -/

/-- A step of `send` that makes no system call on a descriptor. -/
theorem Shows.sender (h : Shows s c) {mutex : Option Holder} {sender : Sender}
    (hold : ∀ fd, s.sender ≠ .shutdown fd) (hnew : ∀ fd, sender ≠ .shutdown fd) :
    Shows { s with sendMutex := mutex, sender := sender } c :=
  { h with
    socket := by
      intro fd k hfd hk
      have hsocket := h.socket fd k hfd hk
      rw [if_neg (hold fd)] at hsocket
      rw [if_neg (hnew fd), hsocket] }

/-- A step that changes the socket. -/
theorem Shows.change (h : Shows s c) {fd : Nat} {k : Socket} {sender : Sender} {socket : Socket}
    {accepted : Nat → List Bytes} (hfd : s.fd = some fd)
    (hsocket : socket = if sender = .shutdown fd then { k with shut := true } else k) :
    Shows { s with table := setTable s.table fd (some (.socket k)), sender := sender }
      { c with socket := socket, accepted := accepted } :=
  { h with
    socket := by
      intro fd' k' hfd' hk
      cases hfd.symm.trans hfd'
      have hk : setTable s.table fd (some (.socket k)) fd = some (.socket k') := hk
      rw [setTable_same] at hk
      cases hk
      exact hsocket }

/-- The write of `send`. -/
theorem linear_write (h : Shows s c) (hheld : s.shared.Held) {payload : Bytes} {fd : Nat}
    (o : SendResult) (hs : s.sender = .write payload fd) : Linear (.send o) s c := by
  have hsender : s.shared.sender.descriptor = some fd := by rw [shared, hs]; rfl
  have hfd : s.fd = some fd := hheld.sender fd hsender
  obtain ⟨k, hk⟩ : ∃ k, s.table fd = some (.socket k) :=
    hheld.opened fd (by rw [hheld.published hsender]; rfl)
  have hcfd : c.fd = some s.generation := by rw [h.fd, hfd]; rfl
  have hsocket : c.socket = k := by
    rw [h.socket fd k hfd hk, hs]
    exact if_neg (by simp)
  generalize hw : k.write (encodeFrame payload) o = w
  obtain ⟨r, k'⟩ := w
  have hsend : c.socket.send payload o = if r = .sent (encodeFrame payload).length then (true, k')
      else if r = .wouldBlock then (false, k') else (false, { k' with shut := true }) := by
    rw [hsocket, Socket.send, hw]
  have hstep : step (.send o) s = { s with
      table := setTable s.table fd (some (.socket k'))
      sender := if r = .sent (encodeFrame payload).length then .unlock true
        else if r = .wouldBlock then .unlock false else .shutdown fd } := by
    simp only [step, sendStep, hs, writeStep, hk, hw]
  have hacts : acts (.send o) s = [.send payload o] := by simp only [acts, hs]
  have hseen : seen (.send o) s = (step (.send o) s).sender.result.toList.map .returned := by
    simp only [seen, hs, step]
  have hclient := Client.send_of_fd payload o hcfd
  have hreturned : (c.send payload o).1 = (c.socket.send payload o).1 := by
    rw [Client.send, hcfd]
  constructor
  · rw [hacts, hstep, run_cons, run_nil, Client.act, hclient]
    refine h.change hfd ?_
    rw [hsend]
    split
    · rfl
    · split
      · rfl
      · exact (if_pos rfl).symm
  · rw [hacts, hseen, hstep, trace_cons, trace_nil, Client.seen, hreturned, hsend]
    split
    · rfl
    · split <;> rfl

/-- A step of `send`. -/
theorem linear_send (h : Shows s c) (hheld : s.shared.Held) (o : SendResult) :
    Linear (.send o) s c := by
  have hquiet : acts (.send o) s = [] → seen (.send o) s = [] → Shows (s.sendStep o) c →
      Linear (.send o) s c := by
    intro hacts hseen hshows
    exact ⟨by rw [hacts]; exact hshows, by rw [hacts, hseen, trace_nil]⟩
  cases hs : s.sender with
  | idle =>
    refine hquiet (by simp only [acts, hs]) (by simp only [seen, hs]) ?_
    simp only [sendStep, hs]
    exact h
  | lock payload =>
    refine hquiet (by simp only [acts, hs]) (by simp only [seen, hs]) ?_
    simp only [sendStep, hs]
    split
    · exact h.sender (by simp [hs]) (by simp)
    · exact h
  | load payload =>
    cases hfd : s.fd with
    | none =>
      have hcfd : c.fd = none := by rw [h.fd, hfd]; rfl
      have hacts : acts (.send o) s = [.send payload o] := by simp only [acts, hs, hfd, if_true]
      have hstep : s.sendStep o = { s with sender := .unlock false } := by
        simp only [sendStep, hs, hfd]
      have hsend : c.send payload o = (false, c) := by rw [Client.send, hcfd]
      constructor
      · rw [hacts, run_cons, run_nil, Client.act, hsend]
        show Shows (s.sendStep o) c
        rw [hstep]
        exact h.sender (by simp [hs]) (by simp)
      · rw [hacts, trace_cons, trace_nil, Client.seen, hsend]
        simp only [seen, hs, hstep]
        rfl
    | some fd =>
      have hstep : s.sendStep o = { s with sender := .write payload fd } := by
        simp only [sendStep, hs, hfd]
      refine hquiet (by simp [acts, hs, hfd]) (by simp [seen, hs, hstep, Sender.result]) ?_
      rw [hstep]
      exact h.sender (by simp [hs]) (by simp)
  | write payload fd => exact linear_write h hheld o hs
  | shutdown fd =>
    have hsender : s.shared.sender.descriptor = some fd := by rw [shared, hs]; rfl
    have hfd : s.fd = some fd := hheld.sender fd hsender
    obtain ⟨k, hk⟩ : ∃ k, s.table fd = some (.socket k) :=
      hheld.opened fd (by rw [hheld.published hsender]; rfl)
    refine hquiet (by simp only [acts, hs]) (by simp only [seen, hs]) ?_
    simp only [sendStep, hs, hk]
    have hsocket := h.socket fd k hfd hk
    rw [if_pos hs] at hsocket
    exact h.change hfd hsocket
  | unlock result =>
    refine hquiet (by simp only [acts, hs]) (by simp only [seen, hs]) ?_
    simp only [sendStep, hs]
    exact h.sender (by simp [hs]) (by simp)

/-- What another part of the process does. -/
theorem Shows.others (h : Shows s c) {fd : Nat} {d : Option Descriptor}
    (hnew : ∀ k, d ≠ some (.socket k)) : Shows { s with table := setTable s.table fd d } c :=
  { h with
    socket := by
      intro fd' k hfd' hk
      rcases Shared.socket_setTable hk with ⟨-, hd⟩ | ⟨-, hk⟩
      · exact absurd hd (hnew k)
      · exact h.socket fd' k hfd' hk }

/-- **A step of the threads is at most one step of `Client`**, and callers see the same. -/
theorem linear_step (e : Event) (h : Shows s c) (hheld : s.shared.Held) : Linear e s c := by
  cases e with
  | net a =>
    have hacts : acts (.net a) s = (netEvents a s).map .net := rfl
    exact ⟨by rw [hacts, run_map_net]; exact h.net hheld a, by rw [hacts, seen_map_net]; rfl⟩
  | send o => exact linear_send h hheld o
  | call payload =>
    refine ⟨?_, rfl⟩
    rw [step]
    split
    next hidle => exact h.sender (by simp [hidle]) (by simp)
    next => exact h
  | drain =>
    by_cases hidle : s.sender = .idle
    · have hacts : acts .drain s = [.drain] := if_pos hidle
      have hseen : seen .drain s = [.drained s.queue] := if_pos hidle
      constructor
      · rw [hacts, step, if_pos hidle]
        exact { h with queue := rfl }
      · rw [hacts, hseen, ← h.queue]
        rfl
    · have hacts : acts .drain s = [] := if_neg hidle
      have hseen : seen .drain s = [] := if_neg hidle
      constructor
      · rw [hacts, step, if_neg hidle]
        exact h
      · rw [hacts, hseen, trace_nil]
  | stop => exact ⟨{ h with }, rfl⟩
  | opens fd =>
    refine ⟨?_, rfl⟩
    rw [step]
    split
    · exact h.others (by simp)
    · exact h
  | closes fd =>
    refine ⟨?_, rfl⟩
    rw [step]
    split
    · exact h.others (by simp)
    · exact h

/-! ## The run -/

theorem shows_init (isOpen : Nat → Bool) : Shows (init isOpen) {} where
  generation := rfl
  fd := rfl
  queue := rfl
  thread := rfl
  buf := rfl
  off := rfl
  socket := fun fd k hfd => by cases hfd

theorem linear_run : ∀ (es : List Event) {s : Threads} {c : Client}, Shows s c → s.shared.Held →
    Shows (run step es s) (run Client.act (trace acts step es s) c) ∧
      trace seen step es s = trace Client.seen Client.act (trace acts step es s) c := by
  intro es
  induction es with
  | nil => exact fun h _ => ⟨h, rfl⟩
  | cons e es ih =>
    intro s c h hheld
    have hstep := linear_step e h hheld
    obtain ⟨hrest, hseen⟩ := ih hstep.state (held_step e s hheld)
    rw [run_cons, trace_cons, trace_cons, run_append, trace_append, hstep.seen, hseen]
    exact ⟨hrest, rfl⟩

/-- What is decided in a step is returned in it, or is pending. -/
theorem returns_step (e : Event) (s : Threads) :
    s.pending ++ seen e s = returns e s ++ (step e s).pending := by
  have hsame : ∀ {s' : Threads}, s'.sender = s.sender →
      s.pending ++ [] = [] ++ s'.pending := by
    intro s' hs
    rw [pending, pending, hs, List.append_nil, List.nil_append]
  cases e with
  | net a => exact hsame (netStep_rest a s).2
  | stop => exact hsame rfl
  | opens fd | closes fd =>
    refine hsame ?_
    rw [step]
    split <;> rfl
  | call payload =>
    show s.pending ++ [] = [] ++ _
    rw [step]
    split
    next hidle => rw [pending, hidle]; rfl
    next => exact hsame rfl
  | drain =>
    by_cases hidle : s.sender = .idle
    · simp [seen, returns, step, pending, hidle, Sender.result]
    · simp [seen, returns, step, hidle]
  | send o =>
    show s.pending ++ seen (.send o) s = returns (.send o) s ++ (s.sendStep o).pending
    cases hs : s.sender with
    | idle => simp [seen, returns, pending, sendStep, hs]
    | lock payload =>
      simp only [seen, returns, pending, sendStep, hs]
      split
      · rfl
      · simp only [hs, Sender.result]
        rfl
    | load payload | write payload fd =>
      simp only [seen, returns, pending, hs]
      rfl
    | shutdown fd =>
      simp only [seen, returns, pending, sendStep, hs]
      split <;> rfl
    | unlock result => simp [seen, returns, pending, sendStep, hs, Sender.result]

/-- **What is decided in a run is returned in it, in the same order**, but for a last `send` that
has still to return. -/
theorem returns_run : ∀ (es : List Event) (s : Threads),
    s.pending ++ trace seen step es s = trace returns step es s ++ (run step es s).pending := by
  intro es
  induction es with
  | nil => exact fun s => List.append_nil s.pending
  | cons e es ih =>
    intro s
    calc s.pending ++ trace seen step (e :: es) s
        = (s.pending ++ seen e s) ++ trace seen step es (step e s) := by
          rw [trace_cons, List.append_assoc]
      _ = returns e s ++ ((step e s).pending ++ trace seen step es (step e s)) := by
          rw [returns_step, List.append_assoc]
      _ = trace returns step (e :: es) s ++ (run step (e :: es) s).pending := by
          rw [ih, trace_cons, run_cons, List.append_assoc]

/-- **What the threads do, `Client` does step by step**: in every run they are where `Client` is
after its steps, and `send` and `drain` have the results that they have there, each where it is
decided, and return them to their callers in this order. -/
theorem linearized (isOpen : Nat → Bool) (es : List Event) :
    let as := trace acts step es (init isOpen)
    let s := run step es (init isOpen)
    Shows s (run Client.act as {}) ∧
      trace seen step es (init isOpen) = trace Client.seen Client.act as {} ∧
      trace returns step es (init isOpen) ++ s.pending = trace Client.seen Client.act as {} := by
  obtain ⟨hshows, hseen⟩ := linear_run es (shows_init isOpen) (Shared.held_init isOpen)
  exact ⟨hshows, hseen, (returns_run es (init isOpen)).symm.trans hseen⟩

end Threads

end Rebocap.Net
