import Mathlib.Data.List.Induction
import Rebocap.Bridge.Relay
import Rebocap.Lib.Simulation
import Rebocap.Net.Sending

/-!
# The calls of `send` on each connection

The two threads share one client: between any two steps of the network thread the frame thread can
call `send`. A connection sees the calls that found its descriptor in `fd_`, and only these.

* `Traced.after` — what each connection has accepted, and what was written to it
* `splitFrames_written` — a reader of what was written finds what was accepted
-/

namespace Rebocap.Net.Client

open Lib Bridge

/-! ## Both threads -/

/-- What happens to the client. -/
inductive Act where
  /-- A step of the network thread. -/
  | net (e : Event)
  /-- A call of `drain`, by an owner whose `out` is empty. -/
  | drain
  /-- A call of `send`, with what the kernel does. -/
  | send (payload : Bytes) (o : SendResult)

def act : Act → Client → Client
  | .net e, c => step e c
  | .drain, c => (c.drain []).2
  | .send payload o, c => (c.send payload o).2

/-- The calls of `send` that come to a write on connection `g`. -/
def callsOn (g : Nat) : Act → Client → List (Bytes × SendResult)
  | .net _, _ | .drain, _ => []
  | .send payload o, c => if c.fd = some g then [(payload, o)] else []

/-- The bytes that an act writes on connection `g`. -/
def wrote (g : Nat) (a : Act) (c : Client) : Bytes :=
  if c.fd = some g then (act a c).socket.written.drop c.socket.written.length else []

/-- All that was written on connection `g`. -/
def written (g : Nat) (acts : List Act) : Bytes := trace (wrote g) act acts {}

/-- What connection `g` has accepted after a run, and its socket at the driver's end. -/
def endOf (g : Nat) (acts : List Act) : List Bytes × Socket :=
  Socket.sendAll (trace (callsOn g) act acts {}) {}

theorem attached_act (a : Act) {c : Client} (h : c.Attached) : (act a c).Attached := by
  cases a with
  | net e => exact h.step e
  | drain => exact h
  | send payload o => exact h.of_send payload o

theorem attached_run (acts : List Act) : (run act acts {}).Attached :=
  run_invariant (fun a _ h => attached_act a h) acts attached_init

/-! ## Connection by connection -/

/-- What the client holds is what the calls on each connection have made. -/
structure Traced (acts : List Act) (c : Client) : Prop where
  accepted : ∀ g, c.accepted g = (endOf g acts).1
  written : ∀ g, written g acts = (endOf g acts).2.written
  /-- While it is in `fd_`, the socket is the one of this connection. -/
  socket : ∀ g, c.fd = some g → c.socket = (endOf g acts).2
  /-- A connection that is still to come has seen nothing. -/
  unused : ∀ g, (c.generation < g ∨ c.generation = g ∧ c.thread = .bumped) →
    trace (callsOn g) act acts {} = []

theorem sendAll_append : ∀ (calls more : List (Bytes × SendResult)) (s : Socket),
    Socket.sendAll (calls ++ more) s
      = ((Socket.sendAll calls s).1 ++ (Socket.sendAll more (Socket.sendAll calls s).2).1,
        (Socket.sendAll more (Socket.sendAll calls s).2).2) := by
  intro calls more
  induction calls with
  | nil => exact fun _ => rfl
  | cons call calls ih =>
    obtain ⟨payload, o⟩ := call
    intro s
    rw [List.cons_append, Socket.sendAll_cons, ih, Socket.sendAll_cons]
    cases (s.send payload o).1 <;> rfl

theorem endOf_snoc (g : Nat) (acts : List Act) (a : Act) :
    endOf g (acts ++ [a])
      = ((endOf g acts).1 ++ (Socket.sendAll (callsOn g a (run act acts {})) (endOf g acts).2).1,
        (Socket.sendAll (callsOn g a (run act acts {})) (endOf g acts).2).2) := by
  rw [endOf, trace_append, trace_cons, trace_nil, List.append_nil, sendAll_append]
  rfl

theorem written_snoc (g : Nat) (acts : List Act) (a : Act) :
    written g (acts ++ [a]) = written g acts ++ wrote g a (run act acts {}) := by
  rw [written, trace_append, trace_cons, trace_nil, List.append_nil, written]

/-- An act that is no call of `send`. -/
structure Quiet (a : Act) : Prop where
  calls : ∀ g c, callsOn g a c = []
  wrote : ∀ g c, wrote g a c = []

theorem quiet_drain : Quiet .drain where
  calls := fun _ _ => rfl
  wrote := fun g c => by simp [wrote, act, drain]

theorem quiet_net (e : Event) : Quiet (.net e) where
  calls := fun _ _ => rfl
  wrote := fun g c => by
    rw [wrote, act]
    rcases step_cases e c with hs | ⟨ht, hs⟩ | ⟨ht, hs⟩ | ⟨ht, chunk, -, hs⟩ | ⟨ht, hs⟩ |
      ⟨ht, hs⟩ | ⟨ht, hs⟩ <;> rw [hs]
    · simp
    · simp
    · simp
    · simp
    · rcases scan_cases c with ⟨-, hscan⟩ | ⟨-, -, hscan⟩ | ⟨-, -, hscan⟩ <;> rw [hscan]
      all_goals simp
    · simp
    · simp

/-- It leaves what the calls have made. -/
structure Leaves (acts : List Act) (a : Act) (g : Nat) : Prop where
  calls : trace (callsOn g) act (acts ++ [a]) {} = trace (callsOn g) act acts {}
  endOf : endOf g (acts ++ [a]) = endOf g acts
  written : written g (acts ++ [a]) = written g acts

theorem Quiet.leaves {a : Act} (ha : Quiet a) (acts : List Act) (g : Nat) : Leaves acts a g := by
  have hcalls : trace (callsOn g) act (acts ++ [a]) {} = trace (callsOn g) act acts {} := by
    rw [trace_append, trace_cons, trace_nil, ha.calls, List.append_nil, List.append_nil]
  exact ⟨hcalls, by rw [Client.endOf, hcalls, Client.endOf],
    by rw [written_snoc, ha.wrote, List.append_nil]⟩

theorem traced_net {acts : List Act} (e : Event) (h : Traced acts (run act acts {})) :
    Traced (acts ++ [.net e]) (run act (acts ++ [.net e]) {}) := by
  have hquiet := (quiet_net e).leaves acts
  have hrun : run act (acts ++ [.net e]) {} = step e (run act acts {}) := by
    rw [run_append, run_cons, run_nil, act]
  generalize run act acts {} = c at h hrun
  constructor
  · intro g
    rw [hrun, step_accepted, (hquiet g).endOf, h.accepted]
  · intro g
    rw [(hquiet g).written, (hquiet g).endOf, h.written]
  · intro g
    rw [hrun, (hquiet g).endOf]
    rcases step_cases e c with hs | ⟨ht, hs⟩ | ⟨ht, hs⟩ | ⟨ht, chunk, -, hs⟩ | ⟨ht, hs⟩ |
      ⟨ht, hs⟩ | ⟨ht, hs⟩ <;> rw [hs]
    · exact h.socket g
    · exact h.socket g
    · -- the new connection has a socket of its own
      rintro hfd
      cases hfd
      have hnone := h.unused c.generation (Or.inr ⟨rfl, ht⟩)
      rw [endOf, hnone]
      rfl
    · exact h.socket g
    · rcases scan_cases c with ⟨-, hscan⟩ | ⟨-, -, hscan⟩ | ⟨-, -, hscan⟩ <;> rw [hscan]
      all_goals exact h.socket g
    · exact h.socket g
    · nofun
  · intro g hg
    rw [(hquiet g).calls]
    refine h.unused g ?_
    rw [hrun] at hg
    rcases step_cases e c with hs | ⟨ht, hs⟩ | ⟨ht, hs⟩ | ⟨ht, chunk, -, hs⟩ | ⟨ht, hs⟩ |
      ⟨ht, hs⟩ | ⟨ht, hs⟩ <;> rw [hs] at hg
    · exact hg
    · rcases hg with hg | ⟨hg, -⟩
      · exact Or.inl (by simp only at hg; omega)
      · exact Or.inl (by simp only at hg; omega)
    · exact Or.inl (by simpa using hg)
    · exact Or.inl (by simpa using hg)
    · rcases scan_cases c with ⟨-, hscan⟩ | ⟨-, -, hscan⟩ | ⟨-, -, hscan⟩ <;> rw [hscan] at hg
      all_goals exact Or.inl (by simpa [ht] using hg)
    · exact Or.inl (by simpa using hg)
    · exact Or.inl (by simpa using hg)

theorem traced_drain {acts : List Act} (h : Traced acts (run act acts {})) :
    Traced (acts ++ [.drain]) (run act (acts ++ [.drain]) {}) := by
  have hquiet := quiet_drain.leaves acts
  have hrun : run act (acts ++ [.drain]) {} = ((run act acts {}).drain []).2 := by
    rw [run_append, run_cons, run_nil, act]
  rw [hrun]
  constructor
  · intro g
    rw [(hquiet g).endOf]
    exact h.accepted g
  · intro g
    rw [(hquiet g).written, (hquiet g).endOf, h.written]
  · intro g hg
    rw [(hquiet g).endOf]
    exact h.socket g hg
  · intro g hg
    rw [(hquiet g).calls]
    exact h.unused g hg

/-- A call of `send` on the connection in `fd_`. -/
theorem send_of_fd {c : Client} {g : Nat} (payload : Bytes) (o : SendResult)
    (hfd : c.fd = some g) : (c.send payload o).2 = { c with
      socket := (c.socket.send payload o).2
      accepted := if (c.socket.send payload o).1 then
          update c.accepted g (c.accepted g ++ [payload])
        else c.accepted } := by
  rw [send, hfd]

/-- What a call writes comes behind what was written before. -/
theorem prefix_send (s : Socket) (payload : Bytes) (o : SendResult) :
    s.written <+: (s.send payload o).2.written := by
  rcases s.send_cases payload o with ⟨-, hs⟩ | hs | ⟨part, -, -, -, hs⟩
  · simp [hs]
  · simp [hs]
  · simp [hs]

theorem traced_send {acts : List Act} (payload : Bytes) (o : SendResult)
    (h : Traced acts (run act acts {})) :
    Traced (acts ++ [.send payload o]) (run act (acts ++ [.send payload o]) {}) := by
  have hattached := attached_run acts
  have hrun : run act (acts ++ [.send payload o]) {} = ((run act acts {}).send payload o).2 := by
    rw [run_append, run_cons, run_nil, act]
  have hend := fun g => endOf_snoc g acts (.send payload o)
  have hwritten := fun g => written_snoc g acts (.send payload o)
  have hcalls : ∀ g, trace (callsOn g) act (acts ++ [.send payload o]) {}
      = trace (callsOn g) act acts {} ++ callsOn g (.send payload o) (run act acts {}) := by
    intro g
    rw [trace_append, trace_cons, trace_nil, List.append_nil]
  generalize run act acts {} = c at h hattached hrun hend hwritten hcalls
  cases hfd : c.fd with
  | none =>
    have hnone : ∀ g, callsOn g (.send payload o) c = [] := by
      intro g
      rw [callsOn, hfd]
      rfl
    have hsame : (c.send payload o).2 = c := by rw [send, hfd]
    rw [hrun, hsame]
    constructor
    · intro g
      rw [hend, hnone, h.accepted, Socket.sendAll, List.append_nil]
    · intro g
      rw [hwritten, wrote, hfd, if_neg (Option.some_ne_none g).symm, List.append_nil, hend, hnone,
        Socket.sendAll, h.written]
    · intro g hg
      rw [hfd] at hg
      cases hg
    · intro g hg
      rw [hcalls, hnone, List.append_nil, h.unused g hg]
  | some here =>
    have hother : ∀ g, g ≠ here → callsOn g (.send payload o) c = [] := by
      intro g hg
      rw [callsOn, hfd, if_neg fun hh => hg (Option.some.inj hh).symm]
    have hhere : endOf here (acts ++ [.send payload o])
        = (c.accepted here ++ (if (c.socket.send payload o).1 then [payload] else []),
          (c.socket.send payload o).2) := by
      rw [hend, callsOn, if_pos hfd, Socket.sendAll_cons, ← h.accepted, ← h.socket here hfd]
      rfl
    rw [hrun, send_of_fd payload o hfd]
    constructor
    · intro g
      by_cases hg : g = here
      · subst hg
        rw [hhere]
        cases (c.socket.send payload o).1 <;> simp
      · rw [hend, hother g hg, Socket.sendAll, List.append_nil, ← h.accepted]
        cases (c.socket.send payload o).1
        · rfl
        · exact update_of_ne _ _ hg
    · intro g
      by_cases hg : g = here
      · subst hg
        obtain ⟨part, hpart⟩ := prefix_send c.socket payload o
        have hnew : wrote g (.send payload o) c = part := by
          rw [wrote, if_pos hfd, act, send_of_fd payload o hfd]
          simp [← hpart]
        rw [hwritten, hnew, h.written, ← h.socket g hfd, hpart, hhere]
      · rw [hwritten, wrote, hfd, if_neg fun hh => hg (Option.some.inj hh).symm, List.append_nil,
          hend, hother g hg, Socket.sendAll, h.written]
    · rintro g hg
      rw [hfd] at hg
      cases hg
      rw [hhere]
    · -- what is in `fd_` is not still to come
      intro g hg
      have hne : g ≠ here := by
        rintro rfl
        unfold Attached at hattached
        rw [hfd] at hattached
        split at hattached
        · cases hattached
        next hthread =>
          cases hattached
          rcases hg with hg | ⟨-, hg⟩
          · exact Nat.lt_irrefl _ hg
          · exact hthread (Or.inr hg)
      rw [hcalls, hother g hne, List.append_nil, h.unused g hg]

theorem traced_nil : Traced [] {} where
  accepted := fun _ => rfl
  written := fun _ => rfl
  socket := nofun
  unused := fun _ _ => rfl

/-- **What each connection has accepted is what the calls on it have made**, in every run. -/
theorem Traced.after (acts : List Act) : Traced acts (run act acts {}) := by
  induction acts using List.reverseRecOn with
  | nil => exact traced_nil
  | append_singleton acts a ih =>
    cases a with
    | net e => exact traced_net e ih
    | drain => exact traced_drain ih
    | send payload o => exact traced_send payload o ih

/-! ## What a reader finds -/

/-- A call that is passed a payload that the protocol allows. -/
def Allowed : Act → Prop
  | .net _ | .drain => True
  | .send payload _ => payload.length ≤ maxPayload

/-- The calls on a connection are calls of the run. -/
theorem send_mem_of_mem_trace {g : Nat} {call : Bytes × SendResult} :
    ∀ {acts : List Act} {c : Client}, call ∈ trace (callsOn g) act acts c →
      .send call.1 call.2 ∈ acts := by
  intro acts
  induction acts with
  | nil => exact fun hcall => absurd hcall List.not_mem_nil
  | cons a acts ih =>
    intro c hcall
    rw [trace_cons] at hcall
    rcases List.mem_append.mp hcall with hcall | hcall
    · cases a with
      | net e | drain => cases hcall
      | send payload o =>
        rw [callsOn] at hcall
        split at hcall
        · obtain rfl := List.mem_singleton.mp hcall
          exact List.mem_cons_self
        · cases hcall
    · exact List.mem_cons_of_mem a (ih hcall)

/-- The calls on one connection as the bridge's own account of them. -/
theorem exists_calls {calls : List (Bytes × SendResult)}
    (h : ∀ call ∈ calls, call.1.length ≤ maxPayload) :
    ∃ cs : Calls, cs.map (fun c => (c.1.val, c.2)) = calls := by
  induction calls with
  | nil => exact ⟨[], rfl⟩
  | cons call calls ih =>
    obtain ⟨cs, hcs⟩ := ih fun call' hmem => h call' (List.mem_cons_of_mem call hmem)
    refine ⟨(⟨call.1, h call List.mem_cons_self⟩, call.2) :: cs, ?_⟩
    rw [List.map_cons, hcs]

/-- A reader of what was written finds what the connection has accepted. -/
theorem splitFrames_written {acts : List Act} (h : ∀ a ∈ acts, Allowed a) (g : Nat) :
    (splitFrames maxPayload (written g acts)).1 = (run act acts {}).accepted g := by
  have hle : ∀ call ∈ trace (callsOn g) act acts {}, call.1.length ≤ maxPayload :=
    fun call hcall => h _ (send_mem_of_mem_trace hcall)
  obtain ⟨cs, hcs⟩ := exists_calls hle
  have hrun : cs.run = endOf g acts := by rw [Calls.run, hcs, endOf]
  have hsplit := Bridge.splitFrames_written cs
  rw [hrun] at hsplit
  have htraced := Traced.after acts
  rw [htraced.written, htraced.accepted, hsplit]

end Rebocap.Net.Client
