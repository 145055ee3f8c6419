import Rebocap.Lib.Simulation
import Rebocap.Net.Threads

/-!
# Whose descriptors the client uses

A number that was closed can be given out again at once, to anyone. So a system call on a descriptor
has to come before the `close` of it, although the descriptor is closed by one thread and used by
two.

* `moves_step` — what a step does to what the threads share
* `descriptors_safe` — the descriptors that are used are the client's own, and none is left open
-/

namespace Rebocap.Net

open Lib

/-! ## What the threads share -/

/-- How far the client's thread is with a descriptor. -/
inductive Phase where
  /-- It has none. -/
  | free
  /-- It is connecting. -/
  | fresh (fd : Nat)
  /-- It is in `fd_`. -/
  | published (fd : Nat)
  /-- It is to be taken from `fd_`, and the mutex is locked. -/
  | clearing (fd : Nat)
  | closing (fd : Nat)
  | unlocking
deriving DecidableEq

def Place.phase : Place → Phase
  | .connect fd _ | .waiting fd _ _ | .waitPoll fd _ _ | .getsockopt fd _ | .refused fd _
  | .getFlags fd | .setFlags fd | .noDelay fd | .connected fd | .generation fd | .publish fd =>
    .fresh fd
  | .reading fd | .poll fd | .recv fd | .scan fd | .lock fd => .published fd
  | .clear fd => .clearing fd
  | .close fd => .closing fd
  | .unlock => .unlocking
  | .top | .getaddrinfo | .socket _ | .unreachable | .retry _ | .closed | .done => .free

/-- The descriptor that it has. -/
def Phase.descriptor : Phase → Option Nat
  | .fresh fd | .published fd | .clearing fd | .closing fd => some fd
  | .free | .unlocking => none

/-- What is in `fd_`. -/
def Phase.shown : Phase → Option Nat
  | .published fd | .clearing fd => some fd
  | .free | .fresh _ | .closing _ | .unlocking => none

/-- It has the mutex. -/
def Phase.locks : Phase → Bool
  | .clearing _ | .closing _ | .unlocking => true
  | .free | .fresh _ | .published _ => false

/-- The descriptor that `send` has loaded. -/
def Sender.descriptor : Sender → Option Nat
  | .write _ fd | .shutdown fd => some fd
  | .idle | .lock _ | .load _ | .unlock _ => none

/-- It has the mutex. -/
def Sender.locks : Sender → Bool
  | .load _ | .write _ _ | .shutdown _ | .unlock _ => true
  | .idle | .lock _ => false

theorem Sender.locks_of_descriptor {s : Sender} {fd : Nat} (h : s.descriptor = some fd) :
    s.locks = true := by
  cases s with
  | write _ _ | shutdown _ => rfl
  | idle | lock _ | load _ | unlock _ => cases h

structure Shared where
  table : Nat → Option Descriptor
  fd : Option Nat
  sendMutex : Option Holder
  phase : Phase
  sender : Sender

def Threads.shared (s : Threads) : Shared where
  table := s.table
  fd := s.fd
  sendMutex := s.sendMutex
  phase := s.place.phase
  sender := s.sender

namespace Shared

open Threads

/-- What a step of one of the threads does to it. -/
inductive Moves (c : Shared) : Shared → Prop where
  | stays : Moves c c
  /-- `socket`. -/
  | opens (fd : Nat) (hphase : c.phase = .free) (hnone : c.table fd = none) :
    Moves c { c with table := setTable c.table fd (some (.socket {})), phase := .fresh fd }
  /-- `close` of a descriptor that could not be connected. -/
  | refused (fd : Nat) (hphase : c.phase = .fresh fd) :
    Moves c { c with table := setTable c.table fd none, phase := .free }
  | publishes (fd : Nat) (hphase : c.phase = .fresh fd) :
    Moves c { c with fd := some fd, phase := .published fd }
  | locks (fd : Nat) (hphase : c.phase = .published fd) (hmutex : c.sendMutex = none) :
    Moves c { c with sendMutex := some .network, phase := .clearing fd }
  | clears (fd : Nat) (hphase : c.phase = .clearing fd) :
    Moves c { c with fd := none, phase := .closing fd }
  | closes (fd : Nat) (hphase : c.phase = .closing fd) :
    Moves c { c with table := setTable c.table fd none, phase := .unlocking }
  | unlocks (hphase : c.phase = .unlocking) :
    Moves c { c with sendMutex := none, phase := .free }
  | calls (payload : Bytes) (hidle : c.sender = .idle) :
    Moves c { c with sender := .lock payload }
  | senderLocks (payload : Bytes) (hsender : c.sender = .lock payload)
      (hmutex : c.sendMutex = none) :
    Moves c { c with sendMutex := some .frame, sender := .load payload }
  /-- It finds no descriptor, or is at its end. -/
  | decides (result : Bool) (hlocks : c.sender.locks = true) :
    Moves c { c with sender := .unlock result }
  | loads (payload : Bytes) (fd : Nat) (hsender : c.sender = .load payload)
      (hfd : c.fd = some fd) : Moves c { c with sender := .write payload fd }
  /-- A system call of `send` changes the socket. -/
  | writes (fd : Nat) (k k' : Socket) (sender : Sender) (hsender : c.sender.descriptor = some fd)
      (hopen : c.table fd = some (.socket k)) (hlocks : sender.locks = true)
      (hkeeps : ∀ fd', sender.descriptor = some fd' → fd' = fd) :
    Moves c { c with table := setTable c.table fd (some (.socket k')), sender := sender }
  /-- The descriptor is not the client's. -/
  | strays (payload : Bytes) (fd : Nat) (hsender : c.sender = .write payload fd) :
    Moves c { c with sender := .shutdown fd }
  | senderUnlocks (result : Bool) (hsender : c.sender = .unlock result) :
    Moves c { c with sendMutex := none, sender := .idle }

/-- A step that leaves it alone. -/
theorem Moves.of_same {s s' : Threads} (htable : s'.table = s.table) (hfd : s'.fd = s.fd)
    (hmutex : s'.sendMutex = s.sendMutex) (hphase : s'.place.phase = s.place.phase)
    (hsender : s'.sender = s.sender) : Moves s.shared s'.shared := by
  have hsame : s'.shared = s.shared := by
    simp only [shared, htable, hfd, hmutex, hphase, hsender]
  rw [hsame]
  exact .stays

theorem moves_goto {s : Threads} {p : Place} (h : p.phase = s.place.phase) :
    Moves s.shared (s.goto p).shared :=
  .of_same rfl rfl rfl h rfl

end Shared

namespace Threads

open Shared

theorem moves_scan (fd : Nat) {s : Threads} (hp : s.place = .scan fd) :
    Moves s.shared (s.scanStep fd).shared := by
  have hphase : s.place.phase = .published fd := by rw [hp]; rfl
  unfold scanStep
  dsimp only
  split
  · exact .of_same rfl rfl rfl hphase.symm rfl
  · split
    · exact .of_same rfl rfl rfl hphase.symm rfl
    · split
      · exact .of_same rfl rfl rfl hphase.symm rfl
      · exact .of_same rfl rfl rfl rfl rfl

/-- A step of the client's thread. -/
theorem moves_net (a : Answer) (s : Threads) : Moves s.shared (s.netStep a).shared := by
  have hgoto : ∀ {p q : Place}, s.place = p → q.phase = p.phase →
      Moves s.shared (s.goto q).shared := by
    intro p q hp hq
    exact moves_goto (by rw [hp, hq])
  cases hp : s.place with
  | top =>
    simp only [netStep, hp]
    split <;> exact hgoto hp rfl
  | getaddrinfo =>
    simp only [netStep, hp]
    split <;> exact hgoto hp rfl
  | socket left =>
    cases left with
    | zero =>
      simp only [netStep, hp]
      exact hgoto hp rfl
    | succ left =>
      simp only [netStep, hp, socketStep]
      split
      · exact hgoto hp rfl
      next fd _ =>
        split
        next hnone => exact .opens fd (by rw [shared, hp]; rfl) hnone
        next => exact hgoto hp rfl
  | connect fd left =>
    simp only [netStep, hp]
    split <;> exact hgoto hp rfl
  | waiting fd left i =>
    simp only [netStep, hp]
    split <;> exact hgoto hp rfl
  | waitPoll fd left i =>
    simp only [netStep, hp]
    split <;> exact hgoto hp rfl
  | getsockopt fd left =>
    simp only [netStep, hp]
    split <;> exact hgoto hp rfl
  | refused fd left =>
    simp only [netStep, hp]
    exact .refused fd (by rw [shared, hp]; rfl)
  | getFlags fd | setFlags fd | noDelay fd =>
    simp only [netStep, hp]
    exact hgoto hp rfl
  | unreachable =>
    simp only [netStep, hp]
    exact .of_same rfl rfl rfl (by rw [hp]; rfl) rfl
  | retry i =>
    simp only [netStep, hp]
    split <;> exact hgoto hp rfl
  | connected fd | generation fd =>
    simp only [netStep, hp]
    exact .of_same rfl rfl rfl (by rw [hp]; rfl) rfl
  | publish fd =>
    simp only [netStep, hp]
    exact .publishes fd (by rw [shared, hp]; rfl)
  | reading fd =>
    simp only [netStep, hp]
    split <;> exact hgoto hp rfl
  | poll fd =>
    simp only [netStep, hp]
    split <;> exact hgoto hp rfl
  | recv fd =>
    simp only [netStep, hp]
    split
    · split
      · exact .of_same rfl rfl rfl (by rw [hp]; rfl) rfl
      · exact .stays
    · exact hgoto hp rfl
    · exact hgoto hp rfl
  | scan fd =>
    simp only [netStep, hp]
    exact moves_scan fd hp
  | lock fd =>
    simp only [netStep, hp]
    split
    next hmutex => exact .locks fd (by rw [shared, hp]; rfl) hmutex
    next => exact .stays
  | clear fd =>
    simp only [netStep, hp]
    exact .clears fd (by rw [shared, hp]; rfl)
  | close fd =>
    simp only [netStep, hp]
    exact .closes fd (by rw [shared, hp]; rfl)
  | unlock =>
    simp only [netStep, hp]
    exact .unlocks (by rw [shared, hp]; rfl)
  | closed =>
    simp only [netStep, hp]
    exact .of_same rfl rfl rfl (by rw [hp]; rfl) rfl
  | done =>
    simp only [netStep, hp]
    exact .stays

/-- A step of `send`. -/
theorem moves_send (o : SendResult) (s : Threads) : Moves s.shared (s.sendStep o).shared := by
  cases hs : s.sender with
  | idle =>
    simp only [sendStep, hs]
    exact .stays
  | lock payload =>
    simp only [sendStep, hs]
    split
    next hmutex => exact .senderLocks payload hs hmutex
    next => exact .stays
  | load payload =>
    simp only [sendStep, hs]
    split
    next => exact .decides false (by rw [shared, hs]; rfl)
    next fd hfd => exact .loads payload fd hs hfd
  | write payload fd =>
    simp only [sendStep, hs, writeStep]
    split
    next k hopen =>
      refine .writes fd k _ _ (by rw [shared, hs]; rfl) hopen ?_ ?_
      · split
        · rfl
        · split <;> rfl
      · intro fd' hfd'
        split at hfd'
        · cases hfd'
        · split at hfd'
          · cases hfd'
          · exact (Option.some.inj hfd').symm
    next => exact .strays payload fd hs
  | shutdown fd =>
    simp only [sendStep, hs]
    split
    next k hopen =>
      exact .writes fd k _ _ (by rw [shared, hs]; rfl) hopen rfl (fun fd' hfd' => by cases hfd')
    next => exact .decides false (by rw [shared, hs]; rfl)
  | unlock result =>
    simp only [sendStep, hs]
    exact .senderUnlocks result hs

/-- **What a step does to what the threads share.** -/
theorem moves_step {e : Event} (s : Threads) (he : ∀ fd, e ≠ .opens fd ∧ e ≠ .closes fd) :
    Moves s.shared (step e s).shared := by
  cases e with
  | net a => exact moves_net a s
  | call payload =>
    rw [step]
    split
    next hidle => exact .calls payload hidle
    next => exact .stays
  | send o => exact moves_send o s
  | drain =>
    rw [step]
    split
    · exact .of_same rfl rfl rfl rfl rfl
    · exact .stays
  | stop => exact .of_same rfl rfl rfl rfl rfl
  | opens fd => exact absurd rfl (he fd).1
  | closes fd => exact absurd rfl (he fd).2

end Threads

/-! ## What they keep -/

namespace Shared

open Threads

/-- What holds of it in every state. -/
structure Held (c : Shared) : Prop where
  /-- The client has one descriptor at a time. -/
  own : ∀ fd k, c.table fd = some (.socket k) → c.phase.descriptor = some fd
  opened : ∀ fd, c.phase.descriptor = some fd → ∃ k, c.table fd = some (.socket k)
  /-- Nothing is written before it is in `fd_`. -/
  fresh : ∀ fd, c.phase = .fresh fd → c.table fd = some (.socket {})
  fd : c.fd = c.phase.shown
  network : c.sendMutex = some .network ↔ c.phase.locks = true
  frame : c.sendMutex = some .frame ↔ c.sender.locks = true
  /-- What `send` has loaded stays in `fd_`. -/
  sender : ∀ fd, c.sender.descriptor = some fd → c.fd = some fd

theorem held_init (isOpen : Nat → Bool) : Held (init isOpen).shared where
  own := by
    intro fd k hk
    have hk : (if isOpen fd then some Descriptor.other else none) = some (.socket k) := hk
    split at hk <;> cases hk
  opened := fun fd h => by cases h
  fresh := fun fd h => by cases h
  fd := rfl
  network := by simp [shared, init, Place.phase, Phase.locks]
  frame := by simp [shared, init, Sender.locks]
  sender := fun fd h => by cases h

/-- While `send` uses a descriptor, the client's thread leaves it in `fd_`. -/
theorem Held.published {c : Shared} (h : Held c) {fd : Nat}
    (hfd : c.sender.descriptor = some fd) : c.phase = .published fd := by
  have hshown : c.phase.shown = some fd := by rw [← h.fd, h.sender fd hfd]
  have hframe := h.frame.mpr (Sender.locks_of_descriptor hfd)
  cases hphase : c.phase with
  | published fd' =>
    rw [hphase] at hshown
    cases hshown
    rfl
  | clearing fd' =>
    have hnetwork := h.network.mpr (by rw [hphase]; rfl)
    rw [hframe] at hnetwork
    cases hnetwork
  | free | fresh _ | closing _ | unlocking =>
    rw [hphase] at hshown
    cases hshown

/-- Where the client's thread shows no descriptor, `send` has none. -/
theorem Held.sender_none {c : Shared} (h : Held c) (hp : ∀ fd, c.phase ≠ .published fd) :
    ∀ fd, c.sender.descriptor ≠ some fd := fun fd hfd => hp fd (h.published hfd)

/-- A socket that is open in a table with one descriptor changed. -/
theorem socket_setTable {table : Nat → Option Descriptor} {fd fd' : Nat} {d : Option Descriptor}
    {k : Socket} (h : setTable table fd d fd' = some (.socket k)) :
    fd' = fd ∧ d = some (.socket k) ∨ fd' ≠ fd ∧ table fd' = some (.socket k) := by
  by_cases hfd : fd' = fd
  · subst hfd
    rw [setTable_same] at h
    exact Or.inl ⟨rfl, h⟩
  · rw [setTable_of_ne table d hfd] at h
    exact Or.inr ⟨hfd, h⟩

/-- A step of the client's thread that leaves the table alone. -/
theorem Held.network_step {c : Shared} (h : Held c) {fd : Option Nat} {mutex : Option Holder}
    {phase : Phase} (hdescriptor : phase.descriptor = c.phase.descriptor)
    (hfresh : ∀ fd, phase ≠ .fresh fd) (hfd : fd = phase.shown)
    (hnetwork : mutex = some .network ↔ phase.locks = true)
    (hframe : mutex = some .frame ↔ c.sender.locks = true)
    (hsender : ∀ fd', c.sender.descriptor = some fd' → fd = some fd') :
    Held { c with fd := fd, sendMutex := mutex, phase := phase } where
  own := fun fd' k hk => hdescriptor.trans (h.own fd' k hk)
  opened := fun fd' hfd' => h.opened fd' (hdescriptor.symm.trans hfd')
  fresh := fun fd' hfd' => absurd hfd' (hfresh fd')
  fd := hfd
  network := hnetwork
  frame := hframe
  sender := hsender

/-- A step of `send` that leaves the table alone. -/
theorem Held.sender_step {c : Shared} (h : Held c) {mutex : Option Holder} {sender : Sender}
    (hnetwork : mutex = some .network ↔ c.phase.locks = true)
    (hframe : mutex = some .frame ↔ sender.locks = true)
    (hsender : ∀ fd, sender.descriptor = some fd → c.fd = some fd) :
    Held { c with sendMutex := mutex, sender := sender } :=
  { h with network := hnetwork, frame := hframe, sender := hsender }

/-- Who does not have the mutex. -/
theorem Held.free_of_frame {c : Shared} (h : Held c) (hlocks : c.sender.locks = true) :
    c.phase.locks = false := by
  have hframe := h.frame.mpr hlocks
  by_contra hnot
  have hnetwork := h.network.mpr (by simpa using hnot)
  rw [hframe] at hnetwork
  cases hnetwork

theorem Held.free_of_network {c : Shared} (h : Held c) (hlocks : c.phase.locks = true) :
    c.sender.locks = false := by
  by_contra hnot
  have hfree := h.free_of_frame (by simpa using hnot)
  rw [hlocks] at hfree
  cases hfree

/-- A table in which the client's descriptor is closed. -/
theorem Held.close {c : Shared} (h : Held c) {fd : Nat} {phase : Phase}
    (hown : c.phase.descriptor = some fd) (hdescriptor : phase.descriptor = none)
    (hshown : c.phase.shown = none) (hshown' : phase.shown = none)
    (hlocks : phase.locks = c.phase.locks) :
    Held { c with table := setTable c.table fd none, phase := phase } where
  own := by
    intro fd' k hk
    rcases socket_setTable hk with ⟨-, hnone⟩ | ⟨hne, hold⟩
    · cases hnone
    · have hsame := h.own fd' k hold
      rw [hown] at hsame
      exact absurd (Option.some.inj hsame).symm hne
  opened := by
    intro fd' hfd'
    have hfd' : phase.descriptor = some fd' := hfd'
    rw [hdescriptor] at hfd'
    cases hfd'
  fresh := by
    intro fd' hfd'
    have hfd' : phase = .fresh fd' := hfd'
    rw [hfd'] at hdescriptor
    cases hdescriptor
  fd := by
    show c.fd = phase.shown
    rw [h.fd, hshown, hshown']
  network := by
    show c.sendMutex = some .network ↔ phase.locks = true
    rw [hlocks]
    exact h.network
  frame := h.frame
  sender := h.sender

/-- A table in which a descriptor of another part of the process is opened or closed. -/
theorem Held.others {c : Shared} (h : Held c) {fd : Nat} {d : Option Descriptor}
    (hold : ∀ k, c.table fd ≠ some (.socket k)) (hnew : ∀ k, d ≠ some (.socket k)) :
    Held { c with table := setTable c.table fd d } :=
  { h with
    own := by
      intro fd' k hk
      rcases socket_setTable hk with ⟨-, hd⟩ | ⟨-, hk⟩
      · exact absurd hd (hnew k)
      · exact h.own fd' k hk
    opened := by
      intro fd' hfd'
      obtain ⟨k, hk⟩ := h.opened fd' hfd'
      have hne : fd' ≠ fd := by
        rintro rfl
        exact hold k hk
      exact ⟨k, (setTable_of_ne _ _ hne).trans hk⟩
    fresh := by
      intro fd' hfd'
      have hk := h.fresh fd' hfd'
      have hne : fd' ≠ fd := by
        rintro rfl
        exact hold _ hk
      exact (setTable_of_ne _ _ hne).trans hk }

/-- **What holds of it is kept by every step.** -/
theorem Held.step {c c' : Shared} (h : Held c) (hm : Moves c c') : Held c' := by
  cases hm with
  | stays => exact h
  | opens fd hphase hnone =>
    exact {
      own := by
        intro fd' k hk
        rcases socket_setTable hk with ⟨rfl, -⟩ | ⟨-, hold⟩
        · rfl
        · have hown := h.own fd' k hold
          rw [hphase] at hown
          cases hown
      opened := by
        rintro fd' ⟨⟩
        exact ⟨{}, setTable_same _ _ _⟩
      fresh := by
        rintro fd' ⟨⟩
        exact setTable_same _ _ _
      fd := by
        have hfd := h.fd
        rw [hphase] at hfd
        exact hfd
      network := by
        have hnetwork := h.network
        rw [hphase] at hnetwork
        exact hnetwork
      frame := h.frame
      sender := h.sender }
  | refused fd hphase =>
    exact h.close (by rw [hphase]; rfl) rfl (by rw [hphase]; rfl) rfl (by rw [hphase]; rfl)
  | publishes fd hphase =>
    have hnone := h.sender_none (by simp [hphase])
    have hnetwork := h.network
    rw [hphase] at hnetwork
    exact h.network_step (by rw [hphase]; rfl) (by simp) rfl hnetwork h.frame
      fun fd' hfd' => absurd hfd' (hnone fd')
  | locks fd hphase hmutex =>
    have hidle : c.sender.locks = false := by
      by_contra hnot
      have hframe := h.frame.mpr (by simpa using hnot)
      rw [hmutex] at hframe
      cases hframe
    refine h.network_step (by rw [hphase]; rfl) (by simp) ?_ (by simp [Phase.locks])
      (by simp [hidle]) h.sender
    rw [h.fd, hphase]
    rfl
  | clears fd hphase =>
    have hnone := h.sender_none (by simp [hphase])
    have hnetwork := h.network
    rw [hphase] at hnetwork
    exact h.network_step (by rw [hphase]; rfl) (by simp) rfl hnetwork h.frame
      fun fd' hfd' => absurd hfd' (hnone fd')
  | closes fd hphase =>
    exact h.close (by rw [hphase]; rfl) rfl (by rw [hphase]; rfl) rfl (by rw [hphase]; rfl)
  | unlocks hphase =>
    have hidle := h.free_of_network (by rw [hphase]; rfl)
    refine h.network_step (by rw [hphase]; rfl) (by simp) ?_ (by simp [Phase.locks])
      (by simp [hidle]) h.sender
    rw [h.fd, hphase]
    rfl
  | calls payload hidle =>
    have hframe := h.frame
    rw [hidle] at hframe
    exact h.sender_step h.network hframe fun fd hfd => by cases hfd
  | senderLocks payload hsender hmutex =>
    have hfree : c.phase.locks = false := by
      by_contra hnot
      have hnetwork := h.network.mpr (by simpa using hnot)
      rw [hmutex] at hnetwork
      cases hnetwork
    exact h.sender_step (by simp [hfree]) (by simp [Sender.locks]) fun fd hfd => by cases hfd
  | decides result hlocks =>
    have hframe := h.frame.mpr hlocks
    exact h.sender_step h.network (by simp [hframe, Sender.locks]) fun fd hfd => by cases hfd
  | loads payload fd hsender hfd =>
    have hframe := h.frame.mpr (by rw [hsender]; rfl)
    refine h.sender_step h.network (by simp [hframe, Sender.locks]) ?_
    rintro fd' ⟨⟩
    exact hfd
  | writes fd k k' sender hsender hopen hlocks hkeeps =>
    have hpublished := h.published hsender
    have hframe := h.frame.mpr (Sender.locks_of_descriptor hsender)
    exact {
      own := by
        intro fd' k'' hk
        rcases socket_setTable hk with ⟨rfl, -⟩ | ⟨-, hold⟩
        · exact h.own fd' k hopen
        · exact h.own fd' k'' hold
      opened := by
        intro fd' hfd'
        by_cases hsame : fd' = fd
        · subst hsame
          exact ⟨k', setTable_same _ _ _⟩
        · obtain ⟨k'', hk⟩ := h.opened fd' hfd'
          exact ⟨k'', (setTable_of_ne _ _ hsame).trans hk⟩
      fresh := by
        intro fd' hfd'
        have hfd' : c.phase = .fresh fd' := hfd'
        rw [hpublished] at hfd'
        cases hfd'
      fd := h.fd
      network := h.network
      frame := by simp [hframe, hlocks]
      sender := by
        intro fd' hfd'
        rw [hkeeps fd' hfd']
        exact h.sender fd hsender }
  | strays payload fd hsender =>
    have hframe := h.frame.mpr (by rw [hsender]; rfl)
    refine h.sender_step h.network (by simp [hframe, Sender.locks]) ?_
    rintro fd' ⟨⟩
    exact h.sender fd (by rw [hsender]; rfl)
  | senderUnlocks result hsender =>
    have hfree := h.free_of_frame (by rw [hsender]; rfl)
    exact h.sender_step (by simp [hfree]) (by simp [Sender.locks]) fun fd hfd => by cases hfd

/-- A step changes no descriptor of another part of the process. -/
theorem Held.other {c c' : Shared} (h : Held c) (hm : Moves c c') {fd : Nat}
    (hother : c.table fd = some .other) : c'.table fd = some .other := by
  have hopen : ∀ {fd' : Nat} {d : Option Descriptor} {k : Socket},
      c.table fd' = some (.socket k) → setTable c.table fd' d fd = some .other := by
    intro fd' d k hk
    have hne : fd ≠ fd' := by
      rintro rfl
      rw [hk] at hother
      cases hother
    exact (setTable_of_ne _ _ hne).trans hother
  cases hm with
  | opens fd' hphase hnone =>
    have hne : fd ≠ fd' := by
      rintro rfl
      rw [hnone] at hother
      cases hother
    exact (setTable_of_ne _ _ hne).trans hother
  | refused fd' hphase | closes fd' hphase =>
    obtain ⟨k, hk⟩ := h.opened fd' (by rw [hphase]; rfl)
    exact hopen hk
  | writes fd' k k' sender hsender hk => exact hopen hk
  | _ => exact hother

end Shared

namespace Threads

open Shared

theorem held_step (e : Event) (s : Threads) (h : Held s.shared) : Held (step e s).shared := by
  cases e with
  | opens fd =>
    rw [step]
    split
    next hnone => exact h.others (by simp [shared, hnone]) (by simp)
    next => exact h
  | closes fd =>
    rw [step]
    split
    next hother => exact h.others (by simp [shared, hother]) (by simp)
    next => exact h
  | net _ | call _ | send _ | drain | stop =>
    exact h.step (moves_step s (by simp))

/-! ## Every system call -/

/-- The descriptor of the system call that a step makes. -/
def uses : Event → Threads → Option Nat
  | .net _, s =>
    match s.place with
    | .connect fd _ | .waitPoll fd _ _ | .getsockopt fd _ | .refused fd _ | .getFlags fd
    | .setFlags fd | .noDelay fd | .poll fd | .recv fd | .close fd => some fd
    | _ => none
  | .send _, s =>
    match s.sender with
    | .write _ fd | .shutdown fd => some fd
    | _ => none
  | _, _ => none

/-- The descriptors are used as they should be. -/
structure Safe (s : Threads) : Prop where
  /-- A system call is made on an open socket of the client: not on a number that was closed, and
  not on one that was given out again. -/
  uses : ∀ e fd, uses e s = some fd → ∃ k, s.table fd = some (.socket k)
  /-- No second one is open, -/
  single : ∀ fd fd' k k', s.table fd = some (.socket k) → s.table fd' = some (.socket k') → fd = fd'
  /-- and none between two connections or after `run` has returned. -/
  closed : s.place.phase = .free → ∀ fd k, s.table fd ≠ some (.socket k)
  others : ∀ e fd, s.table fd = some .other → e ≠ .closes fd → (step e s).table fd = some .other

theorem descriptor_of_uses_net {a : Answer} {s : Threads} {fd : Nat}
    (h : uses (.net a) s = some fd) : s.place.phase.descriptor = some fd := by
  rw [uses] at h
  cases hp : s.place with
  | connect _ _ | waitPoll _ _ _ | getsockopt _ _ | refused _ _ | getFlags _ | setFlags _
  | noDelay _ | poll _ | recv _ | close _ =>
    rw [hp] at h
    exact h
  | _ =>
    rw [hp] at h
    cases h

theorem descriptor_of_uses_send {o : SendResult} {s : Threads} {fd : Nat}
    (h : uses (.send o) s = some fd) : s.sender.descriptor = some fd := by
  rw [uses] at h
  cases hs : s.sender with
  | write _ _ | shutdown _ =>
    rw [hs] at h
    exact h
  | _ =>
    rw [hs] at h
    cases h

theorem safe_of_held {s : Threads} (h : Held s.shared) : Safe s where
  uses := by
    intro e fd huses
    cases e with
    | net a => exact h.opened fd (descriptor_of_uses_net huses)
    | send o =>
      have hpublished : s.place.phase = .published fd :=
        h.published (descriptor_of_uses_send huses)
      exact h.opened fd (congrArg Phase.descriptor hpublished)
    | _ => cases huses
  single := by
    intro fd fd' k k' hk hk'
    exact Option.some.inj ((h.own fd k hk).symm.trans (h.own fd' k' hk'))
  closed := by
    intro hfree fd k hk
    have hown : s.place.phase.descriptor = some fd := h.own fd k hk
    rw [hfree] at hown
    cases hown
  others := by
    intro e fd hother he
    cases e with
    | opens fd' =>
      rw [step]
      split
      next hnone =>
        have hne : fd ≠ fd' := by
          rintro rfl
          rw [hnone] at hother
          cases hother
        exact (setTable_of_ne _ _ hne).trans hother
      next => exact hother
    | closes fd' =>
      rw [step]
      split
      next =>
        have hne : fd ≠ fd' := by
          rintro rfl
          exact he rfl
        exact (setTable_of_ne _ _ hne).trans hother
      next => exact hother
    | stop => exact hother
    | net _ | call _ | send _ | drain => exact h.other (moves_step s (by simp)) hother

/-- **The client uses, changes and closes its own descriptors only, each until it closes it, and
leaves none open**, in every run of both threads and of the rest of the process. -/
theorem descriptors_safe (isOpen : Nat → Bool) (es : List Event) :
    Safe (run step es (init isOpen)) :=
  safe_of_held (run_invariant held_step es (held_init isOpen))

end Threads

end Rebocap.Net
