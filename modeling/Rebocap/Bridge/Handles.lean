import Rebocap.Lib.Run
import Rebocap.Bridge.Session

/-!
# Whose handles the two threads use

Both threads use the socket and the pipe, and the buffers of their operations are on their stacks:
the main thread must not close a handle, or begin with the next driver, before the other thread has
returned and what was pending is over.

* `moves_step` — what a step does to what the threads share
* `handles_open` — the handles are used while they are open, and the session is ended once
-/

namespace Rebocap.Bridge

open Lib

/-! ## What the threads share -/

/-- How far the main thread is with a session. -/
inductive MainPhase where
  /-- There is none. -/
  | closed
  /-- It opens the pipe. -/
  | opening
  | opened
  /-- It relays. -/
  | relaying
  /-- A write is pending. -/
  | writing
  | shutting
  | cancelling
  /-- It waits for the other thread. -/
  | joining
  | joined
  | closingPipe
  | closingSock
deriving DecidableEq

def Main.phase : Main → MainPhase
  | .accept => .closed
  | .createFile | .waitNamedPipe | .select | .peek | .sleep => .opening
  | .setMode | .createThread => .opened
  | .top | .recvHead _ | .recvBody _ _ | .writeFile _ | .exchange => .relaying
  | .writeResult _ => .writing
  | .shutdown => .shutting
  | .cancel => .cancelling
  | .wait | .cancelAgain => .joining
  | .closeThread => .joined
  | .closePipe => .closingPipe
  | .closeSock => .closingSock

inductive ReaderPhase where
  | running
  /-- A read is pending. -/
  | reading
  | shutting
  | cancelling
  | done
deriving DecidableEq

def Reader.phase : Reader → ReaderPhase
  | .top | .readFile | .send _ | .exchange => .running
  | .readResult => .reading
  | .shutdown => .shutting
  | .cancel => .cancelling
  | .done => .done

def MainPhase.hasSock : MainPhase → Bool
  | .closed => false
  | _ => true

def MainPhase.hasPipe : MainPhase → Bool
  | .closed | .opening | .closingSock => false
  | _ => true

/-- The handle of the other thread is open, if there is one. -/
def MainPhase.hasThread : MainPhase → Bool
  | .relaying | .writing | .shutting | .cancelling | .joining | .joined => true
  | _ => false

/-- The other thread may run. -/
def MainPhase.relays : MainPhase → Bool
  | .relaying | .writing | .shutting | .cancelling | .joining => true
  | _ => false

/-- It has seen that the session ends. -/
def MainPhase.ends : MainPhase → Bool
  | .shutting | .cancelling | .joining | .joined => true
  | _ => false

def ReaderPhase.ends : ReaderPhase → Bool
  | .shutting | .cancelling | .done => true
  | .running | .reading => false

/-- It is about to call `shutdown`. -/
def MainPhase.shuts : MainPhase → Nat
  | .shutting => 1
  | _ => 0

def ReaderPhase.shuts : ReaderPhase → Nat
  | .shutting => 1
  | _ => 0

structure Control where
  main : MainPhase
  reader : ReaderPhase
  closing : Bool
  sock : Bool
  pipe : Bool
  thread : Bool
  noThread : Bool
  shut : Bool
  readIo : Io
  writeIo : Io

def Process.control (s : Process) : Control where
  main := s.main.phase
  reader := s.reader.phase
  closing := s.closing
  sock := s.sock
  pipe := s.pipe
  thread := s.thread
  noThread := s.noThread
  shut := s.shut
  readIo := s.readIo
  writeIo := s.writeIo

namespace Control

/-- What a step does to it. -/
inductive Moves (c : Control) : Control → Prop where
  | stays : Moves c c
  | accepts (hmain : c.main = .closed) :
    Moves c { c with main := .opening, closing := false, sock := true, shut := false }
  | opens (hmain : c.main = .opening) : Moves c { c with main := .opened, pipe := true }
  /-- The driver is gone before the pipe could be opened. -/
  | abandons (hmain : c.main = .opening) : Moves c { c with main := .closingSock }
  | starts (hmain : c.main = .opened) :
    Moves c { c with main := .relaying, thread := true, noThread := false, reader := .running }
  /-- `CreateThread` fails. -/
  | startsAlone (hmain : c.main = .opened) :
    Moves c { c with main := .relaying, noThread := true }
  | writes (hmain : c.main = .relaying) :
    Moves c { c with main := .writing, writeIo := .pending }
  | written (hmain : c.main = .writing) :
    Moves c { c with main := .relaying, writeIo := .idle }
  | ends (hmain : c.main = .relaying) (hclosing : c.closing = false) :
    Moves c { c with main := .shutting, closing := true }
  /-- The other thread has ended the session. -/
  | follows (hmain : c.main = .relaying) (hclosing : c.closing = true) :
    Moves c { c with main := .joining }
  | shuts (hmain : c.main = .shutting) : Moves c { c with main := .cancelling, shut := true }
  | cancels (hmain : c.main = .cancelling ∨ c.main = .joining) :
    Moves c { c with main := .joining, readIo := c.readIo.cancel, writeIo := c.writeIo.cancel }
  | joins (hmain : c.main = .joining) (hdone : c.thread = true → c.reader = .done) :
    Moves c { c with main := .joined }
  | closesThread (hmain : c.main = .joined) :
    Moves c { c with main := .closingPipe, thread := false }
  | closesPipe (hmain : c.main = .closingPipe) :
    Moves c { c with main := .closingSock, pipe := false }
  | closesSock (hmain : c.main = .closingSock) : Moves c { c with main := .closed, sock := false }
  | reads (hreader : c.reader = .running) :
    Moves c { c with reader := .reading, readIo := .pending }
  | hasRead (hreader : c.reader = .reading) :
    Moves c { c with reader := .running, readIo := .idle }
  | readerEnds (hreader : c.reader = .running) (hclosing : c.closing = false) :
    Moves c { c with reader := .shutting, closing := true }
  | readerFollows (hreader : c.reader = .running) (hclosing : c.closing = true) :
    Moves c { c with reader := .done }
  | readerShuts (hreader : c.reader = .shutting) :
    Moves c { c with reader := .cancelling, shut := true }
  | readerCancels (hreader : c.reader = .cancelling) :
    Moves c { c with
      reader := .done, readIo := c.readIo.cancel, writeIo := c.writeIo.cancel }

theorem moves_gotoMain {s : Process} {p : Main} (h : p.phase = s.main.phase) :
    Moves s.control (s.gotoMain p).control := by
  have hsame : (s.gotoMain p).control = s.control := by
    simp only [Process.control, Process.gotoMain, h]
  rw [hsame]
  exact .stays

theorem moves_gotoReader {s : Process} {p : Reader} (h : p.phase = s.reader.phase) :
    Moves s.control (s.gotoReader p).control := by
  have hsame : (s.gotoReader p).control = s.control := by
    simp only [Process.control, Process.gotoReader, h]
  rw [hsame]
  exact .stays

end Control

theorem eq_done_of_phase {p : Reader} (h : p.phase = .done) : p = .done := by
  cases p with
  | done => rfl
  | _ => cases h

theorem eq_readResult_of_phase {p : Reader} (h : p.phase = .reading) : p = .readResult := by
  cases p with
  | readResult => rfl
  | _ => cases h

theorem eq_writeResult_of_phase {p : Main} (h : p.phase = .writing) :
    ∃ buf, p = .writeResult buf := by
  cases p with
  | writeResult buf => exact ⟨buf, rfl⟩
  | _ => cases h

namespace Process

open Control

theorem phase_bodyPlace (head got : Bytes) : (bodyPlace head got).phase = .relaying := by
  unfold bodyPlace
  split <;> rfl

theorem phase_headPlace (got : Bytes) : (headPlace got).phase = .relaying := by
  unfold headPlace
  split
  · rfl
  · split
    · rfl
    · exact phase_bodyPlace got []

/-- A step of the main thread. -/
theorem moves_main (a : MainAnswer) (s : Process) : Moves s.control (s.mainStep a).control := by
  have hgoto : ∀ {p q : Main}, s.main = p → q.phase = p.phase →
      Moves s.control (s.gotoMain q).control := by
    intro p q hp hq
    exact moves_gotoMain (by rw [hp, hq])
  have hphase : ∀ {p : Main}, s.main = p → s.control.main = p.phase := fun hp => by
    rw [← hp]
    rfl
  cases hp : s.main with
  | accept =>
    simp only [mainStep, hp]
    split
    · exact .accepts (hphase hp)
    · exact .stays
  | createFile =>
    simp only [mainStep, hp]
    split
    · exact .opens (hphase hp)
    · exact hgoto hp rfl
    · exact hgoto hp rfl
  | setMode | waitNamedPipe | sleep =>
    simp only [mainStep, hp]
    exact hgoto hp rfl
  | select =>
    simp only [mainStep, hp]
    split <;> exact hgoto hp rfl
  | peek =>
    simp only [mainStep, hp]
    split
    · exact hgoto hp rfl
    · exact .abandons (hphase hp)
  | createThread =>
    simp only [mainStep, hp]
    split
    · exact .starts (hphase hp)
    · exact .startsAlone (hphase hp)
  | top =>
    simp only [mainStep, hp]
    split <;> exact hgoto hp rfl
  | recvHead got =>
    simp only [mainStep, hp]
    split
    · exact .stays
    · exact hgoto hp rfl
    · exact hgoto hp (phase_headPlace _)
  | recvBody head got =>
    simp only [mainStep, hp]
    split
    · exact .stays
    · exact hgoto hp rfl
    · exact hgoto hp (phase_bodyPlace _ _)
  | writeFile buf =>
    simp only [mainStep, hp]
    split
    · exact .writes (hphase hp)
    · exact hgoto hp rfl
  | writeResult buf =>
    simp only [mainStep, hp]
    split
    · exact .stays
    · exact .written (hphase hp)
    · split <;> exact .written (hphase hp)
  | exchange =>
    simp only [mainStep, hp]
    split
    next hclosing => exact .follows (hphase hp) hclosing
    next hclosing => exact .ends (hphase hp) (eq_false_of_ne_true hclosing)
  | shutdown =>
    simp only [mainStep, hp]
    exact .shuts (hphase hp)
  | cancel =>
    simp only [mainStep, hp]
    exact .cancels (Or.inl (hphase hp))
  | wait =>
    simp only [mainStep, hp]
    split
    · exact hgoto hp rfl
    next hwait =>
      refine .joins (hphase hp) fun hthread => ?_
      have hdone : s.reader = .done := by
        by_contra hne
        exact hwait ⟨hthread, hne⟩
      exact congrArg Reader.phase hdone
  | cancelAgain =>
    simp only [mainStep, hp]
    exact .cancels (Or.inr (hphase hp))
  | closeThread =>
    simp only [mainStep, hp]
    exact .closesThread (hphase hp)
  | closePipe =>
    simp only [mainStep, hp]
    exact .closesPipe (hphase hp)
  | closeSock =>
    simp only [mainStep, hp]
    exact .closesSock (hphase hp)

/-- A step of the other thread. -/
theorem moves_reader (a : ReaderAnswer) (s : Process) :
    Moves s.control (s.readerStep a).control := by
  have hgoto : ∀ {p q : Reader}, s.reader = p → q.phase = p.phase →
      Moves s.control (s.gotoReader q).control := by
    intro p q hp hq
    exact moves_gotoReader (by rw [hp, hq])
  have hphase : ∀ {p : Reader}, s.reader = p → s.control.reader = p.phase := fun hp => by
    rw [← hp]
    rfl
  cases hp : s.reader with
  | top =>
    simp only [readerStep, hp]
    split <;> exact hgoto hp rfl
  | readFile =>
    simp only [readerStep, hp]
    split
    · exact .reads (hphase hp)
    · exact hgoto hp rfl
  | readResult =>
    simp only [readerStep, hp]
    split
    · exact .stays
    · exact .hasRead (hphase hp)
    · split
      · exact .hasRead (hphase hp)
      · split <;> exact .hasRead (hphase hp)
  | send message =>
    simp only [readerStep, hp]
    split
    · split
      · exact hgoto hp rfl
      · exact .stays
    · split <;> exact hgoto hp rfl
  | exchange =>
    simp only [readerStep, hp]
    split
    next hclosing => exact .readerFollows (hphase hp) hclosing
    next hclosing => exact .readerEnds (hphase hp) (eq_false_of_ne_true hclosing)
  | shutdown =>
    simp only [readerStep, hp]
    exact .readerShuts (hphase hp)
  | cancel =>
    simp only [readerStep, hp]
    exact .readerCancels (hphase hp)
  | done =>
    simp only [readerStep, hp]
    exact .stays

theorem moves_step (e : Event) (s : Process) : Moves s.control (step e s).control := by
  cases e with
  | main a => exact moves_main a s
  | reader a => exact moves_reader a s

end Process

namespace Control

/-! ## What is open -/

structure Handles (c : Control) : Prop where
  sock : c.sock = c.main.hasSock
  pipe : c.pipe = c.main.hasPipe
  thread : c.thread = (c.main.hasThread && !c.noThread)
  /-- The other thread runs only while the main thread is in the session. -/
  reader : c.reader ≠ .done → c.thread = true ∧ c.main.relays = true

/-- Where the main thread does not relay there is no other thread. -/
theorem Handles.reader_done {c : Control} (h : Handles c) (hmain : c.main.relays = false) :
    c.reader = .done := by
  by_contra hne
  have hrelays := (h.reader hne).2
  rw [hmain] at hrelays
  cases hrelays

/-- A step of the main thread where there is no other one. -/
theorem Handles.alone {c c' : Control} (h : Handles c) (hmain : c.main.relays = false)
    (hreader : c'.reader = c.reader) (hsock : c'.sock = c'.main.hasSock)
    (hpipe : c'.pipe = c'.main.hasPipe)
    (hthread : c'.thread = (c'.main.hasThread && !c'.noThread)) : Handles c' where
  sock := hsock
  pipe := hpipe
  thread := hthread
  reader := fun hne => absurd (hreader.trans (h.reader_done hmain)) hne

/-- While it relays all handles are open. -/
theorem of_relays {p : MainPhase} (h : p.relays = true) :
    p.hasSock = true ∧ p.hasPipe = true ∧ p.hasThread = true := by
  cases p with
  | relaying | writing | shutting | cancelling | joining => exact ⟨rfl, rfl, rfl⟩
  | _ => cases h

/-- A step of the main thread while it relays. -/
theorem Handles.relay {c c' : Control} (h : Handles c) (hsock : c'.sock = c.sock)
    (hpipe : c'.pipe = c.pipe) (hthread : c'.thread = c.thread)
    (hno : c'.noThread = c.noThread) (hreader : c'.reader = c.reader)
    (hmain : c.main.relays = true) (hmain' : c'.main.relays = true) : Handles c' := by
  obtain ⟨hs, hp, ht⟩ := of_relays hmain
  obtain ⟨hs', hp', ht'⟩ := of_relays hmain'
  exact {
    sock := by rw [hsock, h.sock, hs, hs']
    pipe := by rw [hpipe, h.pipe, hp, hp']
    thread := by rw [hthread, hno, h.thread, ht, ht']
    reader := by
      rw [hreader, hthread]
      exact fun hne => ⟨(h.reader hne).1, hmain'⟩ }

/-- A step of the other thread. -/
theorem Handles.other {c c' : Control} (h : Handles c) (hmain : c'.main = c.main)
    (hsock : c'.sock = c.sock) (hpipe : c'.pipe = c.pipe) (hthread : c'.thread = c.thread)
    (hno : c'.noThread = c.noThread) (hne : c.reader ≠ .done) : Handles c' where
  sock := by rw [hsock, hmain, h.sock]
  pipe := by rw [hpipe, hmain, h.pipe]
  thread := by rw [hthread, hmain, hno, h.thread]
  reader := by
    rw [hthread, hmain]
    exact fun _ => h.reader hne

theorem Handles.step {c c' : Control} (h : Handles c) (hm : Moves c c') : Handles c' := by
  have hthread := h.thread
  have hsock := h.sock
  have hpipe := h.pipe
  cases hm with
  | stays => exact h
  | accepts hmain | closesSock hmain =>
    rw [hmain] at hthread hpipe
    exact h.alone (by rw [hmain]; rfl) rfl rfl hpipe hthread
  | opens hmain | closesPipe hmain =>
    rw [hmain] at hthread hsock
    exact h.alone (by rw [hmain]; rfl) rfl hsock rfl hthread
  | abandons hmain =>
    rw [hmain] at hthread hsock hpipe
    exact h.alone (by rw [hmain]; rfl) rfl hsock hpipe hthread
  | startsAlone hmain =>
    rw [hmain] at hthread hsock hpipe
    exact h.alone (by rw [hmain]; rfl) rfl hsock hpipe hthread
  | closesThread hmain =>
    rw [hmain] at hsock hpipe
    exact h.alone (by rw [hmain]; rfl) rfl hsock hpipe rfl
  | starts hmain =>
    rw [hmain] at hsock hpipe
    exact ⟨hsock, hpipe, rfl, fun _ => ⟨rfl, rfl⟩⟩
  | joins hmain hdone =>
    rw [hmain] at hthread hsock hpipe
    exact ⟨hsock, hpipe, hthread, fun hne => absurd (hdone (h.reader hne).1) hne⟩
  | writes hmain | written hmain | shuts hmain =>
    exact h.relay rfl rfl rfl rfl rfl (by rw [hmain]; rfl) rfl
  | ends hmain _ | follows hmain _ =>
    exact h.relay rfl rfl rfl rfl rfl (by rw [hmain]; rfl) rfl
  | cancels hmain =>
    exact h.relay rfl rfl rfl rfl rfl
      (by rcases hmain with hmain | hmain <;> rw [hmain] <;> rfl) rfl
  | reads hreader | hasRead hreader | readerShuts hreader | readerCancels hreader =>
    exact h.other rfl rfl rfl rfl rfl (by simp [hreader])
  | readerEnds hreader _ | readerFollows hreader _ =>
    exact h.other rfl rfl rfl rfl rfl (by simp [hreader])

/-! ## What is pending -/

structure Overlapped (c : Control) : Prop where
  read : c.readIo ≠ .idle ↔ c.reader = .reading
  write : c.writeIo ≠ .idle ↔ c.main = .writing

theorem cancel_ne_idle (io : Io) : io.cancel ≠ .idle ↔ io ≠ .idle := by
  cases io <;> simp [Io.cancel]

theorem Overlapped.step {c c' : Control} (hh : Handles c) (h : Overlapped c) (hm : Moves c c') :
    Overlapped c' := by
  have hread := h.read
  have hwrite := h.write
  cases hm with
  | stays => exact h
  | accepts hmain | opens hmain | abandons hmain | startsAlone hmain | closesThread hmain
  | closesPipe hmain | closesSock hmain | shuts hmain =>
    rw [hmain] at hwrite
    exact ⟨hread, by simpa using hwrite⟩
  | starts hmain =>
    rw [hmain] at hwrite
    rw [hh.reader_done (by rw [hmain]; rfl)] at hread
    exact ⟨by simpa using hread, by simpa using hwrite⟩
  | joins hmain hdone =>
    rw [hmain] at hwrite
    exact ⟨hread, by simpa using hwrite⟩
  | ends hmain _ | follows hmain _ =>
    rw [hmain] at hwrite
    exact ⟨hread, by simpa using hwrite⟩
  | writes hmain => exact ⟨hread, by simp⟩
  | written hmain => exact ⟨hread, by simp⟩
  | cancels hmain =>
    refine ⟨(cancel_ne_idle _).trans hread, (cancel_ne_idle _).trans (hwrite.trans ?_)⟩
    rcases hmain with hmain | hmain <;> simp [hmain]
  | reads hreader => exact ⟨by simp, hwrite⟩
  | hasRead hreader => exact ⟨by simp, hwrite⟩
  | readerShuts hreader =>
    rw [hreader] at hread
    exact ⟨by simpa using hread, hwrite⟩
  | readerEnds hreader _ | readerFollows hreader _ =>
    rw [hreader] at hread
    exact ⟨by simpa using hread, hwrite⟩
  | readerCancels hreader =>
    rw [hreader] at hread
    exact ⟨(cancel_ne_idle _).trans (by simpa using hread), (cancel_ne_idle _).trans hwrite⟩

/-! ## Who ends the session -/

structure Ended (c : Control) : Prop where
  /-- Whoever sets `closing` calls `shutdown`, and nobody else. -/
  once : c.main.shuts + c.reader.shuts + c.shut.toNat = c.closing.toNat
  main : c.main.ends = true → c.closing = true
  reader : c.thread = true → c.reader.ends = true → c.closing = true
  before : c.main = .opening ∨ c.main = .opened → c.closing = false

theorem Ended.step {c c' : Control} (hh : Handles c) (h : Ended c) (hm : Moves c c') :
    Ended c' := by
  have honce := h.once
  have hmainEnds := h.main
  have hreaderEnds := h.reader
  have hrunning : c.reader ≠ .done → ¬(c.main = .opening ∨ c.main = .opened) := by
    intro hne hmain
    have hrelays := (hh.reader hne).2
    rcases hmain with hmain | hmain
    all_goals
      rw [hmain] at hrelays
      cases hrelays
  cases hm with
  | stays => exact h
  | accepts hmain =>
    have hdone := hh.reader_done (by rw [hmain]; rfl)
    have hthread : c.thread = false := hh.thread.trans (by rw [hmain]; rfl)
    refine ⟨?_, fun h => (by cases h), fun hopen => ?_, fun _ => rfl⟩
    · simp [hdone, MainPhase.shuts, ReaderPhase.shuts]
    · have hopen : c.thread = true := hopen
      rw [hthread] at hopen
      cases hopen
  | opens hmain =>
    rw [hmain] at honce
    exact ⟨honce, fun h => (by cases h), hreaderEnds, fun _ => h.before (Or.inl hmain)⟩
  | abandons hmain | startsAlone hmain | writes hmain | written hmain
  | closesPipe hmain | closesSock hmain =>
    rw [hmain] at honce
    exact ⟨honce, fun h => (by cases h), hreaderEnds, by simp⟩
  | starts hmain =>
    rw [hmain, hh.reader_done (by rw [hmain]; rfl)] at honce
    exact ⟨honce, fun h => (by cases h), fun _ h => (by cases h), by simp⟩
  | closesThread hmain =>
    rw [hmain] at honce
    exact ⟨honce, fun h => (by cases h), fun hopen => (by cases hopen), by simp⟩
  | joins hmain hdone =>
    rw [hmain] at honce hmainEnds
    exact ⟨honce, hmainEnds, hreaderEnds, by simp⟩
  | ends hmain hclosing =>
    rw [hmain, hclosing] at honce
    have honce : 0 + c.reader.shuts + c.shut.toNat = 0 := honce
    refine ⟨?_, fun _ => rfl, fun _ _ => rfl, by simp⟩
    show 1 + c.reader.shuts + c.shut.toNat = 1
    omega
  | follows hmain hclosing =>
    rw [hmain] at honce
    exact ⟨honce, fun _ => hclosing, hreaderEnds, by simp⟩
  | shuts hmain =>
    rw [hmain] at honce hmainEnds
    have hclosing : c.closing = true := hmainEnds rfl
    rw [hclosing] at honce
    have honce : 1 + c.reader.shuts + c.shut.toNat = 1 := honce
    refine ⟨?_, hmainEnds, hreaderEnds, by simp⟩
    show 0 + c.reader.shuts + 1 = c.closing.toNat
    rw [hclosing, Bool.toNat_true]
    omega
  | cancels hmain =>
    rcases hmain with hmain | hmain
    · rw [hmain] at honce hmainEnds
      exact ⟨honce, hmainEnds, hreaderEnds, by simp⟩
    · rw [hmain] at honce hmainEnds
      exact ⟨honce, hmainEnds, hreaderEnds, by simp⟩
  | reads hreader | hasRead hreader =>
    rw [hreader] at honce
    exact ⟨honce, hmainEnds, fun _ h => (by cases h), h.before⟩
  | readerEnds hreader hclosing =>
    rw [hreader, hclosing] at honce
    have honce : c.main.shuts + 0 + c.shut.toNat = 0 := honce
    refine ⟨?_, fun _ => rfl, fun _ _ => rfl,
      fun hmain => absurd hmain (hrunning (by simp [hreader]))⟩
    show c.main.shuts + 1 + c.shut.toNat = 1
    omega
  | readerFollows hreader hclosing =>
    rw [hreader] at honce
    exact ⟨honce, hmainEnds, fun _ _ => hclosing, h.before⟩
  | readerShuts hreader =>
    rw [hreader] at honce hreaderEnds
    have hclosing : c.closing = true :=
      hreaderEnds (hh.reader (by simp [hreader])).1 rfl
    rw [hclosing] at honce
    have honce : c.main.shuts + 1 + c.shut.toNat = 1 := honce
    refine ⟨?_, hmainEnds, hreaderEnds, h.before⟩
    show c.main.shuts + 0 + 1 = c.closing.toNat
    rw [hclosing, Bool.toNat_true]
    omega
  | readerCancels hreader =>
    rw [hreader] at honce hreaderEnds
    exact ⟨honce, hmainEnds, hreaderEnds, h.before⟩

structure Held (c : Control) : Prop where
  handles : Handles c
  overlapped : Overlapped c
  ended : Ended c

/-- **What holds of it is kept by every step.** -/
theorem Held.step {c c' : Control} (h : Held c) (hm : Moves c c') : Held c' where
  handles := h.handles.step hm
  overlapped := h.overlapped.step h.handles hm
  ended := h.ended.step h.handles hm

end Control

namespace Process

open Control

theorem held_init : Held ({} : Process).control where
  handles := ⟨rfl, rfl, rfl, fun h => absurd rfl h⟩
  overlapped := ⟨by decide, by decide⟩
  ended := ⟨rfl, fun h => (by cases h), fun h => (by cases h), by decide⟩

theorem held_step (e : Event) (s : Process) (h : Held s.control) : Held (step e s).control :=
  h.step (moves_step e s)

/-! ## Every call -/

inductive Handle where
  | sock
  | pipe
  | thread
deriving DecidableEq

def isOpen (s : Process) : Handle → Bool
  | .sock => s.sock
  | .pipe => s.pipe
  | .thread => s.thread

/-- The handle that the next call of a step is made on. -/
def uses : Event → Process → Option Handle
  | .main _, s =>
    match s.main with
    | .select | .peek | .recvHead _ | .recvBody _ _ | .shutdown | .closeSock => some .sock
    | .setMode | .writeFile _ | .writeResult _ | .cancel | .cancelAgain | .closePipe => some .pipe
    | .wait | .closeThread => some .thread
    | .accept | .createFile | .waitNamedPipe | .sleep | .createThread | .top | .exchange => none
  | .reader _, s =>
    match s.reader with
    | .send _ | .shutdown => some .sock
    | .readFile | .readResult | .cancel => some .pipe
    | .top | .exchange | .done => none

structure Safe (s : Process) : Prop where
  /-- A call is made on a handle that is open, but for the two calls on NULL where `CreateThread`
  has failed. -/
  uses : ∀ e h, uses e s = some h → (s.isOpen h = true ↔ ¬(h = .thread ∧ s.noThread = true))
  /-- While the other thread runs the main thread does not touch what it uses: it is in the
  session for which it has started it. -/
  stack : s.reader ≠ .done → s.main.phase.relays = true
  /-- No operation is pending on a buffer of a `pipe_io` that has returned. -/
  read : s.readIo ≠ .idle → s.reader = .readResult
  write : s.writeIo ≠ .idle → ∃ buf, s.main = .writeResult buf
  /-- In a session `shutdown` is called once at most: not again, and not by both. -/
  once : s.main = .shutdown ∨ s.reader = .shutdown → s.shut = false
  single : ¬(s.main = .shutdown ∧ s.reader = .shutdown)
  /-- A thread that was started is waited for, and nothing is left open for the next driver. -/
  closed : s.main = .accept → s.sock = false ∧ s.pipe = false ∧ s.thread = false ∧
    s.reader = .done ∧ s.readIo = .idle ∧ s.writeIo = .idle

theorem isOpen_main {a : MainAnswer} {s : Process} {h : Handle} (hh : Handles s.control)
    (huses : uses (.main a) s = some h) :
    s.isOpen h = true ↔ ¬(h = .thread ∧ s.noThread = true) := by
  have hsock : s.sock = s.main.phase.hasSock := hh.sock
  have hpipe : s.pipe = s.main.phase.hasPipe := hh.pipe
  have hthread : s.thread = (s.main.phase.hasThread && !s.noThread) := hh.thread
  cases hp : s.main with
  | select | peek | recvHead _ | recvBody _ _ | shutdown | closeSock =>
    simp only [uses, hp] at huses
    cases huses
    simp [isOpen, hsock, hp, Main.phase, MainPhase.hasSock]
  | setMode | writeFile _ | writeResult _ | cancel | cancelAgain | closePipe =>
    simp only [uses, hp] at huses
    cases huses
    simp [isOpen, hpipe, hp, Main.phase, MainPhase.hasPipe]
  | wait | closeThread =>
    simp only [uses, hp] at huses
    cases huses
    simp [isOpen, hthread, hp, Main.phase, MainPhase.hasThread]
  | accept | createFile | waitNamedPipe | sleep | createThread | top | exchange =>
    simp only [uses, hp] at huses
    cases huses

theorem isOpen_reader {a : ReaderAnswer} {s : Process} {h : Handle} (hh : Handles s.control)
    (huses : uses (.reader a) s = some h) :
    s.isOpen h = true ↔ ¬(h = .thread ∧ s.noThread = true) := by
  have hopen : s.reader.phase ≠ .done → s.sock = true ∧ s.pipe = true := by
    intro hne
    obtain ⟨hs, hp, -⟩ := of_relays (hh.reader hne).2
    exact ⟨hh.sock.trans hs, hh.pipe.trans hp⟩
  cases hp : s.reader with
  | send _ | shutdown =>
    simp only [uses, hp] at huses
    cases huses
    have hsock := (hopen (by simp [hp, Reader.phase])).1
    simp [isOpen, hsock]
  | readFile | readResult | cancel =>
    simp only [uses, hp] at huses
    cases huses
    have hpipe := (hopen (by simp [hp, Reader.phase])).2
    simp [isOpen, hpipe]
  | top | exchange | done =>
    simp only [uses, hp] at huses
    cases huses

theorem safe_of_held {s : Process} (h : Held s.control) : Safe s where
  uses := by
    intro e handle huses
    cases e with
    | main a => exact isOpen_main h.handles huses
    | reader a => exact isOpen_reader h.handles huses
  stack := by
    intro hne
    refine (h.handles.reader ?_).2
    intro hdone
    exact hne (eq_done_of_phase hdone)
  read := fun hne => eq_readResult_of_phase (h.overlapped.read.mp hne)
  write := fun hne => eq_writeResult_of_phase (h.overlapped.write.mp hne)
  once := by
    have honce := h.ended.once
    rintro (hp | hp)
    all_goals
      simp only [control, hp, Main.phase, Reader.phase, MainPhase.shuts, ReaderPhase.shuts]
        at honce
      have hle := Bool.toNat_le s.closing
      exact Bool.toNat_eq_zero.mp (by omega)
  single := by
    rintro ⟨hp, hq⟩
    have honce := h.ended.once
    simp only [control, hp, hq, Main.phase, Reader.phase, MainPhase.shuts, ReaderPhase.shuts]
      at honce
    have hle := Bool.toNat_le s.closing
    omega
  closed := by
    intro hp
    have hmain : s.control.main = .closed := congrArg Main.phase hp
    have hdone := h.handles.reader_done (by rw [hmain]; rfl)
    refine ⟨?_, ?_, ?_, eq_done_of_phase hdone, ?_, ?_⟩
    · exact h.handles.sock.trans (by rw [hmain]; rfl)
    · exact h.handles.pipe.trans (by rw [hmain]; rfl)
    · exact h.handles.thread.trans (by rw [hmain]; rfl)
    · by_contra hne
      have hreading := h.overlapped.read.mp hne
      rw [hdone] at hreading
      cases hreading
    · by_contra hne
      have hwriting := h.overlapped.write.mp hne
      rw [hmain] at hwriting
      cases hwriting

/-- **The two threads use handles that are open, and the session ends once**, in every run. Where
`CreateThread` has failed the main thread waits for NULL and closes it, which does nothing. -/
theorem handles_open (es : List Event) : Safe (run step es {}) :=
  safe_of_held (run_invariant held_step es held_init)

/-- The thread cannot be created, and the driver hangs up at once. -/
def withoutThread : MainAnswer where
  accepted := true
  createFile := .opened
  ready := true
  peeked := true
  created := false
  recv := .ended
  started := true
  written := .failed

example :
    let s := run step (List.replicate 9 (.main withoutThread)) {}
    uses (.main withoutThread) s = some .thread ∧ s.isOpen .thread = false := by
  decide

end Process

end Rebocap.Bridge
