import Rebocap.Lib.Fairness
import Rebocap.Bridge.Streams

/-!
# How a session ends

Whoever ends the session cancels what is pending, but the other thread may begin an operation right
after that. For the reads of the pipe the main thread cancels again and again; a write of its own
that begins then is cancelled by nobody, so it has to be completed.

* `session_ends` — once `closing` is set the main thread accepts the next driver, whatever the pipe
  does
-/

namespace Rebocap.Bridge

open Lib

/-! ## How far the threads are from their end -/

/-- What the main thread has left at most, once `closing` is set. -/
def Main.left : Main → Nat
  | .closeSock => 1
  | .closePipe => 2
  | .closeThread => 3
  | .wait | .cancelAgain => 4
  | .cancel => 5
  | .shutdown => 6
  | .exchange => 7
  | .top => 8
  | .writeResult _ => 9
  | .writeFile _ => 10
  | .recvBody head got => 11 + (leValue head - got.length)
  | .recvHead got => 12 + maxPayload + (4 - got.length)
  | .accept | .createFile | .setMode | .waitNamedPipe | .select | .peek | .sleep
  | .createThread => 0

def Reader.left : Reader → Nat
  | .done => 0
  | .cancel => 1
  | .shutdown => 2
  | .exchange => 3
  | .top => 4
  | .send _ => 5
  | .readResult => 6
  | .readFile => 7

namespace Process

/-- The other thread waits for a read that was not cancelled. -/
def Reads (s : Process) : Prop := s.reader = .readResult ∧ s.readIo ≠ .cancelled

instance (s : Process) : Decidable s.Reads := inferInstanceAs (Decidable (_ ∧ _))

/-- How far the main thread is in the loop that waits for the other one, where that matters. -/
def turn (s : Process) : Nat :=
  match s.main with
  | .wait => if s.Reads then 2 else 0
  | .cancelAgain => if s.Reads ∨ s.reader = .done then 1 else 0
  | _ => 0

def rank (s : Process) : Nat := 3 * (s.main.left + s.reader.left) + s.turn

inductive Thread where
  | main
  | reader

/-- The thread that can go on. -/
def helpful (s : Process) : Thread :=
  match s.reader with
  | .done => .main
  | .readResult => if s.readIo = .cancelled then .reader else .main
  | .send _ => if s.shut then .reader else .main
  | _ => .reader

/-- A thread goes on. If the main thread waits for a write, the write is over. -/
def GoesOn : Event → Thread → Prop
  | .main a, .main => a.written ≠ .pending
  | .reader _, .reader => True
  | _, _ => False

/-- The session is about to end. -/
structure Ending (s : Process) : Prop where
  relays : Relays s
  closing : s.closing = true

theorem turn_le (s : Process) : s.turn ≤ 2 := by
  unfold turn
  split
  · split <;> decide
  · split <;> decide
  · decide

theorem rank_lt {s s' : Process}
    (h : s'.main.left + s'.reader.left < s.main.left + s.reader.left) : s'.rank < s.rank := by
  have hturn := turn_le s'
  unfold rank
  omega

/-! ## What a step brings -/

theorem left_bodyPlace (head got : Bytes) :
    (bodyPlace head got).left ≤ 11 + (leValue head - got.length) := by
  unfold bodyPlace
  split
  · exact Nat.le_refl _
  · simp only [Main.left]
    omega

theorem left_headPlace (got : Bytes) :
    (headPlace got).left ≤ 12 + maxPayload + (4 - got.length) := by
  unfold headPlace
  split
  · exact Nat.le_refl _
  · split
    · simp only [Main.left]
      omega
    next hmax =>
      have hle := left_bodyPlace got []
      rw [List.length_nil] at hle
      omega

/-- It is before a `recv` of the session. -/
def receives : Main → Bool
  | .recvHead _ | .recvBody _ _ => true
  | _ => false

theorem recvOutcome_ne_nil {len : Nat} {s : Process} {a : RecvAnswer} {chunk : Bytes}
    (h : s.recvOutcome len a = .bytes chunk) : 0 < chunk.length := by
  unfold recvOutcome at h
  split at h
  · split at h <;> cases h
  · split at h
    next hok =>
      cases h
      exact List.length_pos_of_ne_nil hok.1
    next => cases h
  · cases h

theorem recvOutcome_blocked {len : Nat} {s : Process} {a : RecvAnswer}
    (h : s.recvOutcome len a = .blocked) : s.shut = false := by
  unfold recvOutcome at h
  split at h
  · split at h
    next => cases h
    next hshut => exact eq_false_of_ne_true hshut
  · split at h <;> cases h
  · cases h

theorem Ending.not_before {s : Process} (h : Ending s) :
    ¬(s.main.phase = .opening ∨ s.main.phase = .opened) := by
  intro hphase
  have hclosing : s.closing = false := h.relays.held.ended.before hphase
  rw [h.closing] at hclosing
  cases hclosing

/-- A step of the main thread: it comes nearer to the end of the session, or waits. -/
theorem main_nearer {s : Process} (h : Ending s) (a : MainAnswer) (hmain : s.main ≠ .accept) :
    (s.mainStep a).main.left < s.main.left ∧ (s.mainStep a).reader = s.reader ∨
      s.mainStep a = s ∧ (receives s.main = true ∧ s.shut = false ∨ a.written = .pending) ∨
      s.main = .wait ∧ s.reader ≠ .done ∧ s.mainStep a = s.gotoMain .cancelAgain ∨
      s.main = .cancelAgain ∧ s.mainStep a = s.cancelIo.gotoMain .wait := by
  have hclosing := h.closing
  have hplaced := h.relays.up.placed
  cases hp : s.main with
  | accept => exact absurd hp hmain
  | createFile | waitNamedPipe | select | peek | sleep =>
    exact absurd (Or.inl (by rw [hp]; rfl)) h.not_before
  | setMode | createThread => exact absurd (Or.inr (by rw [hp]; rfl)) h.not_before
  | top =>
    simp only [mainStep, hp, hclosing, if_true]
    exact Or.inl ⟨by simp only [Main.left, gotoMain]; omega, rfl⟩
  | recvHead got =>
    simp only [mainStep, hp]
    split
    next hblocked => exact Or.inr (Or.inl ⟨rfl, Or.inl ⟨rfl, recvOutcome_blocked hblocked⟩⟩)
    · refine Or.inl ⟨?_, rfl⟩
      simp only [Main.left, gotoMain]
      omega
    next chunk hchunk =>
      rw [hp] at hplaced
      have hlt : got.length < 4 := hplaced
      have hpos := recvOutcome_ne_nil hchunk
      have hle := left_headPlace (got ++ chunk)
      rw [List.length_append] at hle
      refine Or.inl ⟨Nat.lt_of_le_of_lt hle ?_, rfl⟩
      simp only [Main.left]
      omega
  | recvBody head got =>
    simp only [mainStep, hp]
    split
    next hblocked => exact Or.inr (Or.inl ⟨rfl, Or.inl ⟨rfl, recvOutcome_blocked hblocked⟩⟩)
    · refine Or.inl ⟨?_, rfl⟩
      simp only [Main.left, gotoMain]
      omega
    next chunk hchunk =>
      rw [hp] at hplaced
      obtain ⟨-, -, hlt⟩ := hplaced
      have hpos := recvOutcome_ne_nil hchunk
      have hle := left_bodyPlace head (got ++ chunk)
      rw [List.length_append] at hle
      refine Or.inl ⟨Nat.lt_of_le_of_lt hle ?_, rfl⟩
      simp only [Main.left]
      omega
  | writeFile buf =>
    simp only [mainStep, hp]
    split
    · exact Or.inl ⟨by simp only [Main.left]; omega, rfl⟩
    · exact Or.inl ⟨by simp only [Main.left, gotoMain]; omega, rfl⟩
  | writeResult buf =>
    simp only [mainStep, hp]
    split
    next hpending =>
      refine Or.inr (Or.inl ⟨rfl, Or.inr ?_⟩)
      unfold overlappedResult at hpending
      split at hpending
      next hwritten => exact hwritten
      next => cases hpending
      next => cases hpending
    · exact Or.inl ⟨by simp only [Main.left]; omega, rfl⟩
    · refine Or.inl ⟨?_, rfl⟩
      split
      · simp only [Main.left]
        omega
      · simp only [Main.left]
        omega
  | exchange =>
    simp only [mainStep, hp, hclosing, if_true]
    exact Or.inl ⟨by simp only [Main.left, gotoMain]; omega, rfl⟩
  | wait =>
    simp only [mainStep, hp]
    split
    next hwait => exact Or.inr (Or.inr (Or.inl ⟨trivial, hwait.2, rfl⟩))
    · exact Or.inl ⟨by simp only [Main.left, gotoMain]; omega, rfl⟩
  | cancelAgain =>
    simp only [mainStep, hp]
    exact Or.inr (Or.inr (Or.inr ⟨trivial, trivial⟩))
  | cancel =>
    simp only [mainStep, hp]
    exact Or.inl ⟨by simp only [Main.left, gotoMain]; omega, rfl⟩
  | shutdown | closeThread | closePipe | closeSock =>
    simp only [mainStep, hp]
    exact Or.inl ⟨by simp only [Main.left]; omega, trivial⟩

/-- A step of the other thread. -/
theorem reader_nearer {s : Process} (h : s.closing = true) (a : ReaderAnswer) :
    (s.readerStep a).reader.left < s.reader.left ∧ (s.readerStep a).main = s.main ∨
      s.readerStep a = s ∧ s.helpful = .main := by
  cases hp : s.reader with
  | top =>
    simp only [readerStep, hp, h, if_true]
    exact Or.inl ⟨by simp only [Reader.left, gotoReader]; omega, rfl⟩
  | readFile =>
    simp only [readerStep, hp]
    split
    · exact Or.inl ⟨by simp only [Reader.left]; omega, rfl⟩
    · exact Or.inl ⟨by simp only [Reader.left, gotoReader]; omega, rfl⟩
  | readResult =>
    simp only [readerStep, hp]
    split
    next hpending =>
      refine Or.inr ⟨rfl, ?_⟩
      unfold overlappedResult at hpending
      split at hpending
      · split at hpending
        next => cases hpending
        next hnot =>
          simp only [helpful, hp]
          rw [if_neg hnot]
      · cases hpending
      · cases hpending
    · exact Or.inl ⟨by simp only [Reader.left]; omega, rfl⟩
    · split
      · exact Or.inl ⟨by simp only [Reader.left]; omega, rfl⟩
      · refine Or.inl ⟨?_, rfl⟩
        split
        · simp only [Reader.left]
          omega
        · simp only [Reader.left]
          omega
  | send message =>
    simp only [readerStep, hp]
    split
    · split
      · exact Or.inl ⟨by simp only [Reader.left, gotoReader]; omega, rfl⟩
      next hshut =>
        refine Or.inr ⟨rfl, ?_⟩
        simp only [helpful, hp]
        rw [if_neg hshut]
    · refine Or.inl ⟨?_, rfl⟩
      split
      · simp only [Reader.left]
        omega
      · simp only [Reader.left]
        omega
  | exchange =>
    simp only [readerStep, hp, h, if_true]
    exact Or.inl ⟨by simp only [Reader.left, gotoReader]; omega, rfl⟩
  | shutdown =>
    simp only [readerStep, hp]
    exact Or.inl ⟨by simp only [Reader.left]; omega, trivial⟩
  | cancel =>
    simp only [readerStep, hp]
    exact Or.inl ⟨by simp only [Reader.left, gotoReader]; omega, rfl⟩
  | done =>
    simp only [readerStep, hp]
    exact Or.inr ⟨trivial, by simp only [helpful, hp]⟩

/-! ## Which steps help -/

/-- Between the exchange and `shutdown` somebody is about to call `shutdown`. -/
theorem Ending.shutting {s : Process} (h : Ending s) (hshut : s.shut = false) :
    s.main = .shutdown ∨ s.reader = .shutdown := by
  have honce : s.main.phase.shuts + s.reader.phase.shuts + s.shut.toNat = s.closing.toNat :=
    h.relays.held.ended.once
  rw [hshut, h.closing, Bool.toNat_false, Bool.toNat_true] at honce
  by_contra hnot
  obtain ⟨hmain, hreader⟩ := not_or.mp hnot
  have hzero : s.main.phase.shuts = 0 := by
    cases hp : s.main with
    | shutdown => exact absurd hp hmain
    | _ => rfl
  have hzero' : s.reader.phase.shuts = 0 := by
    cases hp : s.reader with
    | shutdown => exact absurd hp hreader
    | _ => rfl
  omega

theorem helpful_of_shutdown {s : Process} (h : s.reader = .shutdown) : s.helpful = .reader := by
  simp only [helpful, h]

/-- The main thread can go on where it has to. -/
theorem not_blocked {s : Process} (h : Ending s) (hhelpful : s.helpful = .main) :
    ¬(receives s.main = true ∧ s.shut = false) := by
  rintro ⟨hreceives, hshut⟩
  rcases h.shutting hshut with hp | hp
  · rw [hp] at hreceives
    cases hreceives
  · rw [helpful_of_shutdown hp] at hhelpful
    cases hhelpful

/-- In the loop of the main thread nothing but a read is waited for. -/
theorem reads_of_helpful {s : Process} (h : Ending s) (hmain : s.main ≠ .shutdown)
    (hhelpful : s.helpful = .main) : s.Reads ∨ s.reader = .done := by
  cases hp : s.reader with
  | done => exact Or.inr rfl
  | readResult =>
    simp only [helpful, hp] at hhelpful
    split at hhelpful
    next => cases hhelpful
    next hnot => exact Or.inl ⟨hp, hnot⟩
  | send message =>
    simp only [helpful, hp] at hhelpful
    split at hhelpful
    next => cases hhelpful
    next hshut =>
      rcases h.shutting (eq_false_of_ne_true hshut) with hq | hq
      · exact absurd hq hmain
      · rw [hp] at hq
        cases hq
  | _ =>
    simp only [helpful, hp] at hhelpful
    cases hhelpful

/-- The next turn of the loop: the other thread is where it was. -/
theorem wait_turn {s : Process} (hp : s.main = .wait) (hne : s.reader ≠ .done) :
    (s.gotoMain .cancelAgain).rank < s.rank ∧ s.Reads ∨
      (s.gotoMain .cancelAgain).rank = s.rank ∧ ¬s.Reads := by
  have hturn : s.turn = if s.Reads then 2 else 0 := by simp only [turn, hp]
  have hturn' : (s.gotoMain .cancelAgain).turn = if s.Reads ∨ s.reader = .done then 1 else 0 := rfl
  have hleft : (s.gotoMain .cancelAgain).main.left = s.main.left := by
    rw [hp]
    rfl
  have hreader : (s.gotoMain .cancelAgain).reader = s.reader := rfl
  unfold rank
  rw [hleft, hreader, hturn, hturn']
  by_cases hreads : s.Reads
  · rw [if_pos hreads, if_pos (Or.inl hreads)]
    exact Or.inl ⟨by omega, hreads⟩
  · rw [if_neg hreads, if_neg (not_or.mpr ⟨hreads, hne⟩)]
    exact Or.inr ⟨by omega, hreads⟩

/-- `CancelIoEx` ends the read that is pending. -/
theorem cancelAgain_turn {s : Process} (h : Ending s) (hp : s.main = .cancelAgain) :
    (s.cancelIo.gotoMain .wait).rank < s.rank ∨
      (s.cancelIo.gotoMain .wait).rank = s.rank ∧ ¬(s.Reads ∨ s.reader = .done) := by
  have hturn : s.turn = if s.Reads ∨ s.reader = .done then 1 else 0 := by simp only [turn, hp]
  have hleft : (s.cancelIo.gotoMain .wait).main.left = s.main.left := by
    rw [hp]
    rfl
  have hreader : (s.cancelIo.gotoMain .wait).reader = s.reader := rfl
  have hnot : ¬(s.cancelIo.gotoMain .wait).Reads := by
    rintro ⟨hreader, hcancelled⟩
    have hpending : s.readIo ≠ .idle :=
      h.relays.held.overlapped.read.mpr (congrArg Reader.phase hreader)
    have hcancelled : s.readIo.cancel ≠ .cancelled := hcancelled
    cases hio : s.readIo with
    | idle => exact hpending hio
    | pending | cancelled =>
      rw [hio] at hcancelled
      exact hcancelled rfl
  have hturn' : (s.cancelIo.gotoMain .wait).turn = 0 := if_neg hnot
  unfold rank
  rw [hleft, hreader, hturn, hturn']
  by_cases hwaits : s.Reads ∨ s.reader = .done
  · rw [if_pos hwaits]
    exact Or.inl (by omega)
  · rw [if_neg hwaits]
    exact Or.inr ⟨by omega, hwaits⟩

/-- A cancel that finds no read pending. -/
theorem helpful_cancelIo {s : Process} (h : ¬s.Reads) :
    (s.cancelIo.gotoMain .wait).helpful = s.helpful := by
  have hreader : (s.cancelIo.gotoMain .wait).reader = s.reader := rfl
  have hshut : (s.cancelIo.gotoMain .wait).shut = s.shut := rfl
  unfold helpful
  rw [hreader, hshut]
  cases hp : s.reader with
  | readResult =>
    have hio : s.readIo = .cancelled := by
      by_contra hio
      exact h ⟨hp, hio⟩
    have hcancel : (s.cancelIo.gotoMain .wait).readIo = s.readIo.cancel := rfl
    rw [hcancel, hio]
    rfl
  | _ => rfl

/-! ## The end -/

/-- Only `main` sets it back, with the next driver. -/
theorem closing_step {s : Process} (e : Event) (h : s.closing = true) (hmain : s.main ≠ .accept) :
    (step e s).closing = true := by
  cases e with
  | main a =>
    rw [Process.step]
    unfold mainStep
    split
    next hp => exact absurd hp hmain
    all_goals repeat' split
    all_goals exact h
  | reader a =>
    rw [Process.step]
    unfold readerStep
    repeat' split
    all_goals exact h

theorem Ending.step {s : Process} (e : Event) (h : Ending s) (hmain : s.main ≠ .accept) :
    Ending (step e s) :=
  ⟨relays_step e s h.relays, closing_step e h.closing hmain⟩

/-- **Somebody can always go on, and then the end of the session is nearer.** -/
theorem leads : Leads GoesOn Ending (fun s => s.main = .accept) step helpful rank where
  keeps e s h hmain := Or.inr (h.step e hmain)
  others e s h hmain := by
    right
    cases e with
    | main a =>
      rcases main_nearer h a hmain with ⟨hlt, hreader⟩ | ⟨hs, -⟩ | ⟨hp, hne, hs⟩ | ⟨hp, hs⟩
      · refine Or.inl (rank_lt ?_)
        rw [Process.step, hreader]
        exact Nat.add_lt_add_right hlt _
      · rw [Process.step, hs]
        exact Or.inr ⟨rfl, rfl⟩
      · rw [Process.step, hs]
        exact (wait_turn hp hne).imp And.left fun hturn => ⟨hturn.1, rfl⟩
      · rw [Process.step, hs]
        exact (cancelAgain_turn h hp).imp id fun hturn =>
          ⟨hturn.1, helpful_cancelIo fun hreads => hturn.2 (Or.inl hreads)⟩
    | reader a =>
      rcases reader_nearer h.closing a with ⟨hlt, hsame⟩ | ⟨hs, -⟩
      · refine Or.inl (rank_lt ?_)
        rw [Process.step, hsame]
        exact Nat.add_lt_add_left hlt _
      · rw [Process.step, hs]
        exact Or.inr ⟨rfl, rfl⟩
  helps e s h hmain hkind := by
    right
    cases e with
    | main a =>
      cases hhelpful : s.helpful with
      | reader =>
        rw [hhelpful] at hkind
        exact hkind.elim
      | main =>
        rw [hhelpful] at hkind
        have hwritten : a.written ≠ .pending := hkind
        rcases main_nearer h a hmain with
          ⟨hlt, hreader⟩ | ⟨-, hblocked | hpending⟩ | ⟨hp, hne, hs⟩ | ⟨hp, hs⟩
        · refine rank_lt ?_
          rw [Process.step, hreader]
          exact Nat.add_lt_add_right hlt _
        · exact absurd hblocked (not_blocked h hhelpful)
        · exact absurd hpending hwritten
        · have hreads : s.Reads :=
            (reads_of_helpful h (by rw [hp]; simp) hhelpful).resolve_right hne
          rw [Process.step, hs]
          rcases wait_turn hp hne with ⟨hlt, -⟩ | ⟨-, hnot⟩
          · exact hlt
          · exact absurd hreads hnot
        · have hwaits := reads_of_helpful h (by rw [hp]; simp) hhelpful
          rw [Process.step, hs]
          rcases cancelAgain_turn h hp with hlt | ⟨-, hnot⟩
          · exact hlt
          · exact absurd hwaits hnot
    | reader a =>
      cases hhelpful : s.helpful with
      | main =>
        rw [hhelpful] at hkind
        exact hkind.elim
      | reader =>
        rcases reader_nearer h.closing a with ⟨hlt, hsame⟩ | ⟨-, hmain'⟩
        · refine rank_lt ?_
          rw [Process.step, hsame]
          exact Nat.add_lt_add_left hlt _
        · rw [hhelpful] at hmain'
          cases hmain'

/-- **Once `closing` is set, the bridge comes to accept the next driver**, whatever the pipe answers
to the reads and whenever they begin, if both threads go on. -/
theorem session_ends (before : List Event) (hclosing : (run step before {}).closing = true)
    (es : Nat → Event) (hfair : Fair GoesOn es) :
    ∃ n, (run step (history es n) (run step before {})).main = .accept :=
  leads.eventually hfair ⟨run_invariant relays_step before relays_init, hclosing⟩

/-! ### A read that begins late -/

/-- Nothing comes: the pipe answers no read, and the driver sends nothing. -/
def quietMain : MainAnswer where
  accepted := true
  createFile := .opened
  ready := false
  peeked := false
  created := true
  recv := .blocked
  started := false
  written := .failed

def quietReader : ReaderAnswer where
  started := true
  message := .pending
  send := .blocked

/-- The driver hangs up while the other thread is before `ReadFile`. It reads when the session has
ended already. -/
def lateRead : List Event :=
  List.replicate 4 (.main quietMain) ++ [.reader quietReader, .main quietMain] ++
    [.main { quietMain with recv := .ended }] ++ List.replicate 3 (.main quietMain) ++
    [.reader quietReader]

def quietly (n : Nat) : Event := if n % 2 = 0 then .main quietMain else .reader quietReader

theorem fair_quietly : Fair GoesOn quietly := by
  intro k n
  cases k with
  | main =>
    have hwritten : quietMain.written ≠ .pending := fun h => by cases h
    refine ⟨2 * n, by omega, ?_⟩
    rw [quietly, if_pos (by omega)]
    exact hwritten
  | reader =>
    refine ⟨2 * n + 1, by omega, ?_⟩
    rw [quietly, if_neg (by omega)]
    trivial

theorem session_ends_lateRead : (run step lateRead {}).reader = .readResult ∧
    (run step lateRead {}).readIo = .pending ∧
    ∃ n, (run step (history quietly n) (run step lateRead {})).main = .accept :=
  ⟨by decide, by decide, session_ends lateRead (by decide) quietly fair_quietly⟩

end Process

end Rebocap.Bridge
