import Mathlib.Data.Set.List
import Rebocap.Bridge.Handles

/-!
# What the two threads pass on

The threads share `closing` and the cancelling, and either can be interrupted anywhere.

* `passes_on` — in every run each direction passes on what came in, whole and in order, and holds
  back at most one message
-/

namespace Rebocap.Bridge

open Lib Rebocap.Net

/-! ## From the socket to the pipe -/

/-- A buffer for `WriteFile`: one frame of the protocol. -/
def Whole (buf : Bytes) : Prop := ∃ p, buf = encodeFrame p ∧ p.length ≤ maxPayload

/-- What the main thread has received and not yet passed to `WriteFile`, before the session ends. -/
def Main.hand : Main → Option Bytes
  | .createFile | .setMode | .waitNamedPipe | .select | .peek | .sleep | .createThread | .top
  | .writeResult _ => some []
  | .recvHead got => some got
  | .recvBody head got => some (head ++ got)
  | .writeFile buf => some buf
  | .accept | .exchange | .shutdown | .cancel | .wait | .cancelAgain | .closeThread | .closePipe
  | .closeSock => none

/-- What the locals are at this place. -/
def Main.Placed : Main → Prop
  | .recvHead got => got.length < 4
  | .recvBody head got =>
    head.length = 4 ∧ leValue head ≤ maxPayload ∧ got.length < leValue head
  | .writeFile buf => Whole buf
  | _ => True

structure Up (s : Process) : Prop where
  whole : ∀ buf ∈ s.wrote, Whole buf
  received : ∃ part, s.received = s.wrote.flatten ++ part ∧ part.length ≤ 4 + maxPayload ∧
    ∀ hand, s.main.hand = some hand → part = hand
  placed : s.main.Placed

namespace Process

theorem hand_bodyPlace (head got : Bytes) : (bodyPlace head got).hand = some (head ++ got) := by
  unfold bodyPlace
  split <;> rfl

theorem placed_bodyPlace {head got : Bytes} (h4 : head.length = 4)
    (hmax : leValue head ≤ maxPayload) (hgot : got.length ≤ leValue head) :
    (bodyPlace head got).Placed := by
  unfold bodyPlace
  split
  next hlt => exact ⟨h4, hmax, hlt⟩
  next hge =>
    have hlen : got.length = leValue head := by omega
    exact ⟨got, (encodeFrame_of_header h4 hlen).symm, by omega⟩

theorem hand_headPlace {got hand : Bytes} (h : (headPlace got).hand = some hand) : hand = got := by
  unfold headPlace at h
  split at h
  · exact (Option.some.inj h).symm
  · split at h
    · cases h
    · rw [hand_bodyPlace, List.append_nil] at h
      exact (Option.some.inj h).symm

theorem placed_headPlace {got : Bytes} (h4 : got.length ≤ 4) : (headPlace got).Placed := by
  unfold headPlace
  split
  next hlt => exact hlt
  next hge =>
    split
    next => exact trivial
    next hmax =>
      exact placed_bodyPlace (by omega) (Nat.le_of_not_lt hmax) (Nat.zero_le _)

end Process

namespace Up

open Process

/-- A step that receives and writes nothing. -/
theorem goto {s s' : Process} (h : Up s) (hreceived : s'.received = s.received)
    (hwrote : s'.wrote = s.wrote) (hplaced : s'.main.Placed)
    (hhand : ∀ hand, s'.main.hand = some hand → s.main.hand = some hand) : Up s' := by
  obtain ⟨part, hpart, hlen, hin⟩ := h.received
  exact {
    whole := by
      rw [hwrote]
      exact h.whole
    received :=
      ⟨part, by rw [hreceived, hwrote, hpart], hlen, fun hand hh => hin hand (hhand hand hh)⟩
    placed := hplaced }

/-- A call of `recv`. -/
theorem recv {s s' : Process} (h : Up s) {got chunk : Bytes} (hgot : s.main.hand = some got)
    (hreceived : s'.received = s.received ++ chunk) (hwrote : s'.wrote = s.wrote)
    (hlen : (got ++ chunk).length ≤ 4 + maxPayload) (hplaced : s'.main.Placed)
    (hhand : ∀ hand, s'.main.hand = some hand → hand = got ++ chunk) : Up s' := by
  obtain ⟨part, hpart, -, hin⟩ := h.received
  obtain rfl := hin got hgot
  exact {
    whole := by
      rw [hwrote]
      exact h.whole
    received := by
      refine ⟨part ++ chunk, ?_, hlen, fun hand hh => (hhand hand hh).symm⟩
      rw [hreceived, hwrote, hpart, List.append_assoc]
    placed := hplaced }

theorem recvOutcome_bytes {len : Nat} {s : Process} {a : RecvAnswer} {chunk : Bytes}
    (h : s.recvOutcome len a = .bytes chunk) : chunk.length ≤ len := by
  unfold recvOutcome at h
  split at h
  · split at h <;> cases h
  · split at h
    next hok =>
      cases h
      exact hok.2
    next => cases h
  · cases h

theorem main_step {s : Process} (h : Up s) (a : MainAnswer) : Up (s.mainStep a) := by
  have hplaced := h.placed
  cases hp : s.main with
  | accept =>
    simp only [mainStep, hp]
    split
    · refine ⟨fun buf hbuf => (by cases hbuf), ⟨[], rfl, by simp, ?_⟩, trivial⟩
      rintro hand ⟨⟩
      rfl
    · exact h
  | createFile =>
    simp only [mainStep, hp]
    split <;> exact h.goto rfl rfl trivial (by simp [hp, Main.hand, gotoMain])
  | setMode | waitNamedPipe | sleep =>
    simp only [mainStep, hp]
    exact h.goto rfl rfl trivial (by simp [hp, Main.hand, gotoMain])
  | select | peek =>
    simp only [mainStep, hp]
    split <;> exact h.goto rfl rfl trivial (by simp [hp, Main.hand, gotoMain])
  | createThread =>
    simp only [mainStep, hp]
    split <;> exact h.goto rfl rfl trivial (by simp [hp, Main.hand])
  | top =>
    simp only [mainStep, hp]
    split
    · exact h.goto rfl rfl trivial (by simp [hp, Main.hand, gotoMain])
    · exact h.goto rfl rfl (Nat.succ_pos 3) (by simp [hp, Main.hand, gotoMain])
  | recvHead got =>
    rw [hp] at hplaced
    have hlt : got.length < 4 := hplaced
    simp only [mainStep, hp]
    split
    · exact h
    · exact h.goto rfl rfl trivial (by simp [Main.hand, gotoMain])
    next chunk hchunk =>
      have hle := recvOutcome_bytes hchunk
      have hlen : (got ++ chunk).length ≤ 4 := by
        rw [List.length_append]
        omega
      exact h.recv (congrArg Main.hand hp) rfl rfl (by omega) (placed_headPlace hlen)
        fun hand hh => hand_headPlace hh
  | recvBody head got =>
    rw [hp] at hplaced
    obtain ⟨h4, hmax, hlt⟩ := hplaced
    simp only [mainStep, hp]
    split
    · exact h
    · exact h.goto rfl rfl trivial (by simp [Main.hand, gotoMain])
    next chunk hchunk =>
      have hle := recvOutcome_bytes hchunk
      have hlen : (got ++ chunk).length ≤ leValue head := by
        rw [List.length_append]
        omega
      refine h.recv (congrArg Main.hand hp) rfl rfl ?_ (placed_bodyPlace h4 hmax hlen) ?_
      · rw [List.append_assoc, List.length_append]
        omega
      · intro hand hh
        rw [hand_bodyPlace, ← List.append_assoc] at hh
        exact (Option.some.inj hh).symm
  | writeFile buf =>
    rw [hp] at hplaced
    have hwhole : Whole buf := hplaced
    obtain ⟨part, hpart, -, hin⟩ := h.received
    obtain rfl := hin buf (congrArg Main.hand hp)
    simp only [mainStep, hp]
    have hwrites : ∀ {s' : Process}, s'.received = s.received → s'.wrote = s.wrote ++ [part] →
        s'.main.Placed → (∀ hand, s'.main.hand = some hand → [] = hand) → Up s' := by
      intro s' hreceived hwrote hplaced' hhand
      refine ⟨?_, ⟨[], ?_, Nat.zero_le _, hhand⟩, hplaced'⟩
      · rw [hwrote]
        intro buf hbuf
        rcases List.mem_append.mp hbuf with hbuf | hbuf
        · exact h.whole buf hbuf
        · rw [List.mem_singleton.mp hbuf]
          exact hwhole
      · rw [hreceived, hwrote, hpart, List.flatten_append, List.flatten_singleton, List.append_nil]
    split
    · exact hwrites rfl rfl trivial fun hand hh => Option.some.inj hh
    · exact hwrites rfl rfl trivial fun hand hh => by cases hh
  | writeResult buf =>
    simp only [mainStep, hp]
    split
    · exact h
    · exact h.goto rfl rfl trivial (by simp [Main.hand])
    · split
      · exact h.goto rfl rfl trivial (by simp [hp, Main.hand])
      · exact h.goto rfl rfl trivial (by simp [Main.hand])
  | exchange | wait =>
    simp only [mainStep, hp]
    split <;> exact h.goto rfl rfl trivial (by simp [Main.hand, gotoMain])
  | shutdown | cancel | cancelAgain | closeThread | closePipe | closeSock =>
    simp only [mainStep, hp]
    exact h.goto rfl rfl trivial (by simp [Main.hand, gotoMain, cancelIo])

/-- The other thread leaves all of it alone. -/
theorem reader_step {s : Process} (h : Up s) (a : ReaderAnswer) : Up (s.readerStep a) := by
  have hrest : ∀ {s' : Process}, s'.main = s.main → s'.received = s.received →
      s'.wrote = s.wrote → Up s' := by
    intro s' hmain hreceived hwrote
    exact h.goto hreceived hwrote (by rw [hmain]; exact h.placed) (by rw [hmain]; exact fun _ => id)
  cases hp : s.reader with
  | readResult =>
    simp only [readerStep, hp]
    split
    · exact h
    · exact hrest rfl rfl rfl
    · split <;> exact hrest rfl rfl rfl
  | send message =>
    simp only [readerStep, hp]
    split
    · split
      · exact hrest rfl rfl rfl
      · exact h
    · exact hrest rfl rfl rfl
  | top | readFile | exchange =>
    simp only [readerStep, hp]
    split <;> exact hrest rfl rfl rfl
  | shutdown | cancel =>
    simp only [readerStep, hp]
    exact hrest rfl rfl rfl
  | done =>
    simp only [readerStep, hp]
    exact h

end Up

/-! ## From the pipe to the socket -/

/-- What the thread has read and not yet passed to `send`, before the session ends. -/
def Reader.hand : Reader → Option Bytes
  | .top | .readFile | .readResult => some []
  | .send message => some message
  | .exchange | .shutdown | .cancel | .done => none

/-- The messages of the app that are passed on. -/
def Process.passed (s : Process) : List Bytes := s.read.filterMap payload?

structure Down (s : Process) : Prop where
  sent : ∃ rest, s.sent.flatten ++ rest = s.passed.flatMap encodeFrame ∧
    rest.length ≤ pipeBuffer ∧ ∀ hand, s.reader.hand = some hand → rest = hand
  /-- Before the thread begins nothing has been read. -/
  fresh : s.main.phase = .opening ∨ s.main.phase = .opened → s.read = [] ∧ s.sent = []

namespace Down

open Process Control

/-- A step that reads and sends nothing. -/
theorem goto {s s' : Process} (h : Down s) (hread : s'.read = s.read) (hsent : s'.sent = s.sent)
    (hhand : ∀ hand, s'.reader.hand = some hand → s.reader.hand = some hand)
    (hfresh : s'.main.phase = .opening ∨ s'.main.phase = .opened →
      s.main.phase = .opening ∨ s.main.phase = .opened) : Down s' := by
  obtain ⟨rest, hrest, hlen, hin⟩ := h.sent
  refine ⟨⟨rest, ?_, hlen, fun hand hh => hin hand (hhand hand hh)⟩, ?_⟩
  · rw [hsent, passed, hread]
    exact hrest
  · rw [hread, hsent]
    exact fun hphase => h.fresh (hfresh hphase)

theorem reader_step {s : Process} (hheld : Held s.control) (h : Down s) (a : ReaderAnswer) :
    Down (s.readerStep a) := by
  have hnotFresh : s.reader ≠ .done → ¬(s.main.phase = .opening ∨ s.main.phase = .opened) := by
    intro hne hphase
    have hrelays := (safe_of_held hheld).stack hne
    rcases hphase with hphase | hphase
    all_goals
      rw [hphase] at hrelays
      cases hrelays
  cases hp : s.reader with
  | top =>
    simp only [readerStep, hp]
    split <;> exact h.goto rfl rfl (by simp [hp, Reader.hand, gotoReader]) id
  | readFile =>
    simp only [readerStep, hp]
    split <;> exact h.goto rfl rfl (by simp [hp, Reader.hand, gotoReader]) id
  | readResult =>
    simp only [readerStep, hp]
    split
    · exact h
    · exact h.goto rfl rfl (by simp [Reader.hand]) id
    next message _ =>
      split
      · exact h.goto rfl rfl (by simp [Reader.hand]) id
      next hlen =>
        obtain ⟨rest, hrest, -, hin⟩ := h.sent
        obtain rfl := hin [] (congrArg Reader.hand hp)
        rw [List.append_nil] at hrest
        refine ⟨?_, fun hphase => absurd hphase (hnotFresh (by simp [hp]))⟩
        by_cases hhead : WellHeaded message
        · have hpayload : payload? message = some (message.drop 4) :=
            if_pos ⟨Nat.le_of_not_lt hlen, hhead⟩
          refine ⟨message, ?_, Nat.le_of_not_lt hlen, ?_⟩
          · simp only [passed, List.filterMap_append, List.filterMap_cons, hpayload,
              List.filterMap_nil, List.flatMap_append, List.flatMap_cons, List.flatMap_nil,
              List.append_nil]
            rw [hrest, ← (payload?_eq_some hpayload).1, passed]
          · rw [if_pos hhead]
            exact fun hand hh => Option.some.inj hh
        · have hpayload : payload? message = none := if_neg fun hok => hhead hok.2
          refine ⟨[], ?_, Nat.zero_le _, ?_⟩
          · simp only [passed, List.filterMap_append, List.filterMap_cons, hpayload,
              List.filterMap_nil, List.append_nil]
            rw [hrest, passed]
          · rw [if_neg hhead]
            exact fun hand hh => Option.some.inj hh
  | send message =>
    simp only [readerStep, hp]
    split
    · split
      · exact h.goto rfl rfl (by simp [Reader.hand, gotoReader]) id
      · exact h
    next n _ =>
      obtain ⟨rest, hrest, hlen, hin⟩ := h.sent
      obtain rfl := hin message (congrArg Reader.hand hp)
      refine ⟨⟨rest.drop n, ?_, ?_, ?_⟩, fun hphase => absurd hphase (hnotFresh (by simp [hp]))⟩
      · rw [List.flatten_append, List.flatten_singleton, List.append_assoc, List.take_append_drop]
        exact hrest
      · rw [List.length_drop]
        omega
      · intro hand hh
        split at hh
        next hle =>
          rw [List.drop_of_length_le hle]
          exact Option.some.inj hh
        next => cases hh
  | exchange =>
    simp only [readerStep, hp]
    split <;> exact h.goto rfl rfl (by simp [Reader.hand, gotoReader]) id
  | shutdown | cancel =>
    simp only [readerStep, hp]
    exact h.goto rfl rfl (by simp [Reader.hand, gotoReader, cancelIo]) id
  | done =>
    simp only [readerStep, hp]
    exact h

theorem main_step {s : Process} (hheld : Held s.control) (h : Down s) (a : MainAnswer) :
    Down (s.mainStep a) := by
  -- nothing that the other thread has
  have hrest : ∀ {s' : Process}, s'.read = s.read → s'.sent = s.sent → s'.reader = s.reader →
      (s'.main.phase = .opening ∨ s'.main.phase = .opened →
        s.main.phase = .opening ∨ s.main.phase = .opened) → Down s' := by
    intro s' hread hsent hreader hfresh
    exact h.goto hread hsent (by rw [hreader]; exact fun _ => id) hfresh
  have hopening : ∀ {p : Main} {q : Prop}, s.main = p → p.phase = .opening ∨ p.phase = .opened →
      q → s.main.phase = .opening ∨ s.main.phase = .opened := by
    intro p q hp hphase _
    rw [hp]
    exact hphase
  have hlater : ∀ (p : MainPhase), p ≠ .opening ∧ p ≠ .opened → p = .opening ∨ p = .opened →
      s.main.phase = .opening ∨ s.main.phase = .opened := by
    rintro p ⟨hopening', hopened⟩ (hphase | hphase)
    · exact absurd hphase hopening'
    · exact absurd hphase hopened
  cases hp : s.main with
  | accept =>
    simp only [mainStep, hp]
    split
    · have hdone := ((safe_of_held hheld).closed hp).2.2.2.1
      refine ⟨⟨[], rfl, Nat.zero_le _, ?_⟩, fun _ => ⟨rfl, rfl⟩⟩
      intro hand hh
      rw [hdone] at hh
      cases hh
    · exact h
  | createFile =>
    simp only [mainStep, hp]
    split <;> exact hrest rfl rfl rfl (hopening hp (Or.inl rfl))
  | setMode =>
    simp only [mainStep, hp]
    exact hrest rfl rfl rfl (hopening hp (Or.inr rfl))
  | waitNamedPipe | sleep =>
    simp only [mainStep, hp]
    exact hrest rfl rfl rfl (hopening hp (Or.inl rfl))
  | select | peek =>
    simp only [mainStep, hp]
    split <;> exact hrest rfl rfl rfl (hopening hp (Or.inl rfl))
  | createThread =>
    simp only [mainStep, hp]
    split
    · obtain ⟨hread, hsent⟩ := h.fresh (Or.inr (congrArg Main.phase hp))
      refine ⟨⟨[], ?_, Nat.zero_le _, fun hand hh => Option.some.inj hh⟩, ?_⟩
      · simp only [passed, hread, hsent]
        rfl
      · rintro (hphase | hphase) <;> cases hphase
    · exact hrest rfl rfl rfl (hopening hp (Or.inr rfl))
  | top =>
    simp only [mainStep, hp]
    split <;> exact hrest rfl rfl rfl (hlater .relaying (by decide))
  | recvHead got =>
    simp only [mainStep, hp]
    split
    · exact h
    · exact hrest rfl rfl rfl (hlater .relaying (by decide))
    · exact hrest rfl rfl rfl (by rw [phase_headPlace]; exact hlater .relaying (by decide))
  | recvBody head got =>
    simp only [mainStep, hp]
    split
    · exact h
    · exact hrest rfl rfl rfl (hlater .relaying (by decide))
    · exact hrest rfl rfl rfl (by rw [phase_bodyPlace]; exact hlater .relaying (by decide))
  | writeFile buf =>
    simp only [mainStep, hp]
    split
    · exact hrest rfl rfl rfl (hlater .writing (by decide))
    · exact hrest rfl rfl rfl (hlater .relaying (by decide))
  | writeResult buf =>
    simp only [mainStep, hp]
    split
    · exact h
    · exact hrest rfl rfl rfl (hlater .relaying (by decide))
    · split <;> exact hrest rfl rfl rfl (hlater .relaying (by decide))
  | exchange =>
    simp only [mainStep, hp]
    split
    · exact hrest rfl rfl rfl (hlater .joining (by decide))
    · exact hrest rfl rfl rfl (hlater .shutting (by decide))
  | shutdown =>
    simp only [mainStep, hp]
    exact hrest rfl rfl rfl (hlater .cancelling (by decide))
  | cancel | cancelAgain =>
    simp only [mainStep, hp]
    exact hrest rfl rfl rfl (hlater .joining (by decide))
  | wait =>
    simp only [mainStep, hp]
    split
    · exact hrest rfl rfl rfl (hlater .joining (by decide))
    · exact hrest rfl rfl rfl (hlater .joined (by decide))
  | closeThread =>
    simp only [mainStep, hp]
    exact hrest rfl rfl rfl (hlater .closingPipe (by decide))
  | closePipe =>
    simp only [mainStep, hp]
    exact hrest rfl rfl rfl (hlater .closingSock (by decide))
  | closeSock =>
    simp only [mainStep, hp]
    exact hrest rfl rfl rfl (hlater .closed (by decide))

end Down

/-! ## Both -/

structure Relays (s : Process) : Prop where
  held : Control.Held s.control
  up : Up s
  down : Down s

namespace Process

theorem relays_init : Relays {} where
  held := held_init
  up := ⟨fun buf hbuf => (by cases hbuf), ⟨[], rfl, Nat.zero_le _, fun hand hh => by cases hh⟩,
    trivial⟩
  down := ⟨⟨[], rfl, Nat.zero_le _, fun hand hh => by cases hh⟩, fun _ => ⟨rfl, rfl⟩⟩

theorem relays_step (e : Event) (s : Process) (h : Relays s) : Relays (step e s) := by
  have hheld := held_step e s h.held
  cases e with
  | main a => exact ⟨hheld, h.up.main_step a, h.down.main_step h.held a⟩
  | reader a => exact ⟨hheld, h.up.reader_step a, h.down.reader_step h.held a⟩

theorem exists_payloads {bufs : List Bytes} (h : ∀ buf ∈ bufs, Whole buf) :
    ∃ ps : List Payload, bufs = ps.map fun p => encodeFrame p.val := by
  have hrange : bufs ∈ Set.range (List.map fun p : Payload => encodeFrame p.val) := by
    rw [Set.range_list_map]
    intro buf hbuf
    obtain ⟨p, rfl, hp⟩ := h buf hbuf
    exact ⟨⟨p, hp⟩, rfl⟩
  obtain ⟨ps, hps⟩ := hrange
  exact ⟨ps, hps.symm⟩

/-- **Each direction passes on what came in, whole and in order, and holds back at most one
message**, however the two threads interleave and whatever fails or is cancelled: the first part is
about the way from the socket to the pipe, the second about the way back. -/
theorem passes_on (es : List Event) :
    let s := run step es {}
    (∃ (ps : List Payload) (part : Bytes), s.wrote = (ps.map fun p => encodeFrame p.val) ∧
      s.received = (ps.flatMap fun p => encodeFrame p.val) ++ part ∧
      part.length ≤ 4 + maxPayload ∧ (s.main = .top → part = [])) ∧
    ∃ rest, s.sent.flatten ++ rest = (s.read.filterMap payload?).flatMap encodeFrame ∧
      rest.length ≤ pipeBuffer ∧ (s.reader = .top → rest = []) := by
  intro s
  obtain ⟨-, hup, hdown⟩ : Relays s := run_invariant relays_step es relays_init
  constructor
  · obtain ⟨part, hpart, hlen, hin⟩ := hup.received
    obtain ⟨ps, hps⟩ := exists_payloads hup.whole
    refine ⟨ps, part, hps, ?_, hlen, fun hp => hin [] (congrArg Main.hand hp)⟩
    rw [hpart, hps, List.flatMap_def]
  · obtain ⟨rest, hrest, hlen, hin⟩ := hdown.sent
    exact ⟨rest, hrest, hlen, fun hp => hin [] (congrArg Reader.hand hp)⟩

end Process

end Rebocap.Bridge
