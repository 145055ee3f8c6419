import Rebocap.Lib.Progress
import Rebocap.Net.Descriptors

/-!
# How `stop` ends the client's thread

`stop` sets `stop_` and joins the thread, and SteamVR waits for it. Each system call that can take
long has a timeout, and before the next one the thread looks at `stop_`.

* `distance_net` — each step of the thread brings it nearer to its end
* `stops` — it returns after a bounded number of steps, whatever the system answers
-/

namespace Rebocap.Net.Threads

open Lib Shared

/-! ## How far the thread is from its end -/

/-- Once `stop_` is set: the steps that are left at most, where `n` bounds the number of addresses
and `buffered` what is in `buf` and not consumed. -/
def left (n buffered : Nat) : Place → Nat
  | .done => 0
  | .top => 1
  | .closed | .retry _ => 2
  | .unlock | .unreachable => 3
  | .close _ => 4
  | .clear _ => 5
  | .lock _ => 6
  | .reading _ => 7
  | .publish _ => 8
  | .generation _ => 9
  | .connected _ => 10
  | .noDelay _ => 11
  | .setFlags _ => 12
  | .getFlags _ => 13
  | .scan _ => 8 + buffered
  | .recv _ => 8201 + buffered
  | .poll _ => 8202 + buffered
  | .socket left => 20 + 5 * left
  | .refused _ left => 21 + 5 * left
  | .getsockopt _ left | .waiting _ left _ => 22 + 5 * left
  | .waitPoll _ left _ | .connect _ left => 23 + 5 * left
  | .getaddrinfo => 21 + 5 * n

/-- What is in `buf`: all of it is consumed again behind a `recv`. -/
def buffered (s : Threads) : Nat :=
  match s.place with
  | .scan _ => s.buf.length - s.off
  | _ => s.buf.length

def distance (n : Nat) (s : Threads) : Nat := left n s.buffered s.place

/-- `getaddrinfo` finds at most `n` addresses, and `recv` returns what it can return. -/
structure Answers (n : Nat) (a : Answer) : Prop where
  addresses : ∀ m, a.addresses = some m → m ≤ n
  recv : ∀ chunk, a.recv = .bytes chunk → chunk ≠ [] ∧ chunk.length ≤ 8192

/-- What happens while `stop` waits: the frame thread, which has called it, does nothing. -/
def Joining (n : Nat) : Event → Prop
  | .net a => Answers n a
  | .opens _ | .closes _ => True
  | .call _ | .send _ | .drain | .stop => False

def ofNetwork : Event → Bool
  | .net _ => true
  | _ => false

/-- While `stop` waits. -/
structure Stopped (s : Threads) : Prop where
  held : s.shared.Held
  stop : s.stop = true
  sender : s.sender = .idle

/-- Nothing keeps the thread from the mutex. -/
theorem Stopped.mutex {s : Threads} (h : Stopped s) {fd : Nat} (hp : s.place = .lock fd) :
    s.sendMutex = none := by
  have hnetwork : s.sendMutex = some .network ↔ s.place.phase.locks = true := h.held.network
  have hframe : s.sendMutex = some .frame ↔ s.sender.locks = true := h.held.frame
  rw [hp] at hnetwork
  rw [h.sender] at hframe
  cases hm : s.sendMutex with
  | none => rfl
  | some holder =>
    cases holder with
    | network => cases hnetwork.mp hm
    | frame => cases hframe.mp hm

/-- **Each step of the thread brings it nearer to its end.** -/
theorem distance_net {n : Nat} {a : Answer} {s : Threads} (h : Stopped s) (ha : Answers n a)
    (hdone : s.place ≠ .done) : distance n (s.netStep a) < distance n s := by
  have hstop := h.stop
  cases hp : s.place with
  | top => simp [netStep, distance, hp, hstop, left]
  | getaddrinfo =>
    simp only [netStep, hp]
    split
    · simp only [distance, goto_place, hp, left]
      omega
    next m hm =>
      have hle := ha.addresses m hm
      simp only [distance, goto_place, hp, left]
      omega
  | socket left' =>
    cases left' with
    | zero => simp [netStep, distance, hp, left]
    | succ left' =>
      simp only [netStep, hp, socketStep]
      split
      · simp [distance, hp, left]
      · split
        · simp only [distance, hp, left]
          omega
        · simp [distance, hp, left]
  | connect fd left' =>
    simp only [netStep, hp]
    split
    · simp only [distance, goto_place, hp, left]
      omega
    · simp [distance, hp, left]
    · simp [distance, hp, left]
  | waiting fd left' i => simp [netStep, distance, hp, hstop, left]
  | waitPoll fd left' i =>
    simp only [netStep, hp]
    split <;> simp [distance, hp, left]
  | getsockopt fd left' =>
    simp only [netStep, hp]
    split
    · simp only [distance, goto_place, hp, left]
      omega
    · simp [distance, hp, left]
  | refused fd left' => simp [netStep, distance, hp, left]
  | getFlags fd | setFlags fd | noDelay fd => simp [netStep, distance, hp, left]
  | unreachable => simp [netStep, distance, hp, left]
  | retry i => simp [netStep, distance, hp, hstop, left]
  | connected fd | generation fd | publish fd => simp [netStep, distance, hp, left]
  | reading fd => simp [netStep, distance, hp, hstop, left]
  | poll fd =>
    simp only [netStep, hp]
    split
    · simp [distance, buffered, hp, left]
    all_goals
      simp only [distance, goto_place, hp, left]
      omega
  | recv fd =>
    simp only [netStep, hp]
    split
    next chunk hchunk =>
      have hok := ha.recv chunk hchunk
      rw [if_pos hok]
      simp only [distance, buffered, hp, left, List.length_append]
      omega
    · simp only [distance, goto_place, hp, left]
      omega
    · simp only [distance, goto_place, hp, left]
      omega
  | scan fd =>
    simp only [netStep, hp]
    unfold scanStep
    dsimp only
    split
    · simp only [distance, hp, left]
      omega
    · split
      · simp only [distance, hp, left]
        omega
      · split
        · simp only [distance, hp, left]
          omega
        · simp only [distance, buffered, hp, left]
          omega
  | lock fd =>
    simp only [netStep, hp, if_pos (h.mutex hp)]
    simp [distance, hp, left]
  | clear fd | close fd => simp [netStep, distance, hp, left]
  | unlock | closed => simp [netStep, distance, hp, left]
  | done => exact absurd hp hdone

theorem distance_eq_zero {n : Nat} {s : Threads} : distance n s = 0 ↔ s.place = .done := by
  unfold distance
  cases s.place <;> simp [left]

theorem sendStep_rest (o : SendResult) (s : Threads) :
    (s.sendStep o).place = s.place ∧ (s.sendStep o).buf = s.buf := by
  unfold sendStep
  split
  · exact ⟨rfl, rfl⟩
  · split <;> exact ⟨rfl, rfl⟩
  · split <;> exact ⟨rfl, rfl⟩
  · unfold writeStep
    split <;> exact ⟨rfl, rfl⟩
  · split <;> exact ⟨rfl, rfl⟩
  · exact ⟨rfl, rfl⟩

theorem stopped_step {n : Nat} (e : Event) (s : Threads) (he : Joining n e) (h : Stopped s) :
    Stopped (step e s) where
  held := held_step e s h.held
  stop := by
    cases e with
    | net a => exact (netStep_rest a s).1.trans h.stop
    | opens fd | closes fd =>
      rw [step]
      split
      · exact h.stop
      · exact h.stop
    | _ => exact absurd he id
  sender := by
    cases e with
    | net a => exact (netStep_rest a s).2.trans h.sender
    | opens fd | closes fd =>
      rw [step]
      split
      · exact h.sender
      · exact h.sender
    | _ => exact absurd he id

/-- The thread comes to its end. -/
theorem ends (n : Nat) :
    Ends (fun e _ => Joining n e) Stopped step ofNetwork (distance n) where
  keeps := stopped_step
  nearer := by
    intro e s he h hown hdistance
    cases e with
    | net a => exact distance_net h he fun hdone => hdistance (distance_eq_zero.mpr hdone)
    | _ => cases hown
  notFurther := by
    intro e s he h
    cases e with
    | net a =>
      by_cases hdone : s.place = .done
      · have hsame : step (.net a) s = s := by simp only [step, netStep, hdone]
        rw [hsame]
      · exact Nat.le_of_lt (distance_net h he hdone)
    | opens fd | closes fd =>
      rw [step]
      split
      · exact Nat.le_refl _
      · exact Nat.le_refl _
    | _ => exact absurd he id

/-! ## How far it can be -/

/-- What the loops have in hand. -/
def Bounded (n : Nat) (s : Threads) : Prop :=
  match s.place with
  | .socket left | .connect _ left | .waiting _ left _ | .waitPoll _ left _ | .getsockopt _ left
  | .refused _ left => left ≤ n
  | .reading _ | .poll _ | .recv _ => s.buf.length < 4 + Client.maxFrame
  | .scan _ => s.buf.length < 4 + Client.maxFrame + 8192
  | _ => True

theorem Bounded.distance_le {n : Nat} {s : Threads} (h : Bounded n s) :
    distance n s ≤ 73741 + 5 * n := by
  unfold Bounded at h
  unfold distance
  cases hp : s.place with
  | reading fd | poll fd | recv fd | scan fd =>
    rw [hp] at h
    simp only [Client.maxFrame] at h
    simp only [left, buffered, hp]
    omega
  | socket left' | connect _ left' | waiting _ left' _ | waitPoll _ left' _ | getsockopt _ left'
  | refused _ left' =>
    rw [hp] at h
    simp only at h
    simp only [left]
    omega
  | _ =>
    simp only [left]
    omega

/-- What the system may answer at any time. -/
def Regular (n : Nat) : Event → Prop
  | .net a => ∀ m, a.addresses = some m → m ≤ n
  | _ => True

theorem bounded_scan {n fd : Nat} {s : Threads} (hp : s.place = .scan fd) (h : Bounded n s) :
    Bounded n (s.scanStep fd) := by
  simp only [Bounded, hp] at h
  unfold scanStep
  dsimp only
  split
  · simp only [Bounded, List.length_drop, Client.maxFrame]
    omega
  · split
    · exact trivial
    · split
      · simp only [Bounded, List.length_drop]
        omega
      · simpa only [Bounded, hp] using h

theorem bounded_net {n : Nat} {a : Answer} {s : Threads}
    (ha : ∀ m, a.addresses = some m → m ≤ n) (h : Bounded n s) : Bounded n (s.netStep a) := by
  unfold Bounded at h
  cases hp : s.place with
  | scan fd =>
    simp only [netStep, hp]
    exact bounded_scan hp (by simpa only [Bounded, hp] using h)
  | getaddrinfo =>
    simp only [netStep, hp]
    split
    · exact trivial
    next m hm => exact ha m hm
  | socket left' =>
    rw [hp] at h
    cases left' with
    | zero =>
      simp only [netStep, hp]
      exact trivial
    | succ left' =>
      simp only [netStep, hp, socketStep]
      split
      · exact Nat.le_of_succ_le h
      · split
        · exact Nat.le_of_succ_le h
        · exact Nat.le_of_succ_le h
  | recv fd =>
    rw [hp] at h
    simp only at h
    simp only [netStep, hp]
    split
    · split
      next hok =>
        simp only [Bounded, List.length_append]
        omega
      next => simpa only [Bounded, hp] using h
    · exact h
    · exact trivial
  | connect fd left' | waitPoll fd left' i | poll fd =>
    rw [hp] at h
    simp only [netStep, hp]
    split
    all_goals first
      | exact trivial
      | exact h
  | waiting fd left' i | reading fd | getsockopt fd left' =>
    rw [hp] at h
    simp only [netStep, hp]
    split
    all_goals first
      | exact trivial
      | exact h
  | refused fd left' =>
    rw [hp] at h
    simp only [netStep, hp]
    exact h
  | publish fd =>
    simp only [netStep, hp]
    exact Nat.succ_pos _
  | top | retry i =>
    simp only [netStep, hp]
    split <;> exact trivial
  | lock fd =>
    simp only [netStep, hp]
    split
    · exact trivial
    · simp only [Bounded, hp]
  | done => simp only [netStep, Bounded, hp]
  | _ =>
    simp only [netStep, hp]
    exact trivial

theorem bounded_step {n : Nat} (e : Event) (s : Threads) (he : Regular n e) (h : Bounded n s) :
    Bounded n (step e s) := by
  cases e with
  | net a => exact bounded_net he h
  | send o =>
    have hsame := sendStep_rest o s
    unfold Bounded at h ⊢
    rw [step, hsame.1, hsame.2]
    exact h
  | call payload | drain | opens fd | closes fd =>
    rw [step]
    split
    · exact h
    · exact h
  | stop => exact h

/-! ## What it waits for -/

/-- The thread is before a system call with a timeout of 200 ms. -/
def polls (s : Threads) : Bool :=
  match s.place with
  | .waitPoll _ _ _ | .poll _ => true
  | _ => false

/-- How often it waits for one in a run. -/
def waits : List Event → Threads → Nat
  | [], _ => 0
  | e :: es, s => (if ofNetwork e && s.polls then 1 else 0) + waits es (step e s)

/-- Once `stop_` is set it does not come before another one. -/
theorem polls_net {s : Threads} (h : Stopped s) (a : Answer) : (s.netStep a).polls = false := by
  have hstop := h.stop
  cases hp : s.place with
  | waiting fd left' i | reading fd | retry i | top => simp [netStep, hp, hstop, polls, goto]
  | scan fd =>
    simp only [netStep, hp]
    unfold scanStep
    dsimp only
    split
    · rfl
    · split
      · rfl
      · split
        · rfl
        · simp only [polls, hp]
  | socket left' =>
    cases left' with
    | zero => simp [netStep, hp, polls]
    | succ left' =>
      simp only [netStep, hp, socketStep]
      split
      · rfl
      · split <;> rfl
  | recv fd =>
    simp only [netStep, hp]
    split
    · split
      · rfl
      · simp only [polls, hp]
    · rfl
    · rfl
  | lock fd =>
    simp only [netStep, hp]
    split
    · rfl
    · simp only [polls, hp]
  | getaddrinfo | connect _ _ | waitPoll _ _ _ | poll _ =>
    simp only [netStep, hp]
    split <;> rfl
  | getsockopt fd left' =>
    simp only [netStep, hp]
    split <;> rfl
  | done => simp only [netStep, hp, polls]
  | _ =>
    unfold netStep
    rw [hp]
    rfl

theorem waits_le {n : Nat} : ∀ {es : List Event} {s : Threads}, (∀ e ∈ es, Joining n e) →
    Stopped s → waits es s ≤ if s.polls then 1 else 0 := by
  intro es
  induction es with
  | nil => exact fun _ _ => Nat.zero_le _
  | cons e es ih =>
    intro s hes h
    have he := hes e List.mem_cons_self
    have hrest := ih (fun e' he' => hes e' (List.mem_cons_of_mem e he')) (stopped_step e s he h)
    rw [waits]
    cases e with
    | net a =>
      rw [show (step (.net a) s).polls = false from polls_net h a] at hrest
      simp only [ofNetwork, Bool.true_and]
      simpa using hrest
    | opens fd | closes fd =>
      refine Nat.le_trans (Nat.le_of_eq (Nat.zero_add _)) (Nat.le_trans hrest (Nat.le_of_eq ?_))
      rw [step]
      split <;> rfl
    | _ => exact absurd he id

/-! ## `stop` -/

/-- The frame thread calls `stop` when it is not in `send`. -/
theorem stopped_after {isOpen : Nat → Bool} {es : List Event}
    (hidle : (run step es (init isOpen)).sender = .idle) :
    Stopped (step .stop (run step es (init isOpen))) where
  held := held_step .stop _ (run_invariant held_step es (held_init isOpen))
  stop := rfl
  sender := hidle

/-- **`stop` ends the thread**, wherever the thread is when it is called and whatever the system
answers: after a bounded number of its steps, of which at most one waits out a timeout, `run` has
returned, and it leaves neither a descriptor nor the mutex behind. `n` bounds the number of
addresses that `getaddrinfo` finds. -/
theorem stops {n : Nat} (isOpen : Nat → Bool) {es es' : List Event}
    (hes : ∀ e ∈ es, Regular n e) (hidle : (run step es (init isOpen)).sender = .idle)
    (hes' : ∀ e ∈ es', Joining n e) :
    let s := run step es (init isOpen)
    let s' := run step es' (step .stop s)
    waits es' (step .stop s) ≤ 1 ∧
      (73741 + 5 * n ≤ es'.countP ofNetwork →
        s'.place = .done ∧ s'.fd = none ∧ s'.sendMutex = none ∧
          ∀ fd k, s'.table fd ≠ some (.socket k)) := by
  intro s s'
  have hstopped : Stopped (step .stop s) := stopped_after hidle
  have hbounded : Bounded n s :=
    run_invariant_of_meets bounded_step es (Meets.of_forall es hes) trivial
  refine ⟨Nat.le_trans (waits_le hes' hstopped) (by split <;> decide), fun hsteps => ?_⟩
  have hjoining : Meets (fun e _ => Joining n e) step es' (step .stop s) :=
    Meets.of_forall es' hes'
  have hleft : distance n (step .stop s) ≤ es'.countP ofNetwork :=
    Nat.le_trans (bounded_step .stop s trivial hbounded).distance_le hsteps
  have hdone : s'.place = .done :=
    distance_eq_zero.mp ((ends n).run hjoining hstopped hleft)
  have hend : Stopped s' := run_invariant_of_meets stopped_step es' hjoining hstopped
  have hphase : s'.shared.phase = .free := congrArg Place.phase hdone
  refine ⟨hdone, ?_, ?_, ?_⟩
  · exact hend.held.fd.trans (congrArg Phase.shown hphase)
  · cases hm : s'.sendMutex with
    | none => rfl
    | some holder =>
      cases holder with
      | network =>
        have hlocks := hend.held.network.mp hm
        rw [hphase] at hlocks
        cases hlocks
      | frame =>
        have hlocks : s'.sender.locks = true := hend.held.frame.mp hm
        rw [hend.sender] at hlocks
        cases hlocks
  · exact (safe_of_held hend.held).closed hphase

/-- The answers of a bridge that is there and sends on. -/
def answering : Answer where
  addresses := some 1
  socket := some 3
  connect := .done
  poll := .ready
  noError := true
  recv := .bytes [1]

theorem stops_whileReading :
    (run step (List.replicate 12 (.net answering)) (init fun _ => false)).place = .recv 3 ∧
      (run step (List.replicate 73746 (.net answering)) (step .stop
        (run step (List.replicate 12 (.net answering)) (init fun _ => false)))).place = .done := by
  refine ⟨rfl, ?_⟩
  -- the run itself is too long to be evaluated
  generalize hk : 73746 = k
  have hregular : ∀ e ∈ List.replicate 12 (Event.net answering), Regular 1 e := by
    intro e he
    rw [List.eq_of_mem_replicate he]
    intro m hm
    exact Nat.le_of_eq (Option.some.inj hm).symm
  have hjoining : ∀ e ∈ List.replicate k (Event.net answering), Joining 1 e := by
    intro e he
    rw [List.eq_of_mem_replicate he]
    refine ⟨fun m hm => Nat.le_of_eq (Option.some.inj hm).symm, ?_⟩
    rintro chunk ⟨⟩
    exact ⟨by decide, by decide⟩
  have hcount : (List.replicate k (Event.net answering)).countP ofNetwork = k := by
    rw [List.countP_replicate, if_pos (by rfl)]
  obtain ⟨-, hends⟩ := stops (fun _ => false) hregular rfl hjoining
  exact (hends (by rw [hcount, ← hk])).1

end Rebocap.Net.Threads
