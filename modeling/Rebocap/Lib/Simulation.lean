import Rebocap.Lib.Run

/-!
# What is seen of a run

Each step of a run shows something: the steps of another machine that it simulates, or the times at
which something is done.

* `run_trace` — where every step simulates a run of another machine, so does a run
* `run_trace_of_related` — the same for states that are related
* `Meets.trace` — and it meets what its steps meet
-/

namespace Lib

variable {σ τ ε η α : Type}

/-- What the steps of a run show, in order. -/
def trace (shown : ε → σ → List α) (step : ε → σ → σ) : List ε → σ → List α
  | [], _ => []
  | e :: es, s => shown e s ++ trace shown step es (step e s)

@[simp] theorem trace_nil (shown : ε → σ → List α) (step : ε → σ → σ) (s : σ) :
    trace shown step [] s = [] := rfl

@[simp] theorem trace_cons (shown : ε → σ → List α) (step : ε → σ → σ) (e : ε) (es : List ε)
    (s : σ) : trace shown step (e :: es) s = shown e s ++ trace shown step es (step e s) := rfl

theorem trace_append (shown : ε → σ → List α) (step : ε → σ → σ) : ∀ (es fs : List ε) (s : σ),
    trace shown step (es ++ fs) s
      = trace shown step es s ++ trace shown step fs (run step es s) := by
  intro es fs
  induction es with
  | nil => exact fun _ => rfl
  | cons e es ih =>
    intro s
    rw [List.cons_append, trace_cons, ih, trace_cons, List.append_assoc, run_cons]

section Simulation

variable {step : ε → σ → σ} {step' : η → τ → τ} {abs : σ → τ} {events : ε → σ → List η}

/-- **Where every step simulates a run of another machine, so does a run.** -/
theorem run_trace (h : ∀ e s, abs (step e s) = run step' (events e s) (abs s)) :
    ∀ (es : List ε) (s : σ), abs (run step es s) = run step' (trace events step es s) (abs s) := by
  intro es
  induction es with
  | nil => exact fun _ => rfl
  | cons e es ih =>
    intro s
    rw [run_cons, ih, trace_cons, run_append, h]

/-- **Where every step keeps the states related to those of another machine, so does a run.** -/
theorem run_trace_of_related {R : σ → τ → Prop}
    (h : ∀ e s t, R s t → R (step e s) (run step' (events e s) t)) :
    ∀ (es : List ε) {s : σ} {t : τ}, R s t →
      R (run step es s) (run step' (trace events step es s) t) := by
  intro es
  induction es with
  | nil => exact fun hr => hr
  | cons e es ih =>
    intro s t hr
    rw [run_cons, trace_cons, run_append]
    exact ih (h e s t hr)

/-- **The simulated run meets what the runs of the single steps meet.** -/
theorem Meets.trace {P : η → τ → Prop} {Q : ε → σ → Prop}
    (h : ∀ e s, abs (step e s) = run step' (events e s) (abs s))
    (hmeets : ∀ e s, Q e s → Meets P step' (events e s) (abs s)) :
    ∀ (es : List ε) {s : σ}, Meets Q step es s →
      Meets P step' (Lib.trace events step es s) (abs s) := by
  intro es
  induction es with
  | nil => exact fun _ => trivial
  | cons e es ih =>
    rintro s ⟨hq, hes⟩
    rw [trace_cons, Meets.append_iff, ← h]
    exact ⟨hmeets e s hq, ih hes⟩

end Simulation

end Lib
