import Mathlib.Data.List.Basic

/-!
# Runs of a state machine

A machine is a step function on states. Its runs are lists of events, so every statement about
all lists of events is a statement about all runs and all states that are reached.

* `run_invariant` — what every step keeps holds after every run
* `run_invariant_of_meets` — the same for the runs whose steps all meet a condition
-/

namespace Lib

variable {σ ε : Type}

/-- The state after a run. -/
def run (step : ε → σ → σ) : List ε → σ → σ
  | [], s => s
  | e :: es, s => run step es (step e s)

@[simp] theorem run_nil (step : ε → σ → σ) (s : σ) : run step [] s = s := rfl

@[simp] theorem run_cons (step : ε → σ → σ) (e : ε) (es : List ε) (s : σ) :
    run step (e :: es) s = run step es (step e s) := rfl

theorem run_append (step : ε → σ → σ) : ∀ (es fs : List ε) (s : σ),
    run step (es ++ fs) s = run step fs (run step es s) := by
  intro es fs
  induction es with
  | nil => exact fun _ => rfl
  | cons e es ih =>
    intro s
    exact ih (step e s)

/-- **What every step keeps holds after every run.** -/
theorem run_invariant {step : ε → σ → σ} {Inv : σ → Prop}
    (hstep : ∀ e s, Inv s → Inv (step e s)) :
    ∀ (es : List ε) {s : σ}, Inv s → Inv (run step es s) := by
  intro es
  induction es with
  | nil => exact fun h => h
  | cons e es ih =>
    intro s h
    exact ih (hstep e s h)

/-! ## Runs under a condition -/

/-- Every step of a run meets `P`, in the state before the step. -/
def Meets (P : ε → σ → Prop) (step : ε → σ → σ) : List ε → σ → Prop
  | [], _ => True
  | e :: es, s => P e s ∧ Meets P step es (step e s)

instance Meets.decidable {P : ε → σ → Prop} [∀ e s, Decidable (P e s)] {step : ε → σ → σ} :
    ∀ (es : List ε) (s : σ), Decidable (Meets P step es s)
  | [], _ => isTrue trivial
  | e :: es, s => @instDecidableAnd _ _ _ (Meets.decidable es (step e s))

/-- **What the steps that meet a condition keep holds after every run of such steps.** -/
theorem run_invariant_of_meets {P : ε → σ → Prop} {step : ε → σ → σ} {Inv : σ → Prop}
    (hstep : ∀ e s, P e s → Inv s → Inv (step e s)) :
    ∀ (es : List ε) {s : σ}, Meets P step es s → Inv s → Inv (run step es s) := by
  intro es
  induction es with
  | nil => exact fun _ h => h
  | cons e es ih =>
    rintro s ⟨hp, hes⟩ h
    exact ih hes (hstep e s hp h)

/-- A condition that follows from another one in every state that is reached under it. -/
theorem Meets.imp_of_invariant {P Q : ε → σ → Prop} {step : ε → σ → σ} {Inv : σ → Prop}
    (hstep : ∀ e s, Q e s → Inv s → Inv (step e s)) (himp : ∀ e s, Inv s → Q e s → P e s) :
    ∀ (es : List ε) {s : σ}, Inv s → Meets Q step es s → Meets P step es s := by
  intro es
  induction es with
  | nil => exact fun _ _ => trivial
  | cons e es ih =>
    rintro s h ⟨hq, hes⟩
    exact ⟨himp e s h hq, ih (hstep e s hq h) hes⟩

/-- Where two conditions agree in every state that is reached under them, their runs are the
same. -/
theorem Meets.iff_of_invariant {P Q : ε → σ → Prop} {step : ε → σ → σ} {Inv : σ → Prop}
    (hstep : ∀ e s, Q e s → Inv s → Inv (step e s)) (hiff : ∀ e s, Inv s → (P e s ↔ Q e s)) :
    ∀ (es : List ε) {s : σ}, Inv s → (Meets P step es s ↔ Meets Q step es s) := by
  intro es
  induction es with
  | nil => exact fun _ => Iff.rfl
  | cons e es ih =>
    intro s h
    rw [Meets, Meets, hiff e s h]
    exact and_congr_right fun he => ih (hstep e s he h)

/-- A condition on the states that the steps lead to holds in every state that is reached. -/
theorem forall_take_iff {P : σ → Prop} {step : ε → σ → σ} :
    ∀ (es : List ε) {s : σ}, P s →
      ((∀ n, P (run step (es.take n) s)) ↔ Meets (fun e s => P (step e s)) step es s) := by
  intro es
  induction es with
  | nil =>
    intro s h
    simpa [Meets] using h
  | cons e es ih =>
    intro s h
    constructor
    · intro hall
      have hfirst : P (step e s) := by simpa using hall 1
      exact ⟨hfirst, (ih hfirst).mp fun n => hall (n + 1)⟩
    · rintro ⟨hfirst, hes⟩ n
      cases n with
      | zero => exact h
      | succ n => exact (ih hfirst).mpr hes n

/-- A condition on the events alone. -/
theorem Meets.of_forall {P : ε → Prop} {step : ε → σ → σ} :
    ∀ (es : List ε) {s : σ}, (∀ e ∈ es, P e) → Meets (fun e _ => P e) step es s := by
  intro es
  induction es with
  | nil => exact fun _ => trivial
  | cons e es ih =>
    intro s h
    exact ⟨h e List.mem_cons_self, ih fun e' he' => h e' (List.mem_cons_of_mem e he')⟩

/-- In such a run a step meets the condition in the state that the steps before it lead to. -/
theorem Meets.of_mem {P : ε → σ → Prop} {step : ε → σ → σ} {e : ε} :
    ∀ (before : List ε) {after : List ε} {s : σ}, Meets P step (before ++ e :: after) s →
      P e (run step before s) := by
  intro before
  induction before with
  | nil =>
    rintro after s ⟨hp, -⟩
    exact hp
  | cons _ before ih =>
    rintro after s ⟨-, hes⟩
    exact ih hes

theorem Meets.append_iff {P : ε → σ → Prop} {step : ε → σ → σ} : ∀ {es fs : List ε} {s : σ},
    Meets P step (es ++ fs) s ↔ Meets P step es s ∧ Meets P step fs (run step es s) := by
  intro es
  induction es with
  | nil => simp [Meets]
  | cons e es ih =>
    intro fs s
    rw [List.cons_append, Meets, Meets, ih, run_cons, and_assoc]

/-- A run whose steps all meet the condition, step by step. -/
theorem Meets.of_forall_split {P : ε → σ → Prop} {step : ε → σ → σ} : ∀ {es : List ε} {s : σ},
    (∀ before e after, es = before ++ e :: after → P e (run step before s)) →
      Meets P step es s := by
  intro es
  induction es with
  | nil => exact fun _ => trivial
  | cons e es ih =>
    intro s h
    refine ⟨h [] e es rfl, ih fun before e' after hes => ?_⟩
    exact h (e :: before) e' after (by rw [hes]; rfl)

end Lib
