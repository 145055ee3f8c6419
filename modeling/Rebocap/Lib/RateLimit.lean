import Mathlib.Tactic.Linarith
import Rebocap.Lib.Simulation

/-!
# Rate limits

A machine that does something only if a time has passed since it did it last, and then remembers
when. Its clock need not be monotonic: what is done is done at times that lie apart.

* `spaced_trace` — the times at which it is done lie apart
* `length_window_le` — how many of them a window holds
-/

namespace Lib

variable {σ ε : Type}

/-! ## Times that lie apart -/

/-- Each time lies at least `d` behind those before it. -/
def Spaced (d : Int) (ts : List Int) : Prop := ts.Pairwise fun a b => a + d ≤ b

theorem Spaced.sublist {d : Int} {ts us : List Int} (h : ts.Sublist us) (hs : Spaced d us) :
    Spaced d ts := List.Pairwise.sublist h hs

/-- The times in a stretch are as many as fit. -/
theorem Spaced.length_mul_le {d : Int} : ∀ {ts : List Int} {a b : Int}, Spaced d ts →
    (∀ t ∈ ts, a ≤ t ∧ t ≤ b) → ts ≠ [] → ((ts.length : Int) - 1) * d ≤ b - a := by
  intro ts
  induction ts with
  | nil => exact fun _ _ h => absurd rfl h
  | cons t ts ih =>
    intro a b hs hmem _
    obtain ⟨hfirst, hrest⟩ := List.pairwise_cons.mp hs
    obtain ⟨hat, htb⟩ := hmem t List.mem_cons_self
    by_cases hnil : ts = []
    · subst hnil
      simp
      omega
    · have hbetween : ∀ u ∈ ts, a + d ≤ u ∧ u ≤ b := by
        intro u hu
        have := hfirst u hu
        exact ⟨by omega, (hmem u (List.mem_cons_of_mem t hu)).2⟩
      have hle := ih hrest hbetween hnil
      rw [List.length_cons]
      push_cast
      linarith [hle]

/-- **A window of length `w` holds at most `w / d + 1` of them.** -/
theorem Spaced.length_window_le {d : Int} (hd : 0 < d) {ts : List Int} (hs : Spaced d ts)
    (a : Int) {w : Int} (hw : 0 ≤ w) :
    ((ts.filter fun t => a ≤ t ∧ t ≤ a + w).length : Int) ≤ w / d + 1 := by
  have hmem : ∀ t ∈ ts.filter (fun t => a ≤ t ∧ t ≤ a + w), a ≤ t ∧ t ≤ a + w :=
    fun t ht => by simpa using (List.mem_filter.mp ht).2
  have hspaced : Spaced d (ts.filter fun t => a ≤ t ∧ t ≤ a + w) := hs.sublist List.filter_sublist
  generalize ts.filter (fun t => a ≤ t ∧ t ≤ a + w) = us at hmem hspaced
  by_cases hnil : us = []
  · have hdiv := Int.ediv_nonneg hw (Int.le_of_lt hd)
    rw [hnil, List.length_nil]
    omega
  · have hle := hspaced.length_mul_le hmem hnil
    have hdiv : (us.length : Int) - 1 ≤ w / d := Int.le_ediv_of_mul_le hd (by omega)
    omega

/-! ## The limiter -/

/-- `last` is when it was done last: a step does it at most once, and only `d` later. -/
def Limits (d : Int) (last : σ → Int) (step : ε → σ → σ) (done : ε → σ → List Int) : Prop :=
  ∀ e s, (done e s = [] ∧ last (step e s) = last s) ∨
    ∃ t, done e s = [t] ∧ last s + d ≤ t ∧ last (step e s) = t

/-- **The times at which it is done lie apart**, and apart from the time before the run. -/
theorem spaced_trace {d : Int} (hd : 0 ≤ d) {last : σ → Int} {step : ε → σ → σ}
    {done : ε → σ → List Int} (h : Limits d last step done) : ∀ (es : List ε) (s : σ),
    Spaced d (last s :: trace done step es s) := by
  intro es
  induction es with
  | nil => exact fun s => List.pairwise_singleton _ _
  | cons e es ih =>
    intro s
    have hrest := ih (step e s)
    rw [trace_cons]
    obtain ⟨hnone, hlast⟩ | ⟨t, hdone, hle, hlast⟩ := h e s
    · rwa [hnone, List.nil_append, ← hlast]
    · rw [hlast] at hrest
      rw [hdone]
      refine List.pairwise_cons.mpr ⟨?_, hrest⟩
      intro u hu
      rcases List.mem_cons.mp hu with rfl | hu
      · exact hle
      · have := (List.pairwise_cons.mp hrest).1 u hu
        omega

/-- **A window holds at most `w / d + 1` of the times**, in every run. -/
theorem length_window_le {d : Int} (hd : 0 < d) {last : σ → Int} {step : ε → σ → σ}
    {done : ε → σ → List Int} (h : Limits d last step done) (es : List ε) (s : σ) (a : Int)
    {w : Int} (hw : 0 ≤ w) :
    (((trace done step es s).filter fun t => a ≤ t ∧ t ≤ a + w).length : Int) ≤ w / d + 1 := by
  have hs := spaced_trace (Int.le_of_lt hd) h es s
  exact Spaced.length_window_le hd (List.pairwise_cons.mp hs).2 a hw

end Lib
