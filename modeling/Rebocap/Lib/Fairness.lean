import Rebocap.Lib.Run

/-!
# Machines that come to a goal if all of their parts go on

The events of an infinite run are of several kinds, such as the steps of the threads. In each state
one kind is helpful: such a step brings the goal nearer. The other steps do not move it away, and
they do not change which kind is helpful either.

* `Leads.eventually` — a run with infinitely many events of each kind comes to the goal
-/

namespace Lib

variable {σ ε κ : Type}

/-- The first `n` events. -/
def history (es : Nat → ε) (n : Nat) : List ε := (List.range n).map es

theorem history_succ (es : Nat → ε) (n : Nat) :
    history es (n + 1) = es 0 :: history (fun i => es (i + 1)) n := by
  rw [history, List.range_succ_eq_map, List.map_cons, List.map_map]
  rfl

/-- In each infinite rest of the run there is an event of each kind. -/
def Fair (kind : ε → κ → Prop) (es : Nat → ε) : Prop := ∀ k n, ∃ m, n ≤ m ∧ kind (es m) k

theorem Fair.tail {kind : ε → κ → Prop} {es : Nat → ε} (h : Fair kind es) (d : Nat) :
    Fair kind fun i => es (i + d) := by
  intro k n
  obtain ⟨m, hm, hkind⟩ := h k (n + d)
  obtain ⟨j, rfl⟩ := Nat.exists_eq_add_of_le' hm
  refine ⟨j + n, Nat.le_add_left n j, ?_⟩
  rw [← Nat.add_assoc] at hkind
  exact hkind

structure Leads (kind : ε → κ → Prop) (Inv goal : σ → Prop) (step : ε → σ → σ)
    (helpful : σ → κ) (rank : σ → Nat) : Prop where
  keeps : ∀ e s, Inv s → ¬goal s → goal (step e s) ∨ Inv (step e s)
  others : ∀ e s, Inv s → ¬goal s → goal (step e s) ∨ rank (step e s) < rank s ∨
    rank (step e s) = rank s ∧ helpful (step e s) = helpful s
  helps : ∀ e s, Inv s → ¬goal s → kind e (helpful s) →
    goal (step e s) ∨ rank (step e s) < rank s

variable {kind : ε → κ → Prop} {Inv goal : σ → Prop} {step : ε → σ → σ} {helpful : σ → κ}
  {rank : σ → Nat}

/-- Up to the next helpful event. -/
theorem Leads.nearer (h : Leads kind Inv goal step helpful rank) : ∀ (m : Nat) {es : Nat → ε}
    {s : σ}, Inv s → kind (es m) (helpful s) →
    ∃ n, goal (run step (history es n) s) ∨
      Inv (run step (history es n) s) ∧ rank (run step (history es n) s) < rank s := by
  intro m
  induction m with
  | zero =>
    intro es s hinv hkind
    by_cases hgoal : goal s
    · exact ⟨0, Or.inl hgoal⟩
    · refine ⟨1, ?_⟩
      rcases h.helps _ s hinv hgoal hkind with hend | hlt
      · exact Or.inl hend
      · exact (h.keeps _ s hinv hgoal).imp id fun hkeeps => ⟨hkeeps, hlt⟩
  | succ m ih =>
    intro es s hinv hkind
    by_cases hgoal : goal s
    · exact ⟨0, Or.inl hgoal⟩
    · rcases h.keeps (es 0) s hinv hgoal with hend | hkeeps
      · exact ⟨1, Or.inl hend⟩
      · rcases h.others (es 0) s hinv hgoal with hend | hlt | ⟨hrank, hhelpful⟩
        · exact ⟨1, Or.inl hend⟩
        · exact ⟨1, Or.inr ⟨hkeeps, hlt⟩⟩
        · have hlater : kind ((fun i => es (i + 1)) m) (helpful (step (es 0) s)) := by
            rw [hhelpful]
            exact hkind
          obtain ⟨n, hn⟩ := @ih (fun i => es (i + 1)) _ hkeeps hlater
          refine ⟨n + 1, ?_⟩
          rw [history_succ, run_cons, ← hrank]
          exact hn

theorem history_add (es : Nat → ε) (n n' : Nat) :
    history es (n + n') = history es n ++ history (fun i => es (i + n)) n' := by
  rw [history, List.range_add, List.map_append, List.map_map]
  congr 2
  funext i
  exact congrArg es (Nat.add_comm n i)

/-- **A run in which events of each kind happen again and again comes to the goal.** -/
theorem Leads.eventually (h : Leads kind Inv goal step helpful rank) {es : Nat → ε} {s : σ}
    (hfair : Fair kind es) (hinv : Inv s) : ∃ n, goal (run step (history es n) s) := by
  induction hr : rank s using Nat.strongRecOn generalizing es s with
  | ind r ih =>
    obtain ⟨m, -, hkind⟩ := hfair (helpful s) 0
    obtain ⟨n, hend | ⟨hinv', hlt⟩⟩ := h.nearer m hinv hkind
    · exact ⟨n, hend⟩
    · obtain ⟨n', hend⟩ := ih _ (hr ▸ hlt) (hfair.tail n) hinv' rfl
      refine ⟨n + n', ?_⟩
      rw [history_add, run_append]
      exact hend

end Lib
