import Rebocap.Lib.Run

/-!
# Machines that come to an end

Some of a machine's events are its own steps, the others are what its environment does. Each step of
its own brings it nearer to its end, and the environment does not move it away from there.

* `Ends.run` — after as many steps as its distance it is at its end
-/

namespace Lib

variable {σ ε : Type}

/-- `own` are the machine's own steps, `distance` says how many are left at most. -/
structure Ends (P : ε → σ → Prop) (Inv : σ → Prop) (step : ε → σ → σ) (own : ε → Bool)
    (distance : σ → Nat) : Prop where
  keeps : ∀ e s, P e s → Inv s → Inv (step e s)
  nearer : ∀ e s, P e s → Inv s → own e = true → distance s ≠ 0 →
    distance (step e s) < distance s
  notFurther : ∀ e s, P e s → Inv s → distance (step e s) ≤ distance s

variable {P : ε → σ → Prop} {Inv : σ → Prop} {step : ε → σ → σ} {own : ε → Bool}
  {distance : σ → Nat}

theorem Ends.distance_le (h : Ends P Inv step own distance) : ∀ (es : List ε) {s : σ},
    Meets P step es s → Inv s →
    distance (run step es s) = 0 ∨ distance (run step es s) + es.countP own ≤ distance s := by
  intro es
  induction es with
  | nil => exact fun _ _ => Or.inr (Nat.le_refl _)
  | cons e es ih =>
    rintro s ⟨hp, hes⟩ hinv
    rw [run_cons]
    rcases ih hes (h.keeps e s hp hinv) with hend | hleft
    · exact Or.inl hend
    · have hle := h.notFurther e s hp hinv
      cases hown : own e with
      | false =>
        rw [List.countP_cons_of_neg (by simp [hown])]
        exact Or.inr (by omega)
      | true =>
        rw [List.countP_cons_of_pos hown]
        by_cases hzero : distance s = 0
        · exact Or.inl (by omega)
        · have hlt := h.nearer e s hp hinv hown hzero
          exact Or.inr (by omega)

/-- **After as many steps of its own as its distance the machine is at its end.** -/
theorem Ends.run (h : Ends P Inv step own distance) {es : List ε} {s : σ}
    (hes : Meets P step es s) (hinv : Inv s) (hsteps : distance s ≤ es.countP own) :
    distance (Lib.run step es s) = 0 := by
  rcases h.distance_le es hes hinv with hend | hleft
  · exact hend
  · omega

end Lib
