import DogFoodTracker.Transition.Runs

/-! # Records of earlier states

What a state has recorded of earlier states really was there earlier in the run.
-/

namespace Transition

variable {σ α γ : Type*}

/-- Some state that the actions pass through satisfies `P`. -/
def Sometime (step : σ → α → Option σ) (P : σ → Prop) (s : σ) (actions : List α) : Prop :=
  ∃ before after t, actions = before ++ after ∧ Runs step s before t ∧ P t

theorem Sometime.next {step : σ → α → Option σ} {P : σ → Prop} (taken : step s a = some t)
    (later : Sometime step P t rest) : Sometime step P s (a :: rest) := by
  obtain ⟨before, after, u, rfl, run, holds⟩ := later
  exact ⟨a :: before, after, u, rfl, .next taken run, holds⟩

/-- If records are made only of the state they are made in, a record that a run adds is of
    a state the run passed through. -/
theorem Runs.sometime_of_recorded {step : σ → α → Option σ} (records : σ → List γ)
    (Of : γ → σ → Prop)
    (made : ∀ s a t, step s a = some t → ∀ entry ∈ records t, entry ∈ records s ∨ Of entry s)
    (run : Runs step s actions t) :
    ∀ entry ∈ records t, entry ∈ records s ∨ Sometime step (Of entry) s actions := by
  intro entry member
  induction run with
  | done => exact .inl member
  | @next s a t rest u taken _ ih =>
      rcases ih member with before | later
      · rcases made s a t taken entry before with old | new
        · exact .inl old
        · exact .inr ⟨[], a :: rest, s, rfl, .done, new⟩
      · exact .inr (later.next taken)

end Transition
