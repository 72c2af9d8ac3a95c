import DogFoodTracker.Transition.Runs

/-! # What has happened in a run

A property often speaks of the past of a state: the last value confirmed, a failure not
yet acknowledged. Such a history is folded over the actions taken; the state does not
know it.
-/

namespace Transition

variable {σ α β : Type*}

/-- The history at the end of a list of actions, each recorded in the state where it is
    taken. -/
def recorded (step : σ → α → Option σ) (record : σ → α → β → β) (history : β) : σ → List α → β
  | _, [] => history
  | s, a :: rest =>
      match step s a with
      | some t => recorded step record (record s a history) t rest
      | none => history

/-- In every state that the actions pass through, `holds` relates the history to it. -/
def Always (step : σ → α → Option σ) (record : σ → α → β → β) (holds : β → σ → Prop)
    (history : β) (s : σ) (actions : List α) : Prop :=
  ∀ before after t, actions = before ++ after → Runs step s before t →
    holds (recorded step record history s before) t

section

variable {step : σ → α → Option σ} {record : σ → α → β → β} {holds : β → σ → Prop}

theorem recorded_cons (taken : step s a = some t) (history : β) (rest : List α) :
    recorded step record history s (a :: rest) =
      recorded step record (record s a history) t rest := by
  simp only [recorded, taken]

theorem always_nil {history : β} : Always step record holds history s [] ↔ holds history s := by
  constructor
  · intro always
    exact always [] [] s rfl .done
  · intro now before after t parts run
    obtain ⟨rfl, rfl⟩ := List.nil_eq_append_iff.mp parts
    cases run with
    | done => exact now

theorem always_cons {history : β} (taken : step s a = some t) :
    Always step record holds history s (a :: rest) ↔
      holds history s ∧ Always step record holds (record s a history) t rest := by
  constructor
  · intro always
    refine ⟨always [] _ s rfl .done, ?_⟩
    intro before after u parts run
    rw [← recorded_cons taken]
    exact always (a :: before) after u (by rw [parts, List.cons_append]) (.next taken run)
  · rintro ⟨now, later⟩ before after u parts run
    cases run with
    | done => exact now
    | next taken' run =>
        obtain ⟨rfl, rest_parts⟩ := List.cons_eq_cons.mp parts
        obtain rfl := Option.some.inj (taken.symm.trans taken')
        rw [recorded_cons taken]
        exact later _ after u rest_parts run

theorem Always.imp {holds' : β → σ → Prop} (weaker : ∀ history s, holds history s → holds' history s)
    {history : β} (always : Always step record holds history s actions) :
    Always step record holds' history s actions :=
  fun before after t parts run => weaker _ _ (always before after t parts run)

/-- In particular it relates the whole history to the last state. -/
theorem Always.last {history : β} (always : Always step record holds history s actions)
    (run : Runs step s actions t) : holds (recorded step record history s actions) t :=
  always actions [] t (List.append_nil actions).symm run

/-- When an action keeps `holds` exactly where `meets` allows it, a run keeps it in all its
    states exactly when its actions are all allowed. -/
theorem Runs.always_iff_throughout (holds : β → σ → Prop) {meets : σ → α → Prop}
    (exact_step : ∀ history s a t, holds history s → step s a = some t →
      (holds (record s a history) t ↔ meets s a))
    (run : Runs step s actions u) {history : β} (start : holds history s) :
    Always step record holds history s actions ↔ Throughout step meets s actions := by
  induction run generalizing history with
  | done => exact iff_of_true (always_nil.mpr start) trivial
  | @next s a t rest u taken _ ih =>
      have here := exact_step history s a t start taken
      rw [always_cons taken]
      constructor
      · rintro ⟨-, later⟩
        have kept : holds (record s a history) t := later [] rest t rfl .done
        exact .cons (here.mp kept) taken ((ih kept).mp later)
      · rintro ⟨met, later⟩
        have kept := here.mpr met
        exact ⟨start, (ih kept).mpr (later t taken)⟩

/-- What every action keeps holds in all states of a run. -/
theorem Runs.always (holds : β → σ → Prop)
    (keeps : ∀ history s a t, holds history s → step s a = some t → holds (record s a history) t)
    (run : Runs step s actions u) {history : β} (start : holds history s) :
    Always step record holds history s actions := by
  have exact_step : ∀ history s a t, holds history s → step s a = some t →
      (holds (record s a history) t ↔ True) :=
    fun history s a t now taken => iff_true_intro (keeps history s a t now taken)
  apply (run.always_iff_throughout holds exact_step start).mpr
  exact Runs.throughout_of_forall fun _ _ => trivial

end

end Transition
