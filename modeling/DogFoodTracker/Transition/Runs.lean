import Mathlib.Data.List.Destutter
import Mathlib.Tactic.TypeStar

/-! # Runs of a guarded step function

`step s a` is `some t` when action `a` is enabled in `s` and leads to `t`, and
`none` when it is not enabled. A run is a list of enabled actions, so one
definition serves to replay a schedule and to quantify over all of them.
-/

namespace Transition

variable {σ τ α β : Type*}

/-- The actions of a list, taken one after another. -/
inductive Runs (step : σ → α → Option σ) : σ → List α → σ → Prop where
  | done : Runs step s [] s
  | next : step s a = some t → Runs step t rest u → Runs step s (a :: rest) u

/-- Take the actions of a list one after another, if all of them are enabled. -/
def replay (step : σ → α → Option σ) (s : σ) (actions : List α) : Option σ :=
  actions.foldlM step s

/-- Every action of the list is taken in a state where `meets` allows it. -/
def Throughout (step : σ → α → Option σ) (meets : σ → α → Prop) : σ → List α → Prop
  | _, [] => True
  | s, a :: rest => meets s a ∧ ∀ t, step s a = some t → Throughout step meets t rest

/-- What an observer of the state sees from the first state to the last. -/
def observed (step : σ → α → Option σ) (see : σ → β) : σ → List α → List β
  | s, [] => [see s]
  | s, a :: rest =>
      match step s a with
      | some t => see s :: observed step see t rest
      | none => [see s]

namespace Runs

variable {step : σ → α → Option σ}

theorem append (first : Runs step s before t) (second : Runs step t after u) :
    Runs step s (before ++ after) u := by
  induction first with
  | done => exact second
  | next taken _ ih => exact .next taken (ih second)

/-- A schedule that replays is a run. -/
theorem of_replay (replayed : replay step s actions = some t) : Runs step s actions t := by
  induction actions generalizing s with
  | nil => exact Option.some.inj replayed ▸ .done
  | cons a rest ih =>
      simp only [replay, List.foldlM_cons, Option.bind_eq_bind, Option.bind_eq_some_iff] at replayed
      obtain ⟨s₁, taken, later⟩ := replayed
      exact .next taken (ih later)

theorem of_isSome (enabled : (replay step s actions).isSome = true) :
    Runs step s actions ((replay step s actions).get enabled) :=
  of_replay (Option.some_get enabled).symm

theorem single (taken : step s a = some t) : Runs step s [a] t :=
  .next taken .done

/-- A run of a concatenation passes through the state between its two parts. -/
theorem split (run : Runs step s (before ++ after) u) :
    ∃ t, Runs step s before t ∧ Runs step t after u := by
  induction before generalizing s with
  | nil => exact ⟨s, .done, run⟩
  | cons a before ih =>
      cases run with
      | next taken rest =>
          obtain ⟨t, first, second⟩ := ih rest
          exact ⟨t, .next taken first, second⟩

/-- What every enabled action keeps, a run keeps. -/
theorem invariant (Inv : σ → Prop) (keeps : ∀ s a t, Inv s → step s a = some t → Inv t)
    (run : Runs step s actions t) (start : Inv s) : Inv t := by
  induction run with
  | done => exact start
  | next taken _ ih => exact ih (keeps _ _ _ start taken)

/-- The same for an invariant that only the actions meeting a condition keep. -/
theorem invariant_throughout (Inv : σ → Prop) {meets : σ → α → Prop}
    (keeps : ∀ s a t, Inv s → meets s a → step s a = some t → Inv t)
    (run : Runs step s actions t) (met : Throughout step meets s actions)
    (start : Inv s) : Inv t := by
  induction run with
  | done => exact start
  | next taken _ ih => exact ih (met.2 _ taken) (keeps _ _ _ start met.1 taken)

/-- A condition on the actions alone holds throughout the run they make up. -/
theorem throughout_of_forall {meets : α → Prop} (all : ∀ a ∈ actions, meets a) :
    Throughout step (fun _ a => meets a) s actions := by
  induction actions generalizing s with
  | nil => trivial
  | cons a rest ih =>
      exact ⟨all a (by simp), fun _ _ => ih (fun b member => all b (List.mem_cons_of_mem _ member))⟩

end Runs

theorem Throughout.cons {step : σ → α → Option σ} {meets : σ → α → Prop} (met : meets s a)
    (taken : step s a = some t) (later : Throughout step meets t rest) :
    Throughout step meets s (a :: rest) :=
  ⟨met, fun _ taken' => Option.some.inj (taken.symm.trans taken') ▸ later⟩

instance Throughout.decidable {step : σ → α → Option σ} {meets : σ → α → Prop}
    [∀ s a, Decidable (meets s a)] :
    (actions : List α) → (s : σ) → Decidable (Throughout step meets s actions)
  | [], _ => isTrue trivial
  | a :: rest, s =>
      match taken : step s a with
      | none => decidable_of_iff (meets s a)
          ⟨fun met => ⟨met, fun _ wrong => nomatch taken.symm.trans wrong⟩, And.left⟩
      | some t =>
          have : Decidable (Throughout step meets t rest) := Throughout.decidable rest t
          decidable_of_iff (meets s a ∧ Throughout step meets t rest)
            ⟨fun met => .cons met.1 taken met.2, fun met => ⟨met.1, met.2 t taken⟩⟩

/-- Two systems related so that some actions of the first are matched by the
    second and the others are invisible to it. -/
structure Erasure (step : σ → α → Option σ) (step' : τ → α → Option τ)
    (keep : α → Bool) (Rel : σ → τ → Prop) : Prop where
  kept : ∀ s t a s', keep a = true → Rel s t → step s a = some s' →
    ∃ t', step' t a = some t' ∧ Rel s' t'
  erased : ∀ s t a s', keep a = false → Rel s t → step s a = some s' → Rel s' t

namespace Erasure

variable {step : σ → α → Option σ} {step' : τ → α → Option τ} {keep : α → Bool}
  {Rel : σ → τ → Prop}

/-- Erasing the invisible actions of a run leaves a run of the second system. -/
theorem run (erasure : Erasure step step' keep Rel) (full : Runs step s actions s')
    (start : Rel s t) : ∃ t', Runs step' t (actions.filter keep) t' ∧ Rel s' t' := by
  induction full generalizing t with
  | done => exact ⟨t, .done, start⟩
  | @next s a s₁ rest u taken _ ih =>
      cases visible : keep a with
      | true =>
          obtain ⟨t₁, taken', related⟩ := erasure.kept _ _ _ _ visible start taken
          obtain ⟨t', rest', final⟩ := ih related
          exact ⟨t', by simpa only [List.filter_cons, visible, if_true] using .next taken' rest', final⟩
      | false =>
          obtain ⟨t', rest', final⟩ := ih (erasure.erased _ _ _ _ visible start taken)
          exact ⟨t', by simpa only [List.filter_cons, visible, Bool.false_eq_true, if_false] using rest',
            final⟩

private theorem observed_cons (step : σ → α → Option σ) (see : σ → β) (s : σ) (actions : List α) :
    ∃ seen, observed step see s actions = see s :: seen := by
  cases actions with
  | nil => exact ⟨[], rfl⟩
  | cons a rest =>
      simp only [observed]
      split
      · exact ⟨_, rfl⟩
      · exact ⟨[], rfl⟩

/-- An observer who cannot tell related states apart sees the same sequence of
    values in the full run and in the erased one, up to repetitions. -/
theorem observed_destutter [DecidableEq β] {see : σ → β} {see' : τ → β}
    (erasure : Erasure step step' keep Rel) (agree : ∀ s t, Rel s t → see s = see' t)
    (full : Runs step s actions s') (start : Rel s t) :
    (observed step see s actions).destutter (· ≠ ·) =
      (observed step' see' t (actions.filter keep)).destutter (· ≠ ·) := by
  induction full generalizing t with
  | done => simp only [observed, List.filter_nil, agree _ _ start]
  | @next s a s₁ rest u taken _ ih =>
      have fullTail : observed step see s (a :: rest) = see s :: observed step see s₁ rest := by
        simp only [observed, taken]
      obtain ⟨seen, fullSeen⟩ := observed_cons step see s₁ rest
      cases visible : keep a with
      | true =>
          obtain ⟨t₁, taken', related⟩ := erasure.kept _ _ _ _ visible start taken
          obtain ⟨seen', erasedSeen⟩ := observed_cons step' see' t₁ (rest.filter keep)
          have erasedTail : observed step' see' t ((a :: rest).filter keep) =
              see' t :: observed step' see' t₁ (rest.filter keep) := by
            simp only [List.filter_cons, visible, if_true, observed, taken']
          have tails := ih related
          rw [fullTail, erasedTail, agree _ _ start]
          rw [fullSeen, erasedSeen, List.destutter_cons', List.destutter_cons'] at tails
          rw [fullSeen, erasedSeen, List.destutter_cons', List.destutter_cons',
            List.destutter'_cons, List.destutter'_cons, agree _ _ related]
          rw [agree _ _ related] at tails
          split
          · rw [tails]
          · rename_i same
            rw [not_not] at same
            rw [same, tails]
      | false =>
          have related := erasure.erased _ _ _ _ visible start taken
          have unchanged : see s = see s₁ := (agree _ _ start).trans (agree _ _ related).symm
          have erasedTail : (a :: rest).filter keep = rest.filter keep := by
            simp only [List.filter_cons, visible, Bool.false_eq_true, if_false]
          rw [fullTail, erasedTail, ← ih related, fullSeen, unchanged, List.destutter_cons',
            List.destutter_cons', List.destutter'_cons_neg _ (by simp)]

end Erasure

end Transition
