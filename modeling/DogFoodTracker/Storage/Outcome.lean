import Mathlib.Logic.Basic

/-! # Code that may throw or trap, and two of them run side by side

An `Outcome` is what a piece of stateful code leaves behind: a value, an error, or a
trap that ends everything. The second part relates the outcomes of two programs over
different states, with one rule for each way the programs are put together.
-/

inductive Outcome (ε σ α : Type*) where
  | ok (value : α) (state : σ)
  | thrown (error : ε) (state : σ)
  | trap
  deriving DecidableEq, Repr

namespace Outcome

variable {ε σ τ α β γ δ : Type*}

/-- A result with no state of its own, in a state. -/
def ofExcept (result : Except ε α) (state : σ) : Outcome ε σ α :=
  match result with
  | .ok value => .ok value state
  | .error error => .thrown error state

def bind (first : Outcome ε σ α) (next : α → σ → Outcome ε σ β) : Outcome ε σ β :=
  match first with
  | .ok value state => next value state
  | .thrown error state => .thrown error state
  | .trap => .trap

/-- `do { try first } catch {}`, and then the rest. -/
def recover (first : Outcome ε σ Unit) (next : σ → Outcome ε σ α) : Outcome ε σ α :=
  match first with
  | .ok _ state | .thrown _ state => next state
  | .trap => .trap

/-- Leave a scope, with or without an error; what runs on the way out may itself trap. -/
def leave (inner : Outcome ε σ α) (exit : σ → Option τ) : Outcome ε τ α :=
  match inner with
  | .ok value state =>
      match exit state with
      | some state => .ok value state
      | none => .trap
  | .thrown error state =>
      match exit state with
      | some state => .thrown error state
      | none => .trap
  | .trap => .trap

@[simp] theorem leave_some (inner : Outcome ε σ α) : inner.leave some = inner := by
  cases inner <;> rfl

/-! ## Side by side -/

/-- The two outcomes are of one sort, with the same error, and related by `good` when they
    are values and by `bad` when they are errors. -/
inductive Matches (good : α → σ → β → τ → Prop) (bad : σ → τ → Prop) :
    Outcome ε σ α → Outcome ε τ β → Prop where
  | ok {a : α} {s : σ} {b : β} {t : τ} (related : good a s b t) : Matches good bad (.ok a s) (.ok b t)
  | thrown (error : ε) {s : σ} {t : τ} (related : bad s t) :
      Matches good bad (.thrown error s) (.thrown error t)
  | trap : Matches good bad .trap .trap

namespace Matches

variable {good : α → σ → β → τ → Prop} {bad : σ → τ → Prop} {first : Outcome ε σ α}
  {first' : Outcome ε τ β}

theorem mono {good' : α → σ → β → τ → Prop} {bad' : σ → τ → Prop}
    (matched : Matches good bad first first') (values : ∀ a s b t, good a s b t → good' a s b t)
    (errors : ∀ s t, bad s t → bad' s t) : Matches good' bad' first first' := by
  cases matched with
  | ok related => exact .ok (values _ _ _ _ related)
  | thrown error related => exact .thrown error (errors _ _ related)
  | trap => exact .trap

theorem bind {good' : γ → σ → δ → τ → Prop} {bad' : σ → τ → Prop}
    {next : α → σ → Outcome ε σ γ} {next' : β → τ → Outcome ε τ δ}
    (matched : Matches good bad first first') (errors : ∀ s t, bad s t → bad' s t)
    (rest : ∀ a s b t, good a s b t → Matches good' bad' (next a s) (next' b t)) :
    Matches good' bad' (first.bind next) (first'.bind next') := by
  cases matched with
  | ok related => exact rest _ _ _ _ related
  | thrown error related => exact .thrown error (errors _ _ related)
  | trap => exact .trap

/-- Where errors are caught, what follows has to match after an error too. -/
theorem recover {good : Unit → σ → Unit → τ → Prop} {good' : γ → σ → δ → τ → Prop}
    {bad' : σ → τ → Prop} {first : Outcome ε σ Unit} {first' : Outcome ε τ Unit}
    {next : σ → Outcome ε σ γ} {next' : τ → Outcome ε τ δ} (matched : Matches good bad first first')
    (values : ∀ s t, good () s () t → Matches good' bad' (next s) (next' t))
    (errors : ∀ s t, bad s t → Matches good' bad' (next s) (next' t)) :
    Matches good' bad' (first.recover next) (first'.recover next') := by
  cases matched with
  | ok related => exact values _ _ related
  | thrown error related => exact errors _ _ related
  | trap => exact .trap

/-- A scope that does not trap on its way out. -/
theorem leave {σ' τ' : Type*} {good' : α → σ' → β → τ' → Prop} {bad' : σ' → τ' → Prop}
    {exit : σ → Option σ'} {exit' : τ → Option τ'} (matched : Matches good bad first first')
    (values : ∀ a s b t, good a s b t → ∃ s' t', exit s = some s' ∧ exit' t = some t' ∧ good' a s' b t')
    (errors : ∀ s t, bad s t → ∃ s' t', exit s = some s' ∧ exit' t = some t' ∧ bad' s' t') :
    Matches good' bad' (first.leave exit) (first'.leave exit') := by
  cases matched with
  | ok related =>
      obtain ⟨s', t', left, right, related⟩ := values _ _ _ _ related
      simp only [Outcome.leave, left, right]
      exact .ok related
  | thrown error related =>
      obtain ⟨s', t', left, right, related⟩ := errors _ _ related
      simp only [Outcome.leave, left, right]
      exact .thrown error related
  | trap => exact .trap

/-- A scope on one side only. -/
theorem leave_right {τ' : Type*} {good' : α → σ → β → τ' → Prop} {bad' : σ → τ' → Prop}
    {exit' : τ → Option τ'} (matched : Matches good bad first first')
    (values : ∀ a s b t, good a s b t → ∃ t', exit' t = some t' ∧ good' a s b t')
    (errors : ∀ s t, bad s t → ∃ t', exit' t = some t' ∧ bad' s t') :
    Matches good' bad' first (first'.leave exit') := by
  rw [← leave_some first]
  apply matched.leave
  · intro a s b t related
    obtain ⟨t', right, related⟩ := values a s b t related
    exact ⟨s, t', rfl, right, related⟩
  · intro s t related
    obtain ⟨t', right, related⟩ := errors s t related
    exact ⟨s, t', rfl, right, related⟩

end Matches

end Outcome
