import DogFoodTracker.Transition.Runs
import Mathlib.Logic.Function.Basic

/-! # Rows that keep their own state

A list is shown with one row per element. A row's state is set up from the element
when the row's identity enters the list, kept while that identity stays in consecutive
lists, and dropped when it leaves. If the identity of an element determines the state
a row starts with, and nothing the row does changes it, no row is ever stale.
-/

namespace Transition.KeyedRows

variable {α κ σ ι : Type*}

structure Row (κ σ : Type*) where
  identity : κ
  state : σ
  deriving DecidableEq, Repr

/-- The elements shown, and their rows. -/
structure State (α κ σ : Type*) where
  elements : List α
  rows : List (Row κ σ)

inductive Action (α ι : Type*) where
  | deliver (elements : List α)
  | act (position : Nat) (action : ι)

/-- How rows are made of elements and what they do by themselves. -/
structure View (α κ σ ι : Type*) where
  identity : α → κ
  initial : α → σ
  handle : ι → σ → σ

section Steps

variable [DecidableEq κ] (view : View α κ σ ι)

/-- The row of an element, given the rows there were. -/
def View.row (rows : List (Row κ σ)) (element : α) : Row κ σ :=
  match rows.find? (·.identity = view.identity element) with
  | some kept => kept
  | none => { identity := view.identity element, state := view.initial element }

def step (s : State α κ σ) : Action α ι → Option (State α κ σ)
  | .deliver elements => some { elements, rows := elements.map (view.row s.rows) }
  | .act position action =>
      if position < s.rows.length then
        some { s with rows := s.rows.modify position fun row =>
          { row with state := view.handle action row.state } }
      else none

end Steps

/-- No element yet. -/
def empty : State α κ σ where
  elements := []
  rows := []

/-- The view's own actions leave the state alone, and elements with the same identity
    start with the same state. -/
structure View.Pure (view : View α κ σ ι) : Prop where
  handle : ∀ action state, view.handle action state = state
  initial : ∀ element other, view.identity element = view.identity other →
    view.initial element = view.initial other

/-- Every row is as if it had just been made. -/
def Fresh (view : View α κ σ ι) (s : State α κ σ) : Prop :=
  s.rows = s.elements.map fun element =>
    { identity := view.identity element, state := view.initial element }

variable {view : View α κ σ ι}

theorem empty_fresh : Fresh view (empty : State α κ σ) := rfl

variable [DecidableEq κ]

/-- A row that is kept is the row that would be made now. -/
theorem row_fresh (pure : view.Pure) {s : State α κ σ} (fresh : Fresh view s) (element : α) :
    view.row s.rows element =
      { identity := view.identity element, state := view.initial element } := by
  simp only [View.row]
  split
  · rename_i kept found
    have same : kept.identity = view.identity element := by simpa using List.find?_some found
    have member := List.mem_of_find?_eq_some found
    rw [fresh, List.mem_map] at member
    obtain ⟨other, -, rfl⟩ := member
    rw [pure.initial other element same]
    exact congrArg (Row.mk · _) same
  · rfl

/-- A row's own action changes nothing. -/
theorem step_act (pure : view.Pure) {s : State α κ σ} {position : Nat}
    (inside : position < s.rows.length) (action : ι) :
    step view s (.act position action) = some s := by
  have same : (s.rows.modify position fun row : Row κ σ => row) = s.rows := List.modify_id ..
  simp only [step, inside, if_true, pure.handle, same]

theorem step_fresh (pure : view.Pure) {s t : State α κ σ} {a : Action α ι} (fresh : Fresh view s)
    (taken : step view s a = some t) : Fresh view t := by
  cases a with
  | deliver elements =>
      cases taken
      exact List.map_congr_left fun element _ => row_fresh pure fresh element
  | act position action =>
      simp only [step] at taken
      split at taken
      · cases taken
        simp only [Fresh, pure.handle]
        exact (List.modify_id ..).trans fresh
      · cases taken

/-- However the lists follow each other, no row is stale. -/
theorem run_fresh (pure : view.Pure) {t : State α κ σ} {actions : List (Action α ι)}
    (run : Runs (step view) empty actions t) : Fresh view t :=
  run.invariant (Fresh view) (fun _ _ _ fresh taken => step_fresh pure fresh taken) empty_fresh

/-- What holds of every list delivered holds of the list shown. -/
theorem run_elements (P : List α → Prop) {t : State α κ σ} {actions : List (Action α ι)}
    (run : Runs (step view) empty actions t) (start : P [])
    (delivered : ∀ elements, .deliver elements ∈ actions → P elements) : P t.elements := by
  have met : Throughout (step view) (fun _ a => ∀ elements, a = .deliver elements → P elements)
      empty actions :=
    Runs.throughout_of_forall fun a member elements same => delivered elements (same ▸ member)
  refine run.invariant_throughout (fun s => P s.elements) ?_ met start
  intro s a t holds allowed taken
  cases a with
  | deliver elements =>
      cases taken
      exact allowed elements rfl
  | act position action =>
      simp only [step] at taken
      split at taken
      · cases taken
        exact holds
      · cases taken

end Transition.KeyedRows
