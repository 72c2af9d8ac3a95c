import DogFoodTracker.Transition.Runs
import Mathlib.Logic.Function.Basic

/-! # Copies refreshed by notifications that carry no value

A value is stored in one place and copied into views. A writer first stores and later
posts; a post queues one notification for every observer registered by then; and an
observer, when it is notified, copies what is stored at that moment. Since every writer
stores before it posts, a copy that is out of date has a post or a delivery ahead of it.
-/

namespace Transition.Notify

variable {View Writer V C : Type*}

/-- What each writer stores, and what a view makes of the stored value. -/
structure System (Writer V C : Type*) where
  value : Writer → V
  read : V → C

structure State (View Writer V C : Type*) where
  stored : V
  copy : View → C
  /-- One entry for every registration, never removed. -/
  observers : List View
  /-- The writers that have stored and not yet posted. -/
  between : List Writer
  /-- The deliveries still to come, by the view they go to. -/
  pending : List View

inductive Action (View Writer : Type*) where
  | create (view : View)
  | appear (view : View)
  | store (writer : Writer)
  | post (writer : Writer)
  | deliver (position : Nat)

variable [DecidableEq View] [DecidableEq Writer]

def step (system : System Writer V C) (s : State View Writer V C) :
    Action View Writer → Option (State View Writer V C)
  | .create view =>
      if view ∈ s.observers then none
      else some { s with copy := Function.update s.copy view (system.read s.stored) }
  | .appear view => some { s with observers := view :: s.observers }
  | .store writer =>
      some { s with stored := system.value writer, between := writer :: s.between }
  | .post writer =>
      if writer ∈ s.between then
        some { s with between := s.between.erase writer, pending := s.pending ++ s.observers }
      else none
  | .deliver position =>
      match s.pending[position]? with
      | some view =>
          some { s with
            copy := Function.update s.copy view (system.read s.stored)
            pending := s.pending.eraseIdx position }
      | none => none

/-- A view appears for the first time with an up-to-date copy. -/
def InSync (system : System Writer V C) (s : State View Writer V C) : Action View Writer → Prop
  | .appear view => view ∉ s.observers → s.copy view = system.read s.stored
  | _ => True

instance [DecidableEq C] {system : System Writer V C} (s : State View Writer V C)
    (a : Action View Writer) : Decidable (InSync system s a) :=
  match a with
  | .appear _ => inferInstanceAs (Decidable (_ → _))
  | .create _ | .store _ | .post _ | .deliver _ => isTrue trivial

/-- No writer is between its two steps and every delivery has happened. -/
def Settled (s : State View Writer V C) : Prop :=
  s.between = [] ∧ s.pending = []

/-- The copy of every observing view is up to date, or will be refreshed. -/
def Informed (system : System Writer V C) (s : State View Writer V C) : Prop :=
  ∀ view ∈ s.observers,
    s.copy view = system.read s.stored ∨ s.between ≠ [] ∨ view ∈ s.pending

variable {system : System Writer V C} {s t : State View Writer V C} {a : Action View Writer}

theorem step_informed (informed : Informed system s) (sync : InSync system s a)
    (taken : step system s a = some t) : Informed system t := by
  cases a with
  | create view =>
      simp only [step] at taken
      split at taken
      · cases taken
      · rename_i fresh
        cases taken
        intro other observing
        have different : other ≠ view := fun h => fresh (h ▸ observing)
        simp only [Function.update_of_ne different]
        exact informed other observing
  | appear view =>
      cases taken
      intro other observing
      by_cases before : other ∈ s.observers
      · exact informed other before
      · rcases List.mem_cons.mp observing with rfl | wrong
        · exact .inl (sync before)
        · exact absurd wrong before
  | store writer =>
      cases taken
      intro other _
      exact .inr (.inl (List.cons_ne_nil _ _))
  | post writer =>
      simp only [step] at taken
      split at taken
      · cases taken
        intro other observing
        exact .inr (.inr (List.mem_append_right _ observing))
      · cases taken
  | deliver position =>
      simp only [step] at taken
      split at taken
      · rename_i view next
        cases taken
        intro other observing
        by_cases here : other = view
        · subst here
          exact .inl (Function.update_self ..)
        · simp only [Function.update_of_ne here]
          -- the delivery taken out of the queue was for another view
          refine (informed other observing).imp_right (Or.imp_right fun waiting => ?_)
          obtain ⟨index, at_index⟩ := List.mem_iff_getElem?.mp waiting
          refine List.mem_eraseIdx_iff_getElem?.mpr ⟨index, fun same => here ?_, at_index⟩
          rw [same, next] at at_index
          exact (Option.some.inj at_index).symm
      · cases taken

/-- However the steps of the writers and the deliveries interleave, once all is settled
    every observing view has an up-to-date copy. -/
theorem settled_copy {actions : List (Action View Writer)} (run : Runs (step system) s actions t)
    (start : ∀ view ∈ s.observers, s.copy view = system.read s.stored)
    (sync : Throughout (step system) (InSync system) s actions) (settled : Settled t) :
    ∀ view ∈ t.observers, t.copy view = system.read t.stored := by
  have informed : Informed system t :=
    run.invariant_throughout (Informed system)
      (fun _ _ _ informed sync taken => step_informed informed sync taken) sync
      fun view observing => .inl (start view observing)
  intro view observing
  rcases informed view observing with current | busy | waiting
  · exact current
  · exact absurd settled.1 busy
  · rw [settled.2] at waiting
    cases waiting

end Transition.Notify
