import DogFoodTracker.Session.Steps
import DogFoodTracker.Transition.History
import Mathlib.Data.List.Perm.Basic

/-! # The snapshot listeners of a session and the next

`fetchData` drops the registration that `addSnapshotListener` returns, so no code can remove
a listener again. Every visit of a tab and every deletion adds to those that are there,
whoever is signed in by then.
-/

namespace DogFoodTracker.Listeners

open Transition

/-- Who calls `fetchData`: three view models on the screen, and one that `PetViewModel` keeps
    to itself. -/
inductive ViewModel where
  | homePets
  | profilePets
  | profileCaregivers
  | privatePets
  deriving DecidableEq, Repr

structure State where
  session : Session.State
  /-- Calls of `delete` without an answer yet. -/
  deletions : Nat
  /-- The active listeners, each by the view model it writes to. -/
  listeners : List ViewModel
  deriving DecidableEq, Repr

namespace State

def fetchData (s : State) (viewModel : ViewModel) : State :=
  { s with listeners := s.listeners ++ [viewModel] }

@[simp] theorem count_fetchData (s : State) (viewModel other : ViewModel) :
    (s.fetchData viewModel).listeners.count other =
      s.listeners.count other + if viewModel = other then 1 else 0 := by
  simp [fetchData, List.count_singleton]

/-- `onAppear` of `HomeView`. -/
def homeAppears (s : State) : State :=
  s.fetchData .homePets

/-- `onAppear` of `ProfileView`. -/
def profileAppears (s : State) : State :=
  (s.fetchData .profileCaregivers).fetchData .profilePets

/-- The completion in `PetViewModel.delete`. -/
def deleted (s : State) : Option String → State
  | some _ => s
  | none => s.fetchData .privatePets

end State

inductive Action where
  | session (a : Session.Action)
  | homeAppears
  | profileAppears
  | delete
  | deleted (error : Option String)
  | fail (position : Nat)
  deriving DecidableEq, Repr

def step (s : State) : Action → Option State
  | .session .relaunch =>
      match Session.step s.session .relaunch with
      | some session => some { session, deletions := 0, listeners := [] }
      | none => none
  | .session a =>
      match Session.step s.session a with
      | some session => some { s with session }
      | none => none
  | .homeAppears =>
      match s.session.contentView.body with
      | .tabView => some s.homeAppears
      | .loginView => none
  | .profileAppears =>
      match s.session.contentView.body with
      | .tabView => some s.profileAppears
      | .loginView => none
  | .delete =>
      match s.session.contentView.body with
      | .tabView => some { s with deletions := s.deletions + 1 }
      | .loginView => none
  | .deleted error =>
      match s.deletions with
      | 0 => none
      | deletions + 1 => some ({ s with deletions }.deleted error)
  | .fail position =>
      match s.listeners[position]? with
      | none => none
      | some _ => some { s with listeners := s.listeners.eraseIdx position }

/-- Everything a step can do to the listeners. -/
inductive Step (s : State) : Action → State → Prop where
  | relaunch (session : Session.State) :
      Step s (.session .relaunch) { session, deletions := 0, listeners := [] }
  | session (a : Session.Action) (other : a ≠ .relaunch) (session : Session.State) :
      Step s (.session a) { s with session }
  | homeAppears : Step s .homeAppears s.homeAppears
  | profileAppears : Step s .profileAppears s.profileAppears
  | delete (deletions : Nat) : Step s .delete { s with deletions }
  | deleted (deletions : Nat) (error : Option String) :
      Step s (.deleted error) ({ s with deletions }.deleted error)
  | fail (position : Nat) (viewModel : ViewModel)
      (active : s.listeners[position]? = some viewModel) :
      Step s (.fail position) { s with listeners := s.listeners.eraseIdx position }

theorem step_inv {s t : State} {a : Action} (taken : step s a = some t) : Step s a t := by
  cases a with
  | session a =>
      cases a with
      | relaunch => cases taken; exact .relaunch _
      | request | didSignInFor | succeed | fail | complete | deliver | logout | render =>
          simp only [step] at taken
          split at taken <;> cases taken
          exact .session _ (by simp) _
  | homeAppears | profileAppears | delete | deleted error =>
      simp only [step] at taken
      split at taken <;> cases taken
      constructor
  | fail position =>
      simp only [step] at taken
      split at taken
      · cases taken
      · rename_i viewModel active
        cases taken
        exact .fail position viewModel active

/-- As the app is installed. -/
def installed : State where
  session := Session.installed
  deletions := 0
  listeners := []

/-- What has registered or lost a listener since the app was launched. -/
structure Past where
  homeVisits : Nat
  profileVisits : Nat
  deletions : Nat
  failed : List ViewModel

namespace Past

def launched : Past where
  homeVisits := 0
  profileVisits := 0
  deletions := 0
  failed := []

def registered (past : Past) : ViewModel → Nat
  | .homePets => past.homeVisits
  | .profilePets | .profileCaregivers => past.profileVisits
  | .privatePets => past.deletions

end Past

def record (s : State) (a : Action) (past : Past) : Past :=
  match a with
  | .session .relaunch => .launched
  | .homeAppears => { past with homeVisits := past.homeVisits + 1 }
  | .profileAppears => { past with profileVisits := past.profileVisits + 1 }
  | .deleted none => { past with deletions := past.deletions + 1 }
  | .fail position => { past with failed := s.listeners[position]?.toList ++ past.failed }
  | _ => past

/-- The listeners of each view model are those it has registered, less those that failed. -/
def Counts (past : Past) (s : State) : Prop :=
  ∀ viewModel,
    s.listeners.count viewModel + past.failed.count viewModel = past.registered viewModel

/-- Neither a listener's failure nor a relaunch. -/
def Action.Keeps : Action → Prop
  | .fail _ | .session .relaunch => False
  | _ => True

theorem step_counts {past : Past} {s t : State} {a : Action} (counts : Counts past s)
    (taken : step s a = some t) : Counts (record s a past) t := by
  intro viewModel
  have before := counts viewModel
  cases step_inv taken with
  | relaunch session => cases viewModel <;> rfl
  | session a other session =>
      cases a with
      | relaunch => exact absurd rfl other
      | request | didSignInFor | succeed | fail | complete | deliver | logout | render => exact before
  | homeAppears =>
      cases viewModel <;> simp [record, State.homeAppears, Past.registered] at before ⊢ <;> omega
  | profileAppears =>
      cases viewModel <;> simp [record, State.profileAppears, Past.registered] at before ⊢ <;> omega
  | delete => exact before
  | deleted deletions error =>
      cases error with
      | some error => exact before
      | none =>
          cases viewModel <;> simp [record, State.deleted, Past.registered] at before ⊢ <;> omega
  | fail position failed active =>
      obtain ⟨inside, rfl⟩ := List.getElem?_eq_some_iff.mp active
      have erased := (List.getElem_cons_eraseIdx_perm inside).count_eq viewModel
      have told : record s (.fail position) past =
          { past with failed := s.listeners[position] :: past.failed } := by
        simp only [record, active, Option.toList_some, List.singleton_append]
      rw [told]
      simp only [List.count_cons, Past.registered] at erased before ⊢
      omega

/-- Only a failure or a relaunch takes a listener away. -/
theorem step_keeps {s t : State} {a : Action} (keeps : a.Keeps) (taken : step s a = some t) :
    s.listeners <+: t.listeners := by
  cases step_inv taken with
  | relaunch | fail => exact keeps.elim
  | session | delete => exact List.prefix_rfl
  | homeAppears => exact List.prefix_append _ _
  | profileAppears =>
      simp only [State.profileAppears, State.fetchData, List.append_assoc]
      exact List.prefix_append _ _
  | deleted deletions error =>
      cases error with
      | some error => exact List.prefix_rfl
      | none => exact List.prefix_append _ _

/-- From the launch on, each view model has the listeners of all visits and deletions less
    those that failed; no visit, deletion, login or Logout takes one away, at whatever point
    of the run. -/
theorem listeners_accumulate {s t : State} {actions : List Action} (run : Runs step s actions t) :
    (s.listeners = [] → Always step record Counts .launched s actions) ∧
      ((∀ a ∈ actions, a.Keeps) → s.listeners <+: t.listeners) := by
  constructor
  · intro none
    refine run.always Counts ?_ ?_
    · intro past s a t counts taken
      exact step_counts counts taken
    · intro viewModel
      rw [none]
      cases viewModel <;> rfl
  · intro keeps
    exact run.invariant_throughout (fun u => s.listeners <+: u.listeners)
      (fun _ _ _ before keeps taken => before.trans (step_keeps keeps taken))
      (Runs.throughout_of_forall keeps) List.prefix_rfl

private def signedUpUser : AuthUser :=
  { account := "first", displayName := none, email := some "first" }

/-- An email sign-in, both tabs, and the first tab again. -/
private def loginAndVisits : List Action :=
  [.session (.request (.email "first")), .session (.succeed 0 signedUpUser), .session (.complete 0),
    .session .deliver, .homeAppears, .profileAppears, .homeAppears]

private def logout : List Action :=
  [.session .logout, .session .deliver]

theorem listeners_accumulate_logout :
    ∃ t, Runs step installed (loginAndVisits ++ logout) t ∧
      t.session.contentView.body = .loginView ∧
      Always step record Counts .launched installed (loginAndVisits ++ logout) := by
  have run : Runs step installed (loginAndVisits ++ logout) _ := Runs.of_isSome rfl
  exact ⟨_, run, rfl, (listeners_accumulate run).1 rfl⟩

/-- One listener at most for each view model that a visible view reads from. -/
def Balanced (s : State) : Prop :=
  match s.session.contentView.body with
  | .loginView => s.listeners = []
  | .tabView => s.listeners.count .privatePets = 0 ∧ ∀ viewModel, s.listeners.count viewModel ≤ 1

/-- The second visit registers again, and Logout leaves all four listeners active. -/
theorem listeners_not_balanced :
    (∃ t, Runs step installed loginAndVisits t ∧ t.session.contentView.body = .tabView ∧
      t.listeners.count .homePets = 2 ∧ ¬ Balanced t) ∧
    ∃ t, Runs step installed (loginAndVisits ++ logout) t ∧
      t.session.contentView.body = .loginView ∧
      t.listeners = [.homePets, .profileCaregivers, .profilePets, .homePets] ∧ ¬ Balanced t := by
  constructor
  · have run : Runs step installed loginAndVisits _ := Runs.of_isSome rfl
    refine ⟨_, run, rfl, rfl, ?_⟩
    rintro ⟨-, once⟩
    exact absurd (once .homePets) (by decide)
  · have run : Runs step installed (loginAndVisits ++ logout) _ := Runs.of_isSome rfl
    refine ⟨_, run, rfl, rfl, ?_⟩
    intro none
    cases none

end DogFoodTracker.Listeners
