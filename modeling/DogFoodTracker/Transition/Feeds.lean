import DogFoodTracker.Transition.Runs
import Mathlib.Logic.Function.Basic

/-! # Many feeds of one growing history

Readers keep a published value that the callbacks of their listeners overwrite.
Each listener replays the history in order, at its own pace, and may skip
versions or report errors; a reader can register any number of them at any time.
What a reader publishes is always the version some listener of its own stands at,
so once all of them stand at the last version, so does the reader.
-/

namespace Transition.Feeds

variable {Reader Version Published : Type*}

/-- The published value, and for every listener the position in the history of the
    last version it was given. -/
structure Reading (Published : Type*) where
  published : Published
  listeners : List (Option Nat)

structure State (Reader Version Published : Type*) where
  history : List Version
  readers : Reader → Reading Published

inductive Action (Reader Version : Type*) where
  | change (version : Version)
  | listen (reader : Reader)
  | deliver (reader : Reader) (listener position : Nat)
  | error (reader : Reader) (listener : Nat)

/-- No reader has registered a listener, and each publishes `initial`. -/
def Fresh (initial : Published) (s : State Reader Version Published) : Prop :=
  ∀ reader, s.readers reader = { published := initial, listeners := [] }

/-- Every listener of the reader, and there is one, has been given the last version. -/
def CaughtUp (s : State Reader Version Published) (reader : Reader) : Prop :=
  (s.readers reader).listeners ≠ [] ∧
    ∀ listener ∈ (s.readers reader).listeners, listener = some (s.history.length - 1)

instance (s : State Reader Version Published) (reader : Reader) : Decidable (CaughtUp s reader) :=
  inferInstanceAs (Decidable (_ ∧ _))

/-- A reader publishes its initial value until its first version, and from then on
    the version one of its listeners stands at. -/
inductive Current (publish : Version → Published) (initial : Published)
    (history : List Version) (reading : Reading Published) : Prop where
  | waiting (nothing : ∀ listener ∈ reading.listeners, listener = none)
      (same : reading.published = initial)
  | standing (position : Nat) (version : Version) (stands : some position ∈ reading.listeners)
      (recorded : history[position]? = some version)
      (same : reading.published = publish version)

variable {publish : Version → Published} {initial : Published}

theorem Current.grow {history : List Version} {reading : Reading Published}
    (current : Current publish initial history reading) (version : Version) :
    Current publish initial (history ++ [version]) reading := by
  cases current with
  | waiting nothing same => exact .waiting nothing same
  | standing position version stands recorded same =>
      refine .standing position version stands ?_ same
      rw [List.getElem?_append_left]
      · exact recorded
      · exact (List.getElem?_eq_some_iff.mp recorded).1

/-- A reader all of whose listeners stand at the last version publishes it. -/
theorem Current.caughtUp {s : State Reader Version Published} {reader : Reader}
    (current : Current publish initial s.history (s.readers reader)) (caughtUp : CaughtUp s reader)
    {latest : Version} (last : s.history.getLast? = some latest) :
    (s.readers reader).published = publish latest := by
  obtain ⟨some_listener, all_last⟩ := caughtUp
  cases current with
  | waiting nothing same =>
      obtain ⟨listener, member⟩ := List.exists_mem_of_ne_nil _ some_listener
      exact nomatch (nothing listener member).symm.trans (all_last listener member)
  | standing position version stands recorded same =>
      obtain rfl : position = s.history.length - 1 := Option.some.inj (all_last _ stands)
      rw [List.getLast?_eq_getElem?, recorded] at last
      rw [same, Option.some.inj last]

section Steps

variable [DecidableEq Reader]

def State.setReading (s : State Reader Version Published) (reader : Reader)
    (reading : Reading Published) : State Reader Version Published :=
  { s with readers := Function.update s.readers reader reading }

/-- `receive` is the callback: it is given the version, or `none` for an error, and
    the value published so far. -/
def step (receive : Option Version → Published → Published)
    (s : State Reader Version Published) :
    Action Reader Version → Option (State Reader Version Published)
  | .change version => some { s with history := s.history ++ [version] }
  | .listen reader =>
      let reading := s.readers reader
      some (s.setReading reader { reading with listeners := reading.listeners ++ [none] })
  | .deliver reader listener position =>
      let reading := s.readers reader
      match reading.listeners[listener]?, s.history[position]? with
      | some last, some version =>
          -- a listener is never taken back to an earlier version
          if last.all (· ≤ position) then
            some (s.setReading reader
              { published := receive (some version) reading.published
                listeners := reading.listeners.set listener (some position) })
          else none
      | _, _ => none
  | .error reader listener =>
      let reading := s.readers reader
      if listener < reading.listeners.length then
        some (s.setReading reader { reading with published := receive none reading.published })
      else none

variable {receive : Option Version → Published → Published}

/-- A step either changes the history, or rewrites one reader, and keeps every
    reader current. -/
theorem step_current (delivered : ∀ version before, receive (some version) before = publish version)
    (failed : ∀ before, receive none before = before)
    {s t : State Reader Version Published} {a : Action Reader Version}
    (inv : ∀ reader, Current publish initial s.history (s.readers reader))
    (taken : step receive s a = some t) (reader : Reader) :
    Current publish initial t.history (t.readers reader) := by
  cases a with
  | change version =>
      cases taken
      exact (inv reader).grow version
  | listen changed =>
      cases taken
      by_cases same : reader = changed
      · subst same
        simp only [State.setReading, Function.update_self]
        cases inv reader with
        | waiting nothing same =>
            refine .waiting (fun listener member => ?_) same
            rcases List.mem_append.mp member with old | new
            · exact nothing listener old
            · exact List.mem_singleton.mp new
        | standing position version stands recorded same =>
            exact .standing position version (List.mem_append_left _ stands) recorded same
      · simpa only [State.setReading, Function.update_of_ne same] using inv reader
  | deliver changed listener position =>
      simp only [step] at taken
      split at taken
      · rename_i last version found recorded
        split at taken
        · cases taken
          by_cases same : reader = changed
          · subst same
            simp only [State.setReading, Function.update_self]
            obtain ⟨inside, -⟩ := List.getElem?_eq_some_iff.mp found
            exact .standing position version (List.mem_set inside (some position)) recorded
              (delivered version _)
          · simpa only [State.setReading, Function.update_of_ne same] using inv reader
        · cases taken
      · cases taken
  | error changed listener =>
      simp only [step] at taken
      split at taken
      · cases taken
        by_cases same : reader = changed
        · subst same
          simpa only [State.setReading, Function.update_self, failed] using inv reader
        · simpa only [State.setReading, Function.update_of_ne same] using inv reader
      · cases taken

/-- An error callback changes no published value. -/
theorem error_published (failed : ∀ before, receive none before = before)
    {s t : State Reader Version Published} {reader other : Reader} {listener : Nat}
    (taken : step receive s (.error reader listener) = some t) :
    (t.readers other).published = (s.readers other).published := by
  simp only [step] at taken
  split at taken
  · cases taken
    by_cases same : other = reader
    · subst same
      simp only [State.setReading, Function.update_self, failed]
    · simp only [State.setReading, Function.update_of_ne same]
  · cases taken

/-- A reader with one listener goes forward: a step leaves its value alone, or makes it
    that of a version no earlier than the one it had. -/
theorem step_single (delivered : ∀ version before, receive (some version) before = publish version)
    (failed : ∀ before, receive none before = before)
    {s t : State Reader Version Published} {a : Action Reader Version} {reader : Reader}
    (current : Current publish initial s.history (s.readers reader))
    (single : (s.readers reader).listeners.length = 1) (taken : step receive s a = some t) :
    (t.readers reader).published = (s.readers reader).published ∨
      ∃ (position : Nat) (version : Version), s.history[position]? = some version ∧
        (t.readers reader).published = publish version ∧
        ((s.readers reader).published = initial ∨ ∃ (before : Nat) (earlier : Version), before ≤ position ∧
          s.history[before]? = some earlier ∧ (s.readers reader).published = publish earlier) := by
  cases a with
  | change version =>
      cases taken
      exact .inl rfl
  | listen changed =>
      cases taken
      by_cases same : reader = changed
      · subst same
        simp only [State.setReading, Function.update_self, true_or]
      · simp only [State.setReading, Function.update_of_ne same, true_or]
  | error changed listener =>
      exact .inl (error_published failed taken)
  | deliver changed listener position =>
      simp only [step] at taken
      split at taken
      · rename_i last version found recorded
        split at taken
        · rename_i forward
          cases taken
          by_cases same : reader = changed
          · subst same
            refine .inr ⟨position, version, recorded, ?_, ?_⟩
            · simp only [State.setReading, Function.update_self, delivered]
            · cases current with
              | waiting nothing same => exact .inl same
              | standing before earlier stands there same =>
                  -- the only listener is the one that stands there
                  obtain ⟨only, alone⟩ := List.length_eq_one_iff.mp single
                  rw [alone] at found stands
                  obtain rfl : last = only := by
                    cases listener <;> simp_all
                  obtain rfl := List.mem_singleton.mp stands
                  exact .inr ⟨before, earlier, by simpa using forward, there, same⟩
          · simp only [State.setReading, Function.update_of_ne same, true_or]
        · cases taken
      · cases taken

/-- Only a change adds to the history, and it adds its own version. -/
theorem step_history {s t : State Reader Version Published} {a : Action Reader Version}
    (taken : step receive s a = some t) :
    t.history = s.history ∨ ∃ version, a = .change version ∧ t.history = s.history ++ [version] := by
  cases a with
  | change version =>
      cases taken
      exact .inr ⟨version, rfl, rfl⟩
  | listen reader =>
      cases taken
      exact .inl rfl
  | deliver reader listener position =>
      simp only [step] at taken
      split at taken
      · split at taken <;> cases taken
        exact .inl rfl
      · cases taken
  | error reader listener =>
      simp only [step] at taken
      split at taken <;> cases taken
      exact .inl rfl

theorem run_current (publish : Version → Published)
    (delivered : ∀ version before, receive (some version) before = publish version)
    (failed : ∀ before, receive none before = before)
    {s t : State Reader Version Published} {actions : List (Action Reader Version)}
    (fresh : Fresh initial s) (run : Runs (step receive) s actions t) (reader : Reader) :
    Current publish initial t.history (t.readers reader) := by
  refine run.invariant (fun s => ∀ reader, Current publish initial s.history (s.readers reader))
    (fun _ _ _ inv taken => step_current delivered failed inv taken) ?_ reader
  intro reader
  rw [fresh reader]
  exact .waiting (by simp) rfl

end Steps

end Transition.Feeds
