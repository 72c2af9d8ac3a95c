import DogFoodTracker.Firestore.Document
import DogFoodTracker.Storage.SortedMap
import Mathlib.Data.String.Basic
import Mathlib.Data.List.Basic

/-! # Object values and field paths

What a document holds: fields by name, some of which hold fields again. A field path
leads through them. A write sets or deletes what a path leads to and makes the objects on
the way that are missing.
-/

namespace DogFoodTracker.Core

open Firestore SortedMap

inductive FieldValue where
  /-- Anything that is no array and no object. -/
  | primitive (value : Value)
  | array (values : List FieldValue)
  | object (fields : List (String × FieldValue))

abbrev FieldPath := List String

/-- The fields of an object, in the order of their names. -/
abbrev ObjectValue := List (String × FieldValue)

/-- The fields of an object that a value is, or none. -/
def FieldValue.fields : Option FieldValue → ObjectValue
  | some (.object fields) => fields
  | _ => []

def FieldValue.get : FieldPath → FieldValue → Option FieldValue
  | [], value => some value
  | name :: rest, .object fields => (find name fields).bind (get rest)
  | _ :: _, _ => none

namespace ObjectValue

def get (path : FieldPath) (object : ObjectValue) : Option FieldValue :=
  FieldValue.get path (.object object)

/-- The path is asserted not to be empty. -/
def set : FieldPath → FieldValue → ObjectValue → ObjectValue
  | [], _, object => object
  | [name], value, object => insert name value object
  | name :: second :: rest, value, object =>
      insert name (.object (set (second :: rest) value (FieldValue.fields (find name object)))) object

/-- `Delete`; a value that is no object is not made one. -/
def delete : FieldPath → ObjectValue → ObjectValue
  | [], object => object
  | [name], object => erase name object
  | name :: second :: rest, object =>
      match find name object with
      | some (.object fields) => insert name (.object (delete (second :: rest) fields)) object
      | _ => object

/-- Neither path leads through the other. -/
def Apart (path other : FieldPath) : Prop :=
  ¬ path <+: other ∧ ¬ other <+: path

instance (path other : FieldPath) : Decidable (Apart path other) :=
  inferInstanceAs (Decidable (_ ∧ _))

theorem Apart.symm {path other : FieldPath} (apart : Apart path other) : Apart other path :=
  ⟨apart.2, apart.1⟩

theorem apart_cons {name : String} {path other : FieldPath} :
    Apart (name :: path) (name :: other) ↔ Apart path other := by
  simp only [Apart, List.cons_prefix_cons, true_and]

variable {path other : FieldPath} {name : String} {value : FieldValue} {object : ObjectValue}

theorem get_cons : get (name :: path) object = (find name object).bind (FieldValue.get path) := rfl

/-- Below a name there is what its object holds, also when there is none yet. -/
theorem get_child (nonempty : path ≠ []) :
    (find name object).bind (FieldValue.get path) =
      get path (FieldValue.fields (find name object)) := by
  obtain ⟨first, rest, rfl⟩ := List.exists_cons_of_ne_nil nonempty
  cases found : find name object with
  | none => simp [FieldValue.fields, get_cons]
  | some value => cases value <;> simp [FieldValue.fields, get, FieldValue.get]

theorem get_set_self (nonempty : path ≠ []) : get path (set path value object) = some value := by
  induction path generalizing object with
  | nil => exact absurd rfl nonempty
  | cons name rest ih =>
      cases rest with
      | nil => simp [set, get_cons, FieldValue.get]
      | cons second rest =>
          rw [set, get_cons, find_insert_self]
          exact ih (List.cons_ne_nil _ _)

theorem get_set_apart (apart : Apart path other) :
    get other (set path value object) = get other object := by
  induction path generalizing object other with
  | nil => exact absurd List.nil_prefix apart.1
  | cons name rest ih =>
      cases other with
      | nil => exact absurd List.nil_prefix apart.2
      | cons first last =>
          by_cases same : name = first
          · subst same
            have below := apart_cons.mp apart
            have nonempty : last ≠ [] := by
              rintro rfl
              exact below.2 List.nil_prefix
            cases rest with
            | nil => exact absurd List.nil_prefix below.1
            | cons second rest =>
                rw [set, get_cons, find_insert_self, get_cons, get_child nonempty]
                exact ih below
          · cases rest with
            | nil => rw [set, get_cons, find_insert_other same, get_cons]
            | cons second rest => rw [set, get_cons, find_insert_other same, get_cons]

theorem get_delete_self (nonempty : path ≠ []) : get path (delete path object) = none := by
  induction path generalizing object with
  | nil => exact absurd rfl nonempty
  | cons name rest ih =>
      cases rest with
      | nil => simp [delete, get_cons]
      | cons second rest =>
          rw [delete]
          split
          · rw [get_cons, find_insert_self]
            exact ih (List.cons_ne_nil _ _)
          · rename_i other
            rw [get_cons]
            cases found : find name object with
            | none => rfl
            | some value =>
                cases value with
                | primitive | array => rfl
                | object fields => exact absurd found (other fields)

theorem get_delete_apart (apart : Apart path other) :
    get other (delete path object) = get other object := by
  induction path generalizing object other with
  | nil => exact absurd List.nil_prefix apart.1
  | cons name rest ih =>
      cases other with
      | nil => exact absurd List.nil_prefix apart.2
      | cons first last =>
          by_cases same : name = first
          · subst same
            have below := apart_cons.mp apart
            cases rest with
            | nil => exact absurd List.nil_prefix below.1
            | cons second rest =>
                rw [delete]
                split
                · rename_i fields found
                  rw [get_cons, find_insert_self, get_cons, found]
                  exact ih below
                · rfl
          · cases rest with
            | nil => rw [delete, get_cons, find_erase_other same, get_cons]
            | cons second rest =>
                rw [delete]
                split
                · rw [get_cons, find_insert_other same, get_cons]
                · rfl

end ObjectValue

end DogFoodTracker.Core
