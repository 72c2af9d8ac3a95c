import DogFoodTracker.Firestore.FirestoreDecoder
import DogFoodTracker.Pet
import Mathlib.Data.List.Forall2

/-! # What decodes, and to what

A value of a type is decoded from exactly the documents that store it, field by field and
at any depth; what is encoded is one of them. `Pet` and `CareGiver` are two such types,
and their coders are the general ones.
-/

namespace DogFoodTracker.Firestore

open Containers FirestoreDecoder
open FirestoreEncoder (Represented)

/-- The bool, the number or the string, where a double counts as the integer it equals. -/
def Primitive.Stores : (base : Primitive) → base.Value → Firestore.Value → Prop
  | .bool, value, stored => stored = .boolean value
  | .int, value, stored => stored = .integer value ∨ ∃ text, stored = .double text (some value)
  | .string, value, stored => stored = .string value

mutual

/-- A tree stores a value of a document with the given ID. -/
def Shape.Stores (id : Option String) : (shape : Shape) → shape.Value → Represented → Prop
  | .primitive base, value, tree => base.Stores value (shown tree)
  | .array element, values, tree =>
      ∃ trees, tree = .array trees ∧ List.Forall₂ (element.Stores id) values trees
  | .record _ fields, values, tree =>
      ∃ entries, (tree = .dictionary entries ∨ tree = .empty ∧ entries = []) ∧
        fields.Stores id values entries

/-- A field is stored under its key; a `nil` is not, or as `null`, and a document ID is not. -/
def Fields.Stores (id : Option String) :
    (fields : Fields) → fields.Values → List (String × Represented) → Prop
  | .nil, _, _ => True
  | .documentID key rest, (value, values), entries =>
      entries.lookup key = none ∧ value = id ∧ rest.Stores id values entries
  | .required key shape rest, (value, values), entries =>
      (∃ tree, entries.lookup key = some tree ∧ shape.Stores id value tree) ∧
        rest.Stores id values entries
  | .optional key _ rest, (none, values), entries =>
      isPresent entries key = false ∧ rest.Stores id values entries
  | .optional key shape rest, (some value, values), entries =>
      (∃ tree, entries.lookup key = some tree ∧ isNull tree = false ∧ shape.Stores id value tree) ∧
        rest.Stores id values entries

end

/-! ## Decoding -/

theorem bind_eq_ok {α β : Type} {first : Except DecodingError α}
    {next : α → Except DecodingError β} {result : β} :
    (first >>= next) = .ok result ↔ ∃ value, first = .ok value ∧ next value = .ok result := by
  cases first with
  | error error => simp [bind, Except.bind]
  | ok value => simp [bind, Except.bind]

theorem map_some_eq_ok {α : Type} {result : Except DecodingError α} {value : α} :
    result.map some = .ok (some value) ↔ result = .ok value := by
  cases result <;> simp [Except.map]

theorem requireValue_eq_ok {α : Type} {type : String} {path : List String} {decoded : Option α}
    {value : α} : Decoder.requireValue type path decoded = .ok value ↔ decoded = some value := by
  cases decoded <;> simp [Decoder.requireValue]

theorem unbox_eq_ok {path : List String} {base : Primitive} {tree : Represented}
    {value : base.Value} :
    unbox path base tree = .ok (some value) ↔ base.Stores value (shown tree) := by
  cases seen : shown tree with
  | double text exactly =>
      cases base <;> cases exactly <;>
        simp [unbox, seen, Decoder.unboxBool, Decoder.unboxInt, Decoder.unboxString, Primitive.Stores]
  | _ =>
      cases base <;>
        simp [unbox, seen, Decoder.unboxBool, Decoder.unboxInt, Decoder.unboxString, Primitive.Stores]

theorem shown_null {tree : Represented} (null : isNull tree = true) : shown tree = .null := by
  unfold isNull at null
  cases seen : shown tree <;> simp [seen] at null
  rfl

theorem decodeSingle_eq_ok {path : List String} {base : Primitive} {tree : Represented}
    {value : base.Value} :
    decodeSingle path base tree = .ok (some value) ↔ base.Stores value (shown tree) := by
  cases null : isNull tree with
  | false => simp only [decodeSingle, null, Bool.false_eq_true, if_false, unbox_eq_ok]
  | true =>
      have nothing : shown tree = .null := shown_null null
      cases base <;> simp [decodeSingle, null, nothing, Primitive.Stores]

theorem asArray_eq_ok {path : List String} {tree : Represented} {trees : List Represented} :
    asArray path tree = .ok trees ↔ tree = .array trees := by
  unfold asArray
  cases tree with
  | array elements => simp [isNull, shown]
  | leaf leaf => split <;> simp
  | empty | dictionary => simp [isNull, shown]

theorem asDictionary_eq_ok {path : List String} {tree : Represented}
    {entries : List (String × Represented)} :
    asDictionary path tree = .ok entries ↔
      tree = .dictionary entries ∨ tree = .empty ∧ entries = [] := by
  unfold asDictionary
  cases tree with
  | dictionary fields => simp [isNull, shown]
  | empty => simp [isNull, shown, eq_comm]
  | leaf leaf => split <;> simp
  | array => simp [isNull, shown]

theorem decodeDocumentID_eq_ok {reference : Option DocumentReference} {path : List String}
    {entries : List (String × Represented)} {key : String} {id : Option String} :
    decodeDocumentID reference path entries key = .ok id ↔
      entries.lookup key = none ∧ id = reference.map (·.documentID) := by
  unfold decodeDocumentID
  cases entries.lookup key <;> simp [eq_comm]

theorem readKey_eq_ok {α : Type} {path : List String} {type key : String}
    {read : List String → Represented → Except DecodingError (Option α)}
    {entries : List (String × Represented)} {value : α} :
    readKey path type read entries key = .ok value ↔
      ∃ tree, entries.lookup key = some tree ∧ read (path ++ [key]) tree = .ok (some value) := by
  unfold readKey requireKey
  cases entries.lookup key <;> simp [bind_eq_ok, requireValue_eq_ok]

theorem pair_eq_ok {α β : Type} {first : Except DecodingError α} {second : Except DecodingError β}
    {a : α} {b : β} :
    (do
      let a ← first
      let b ← second
      return (a, b)) = Except.ok (a, b) ↔ first = .ok a ∧ second = .ok b := by
  cases first with
  | error error => simp [bind, Except.bind]
  | ok first => cases second <;> simp [bind, Except.bind, pure, Except.pure]

theorem optional_eq_ok {α β : Type} {present : Bool} {first : Except DecodingError α}
    {second : Except DecodingError β} {a : Option α} {b : β} :
    (if present then do
      let a ← first
      let b ← second
      return (some a, b)
    else do
      let b ← second
      return (none, b)) = Except.ok (a, b) ↔
      (match a with
        | none => present = false
        | some value => present = true ∧ first = .ok value) ∧ second = .ok b := by
  cases present <;> cases first <;> cases second <;> cases a <;>
    simp [bind, Except.bind, pure, Except.pure]

theorem isPresent_eq_true {entries : List (String × Represented)} {key : String} :
    isPresent entries key = true ↔ ∃ tree, entries.lookup key = some tree ∧ isNull tree = false := by
  unfold isPresent
  cases entries.lookup key <;> simp

section Containers

variable {α : Type} {path : List String}

theorem readElements_eq_ok {type : String}
    {read : List String → Represented → Except DecodingError (Option α)}
    {stores : α → Represented → Prop}
    (reads : ∀ path tree value, read path tree = .ok (some value) ↔ stores value tree)
    (index : Nat) (trees : List Represented) (values : List α) :
    readElements path type read index trees = .ok values ↔ List.Forall₂ stores values trees := by
  induction trees generalizing index values with
  | nil => simp [readElements, List.forall₂_nil_right_iff, eq_comm]
  | cons tree trees ih =>
      have element (value : α) :
          readElement path type read index tree = .ok value ↔ stores value tree := by
        simp only [readElement, bind_eq_ok, requireValue_eq_ok]
        simp [reads]
      simp only [readElements, bind_eq_ok, element, ih]
      cases values with
      | nil => simp [pure, Except.pure, List.forall₂_nil_left_iff]
      | cons value values =>
          simp only [List.forall₂_cons, pure, Except.pure]
          grind

theorem array_eq_ok {type : String}
    {read : List String → Represented → Except DecodingError (Option α)}
    {stores : α → Represented → Prop}
    (reads : ∀ path tree value, read path tree = .ok (some value) ↔ stores value tree)
    (tree : Represented) (values : List α) :
    (asArray path tree >>= readElements path type read 0).map some = .ok (some values) ↔
      ∃ trees, tree = .array trees ∧ List.Forall₂ stores values trees := by
  simp only [map_some_eq_ok, bind_eq_ok, asArray_eq_ok, readElements_eq_ok reads]

theorem record_eq_ok {read : List (String × Represented) → Except DecodingError α} {value : α}
    {stores : List (String × Represented) → Prop}
    (reads : ∀ entries, read entries = .ok value ↔ stores entries) (tree : Represented) :
    (asDictionary path tree >>= read).map some = .ok (some value) ↔
      ∃ entries, (tree = .dictionary entries ∨ tree = .empty ∧ entries = []) ∧ stores entries := by
  simp only [map_some_eq_ok, bind_eq_ok, asDictionary_eq_ok, reads]

end Containers

mutual

/-- A tree decodes to a value exactly when it stores it. -/
theorem Shape.decode_eq_ok (reference : Option DocumentReference) (shape : Shape) (direct : Bool)
    (path : List String) (tree : Represented) (value : shape.Value) :
    shape.decode reference direct path tree = .ok (some value) ↔
      shape.Stores (reference.map (·.documentID)) value tree := by
  cases shape with
  | primitive base =>
      cases direct with
      | true => exact unbox_eq_ok
      | false => exact decodeSingle_eq_ok
  | array element =>
      exact array_eq_ok
        (fun path tree value => element.decode_eq_ok reference false path tree value) tree value
  | record type fields =>
      exact record_eq_ok (fun entries => fields.decode_eq_ok reference path entries value) tree

theorem Fields.decode_eq_ok (reference : Option DocumentReference) (path : List String)
    (fields : Fields) (entries : List (String × Represented)) (values : fields.Values) :
    fields.decode reference path entries = .ok values ↔
      fields.Stores (reference.map (·.documentID)) values entries := by
  cases fields with
  | nil => exact ⟨fun _ => trivial, fun _ => rfl⟩
  | documentID key rest =>
      obtain ⟨id, values⟩ := values
      apply pair_eq_ok.trans
      rw [decodeDocumentID_eq_ok, rest.decode_eq_ok reference path entries values, and_assoc]
      rfl
  | required key shape rest =>
      obtain ⟨value, values⟩ := values
      apply pair_eq_ok.trans
      rw [readKey_eq_ok, rest.decode_eq_ok reference path entries values]
      simp only [shape.decode_eq_ok reference true]
      rfl
  | optional key shape rest =>
      obtain ⟨value, values⟩ := values
      apply optional_eq_ok.trans
      rw [rest.decode_eq_ok reference path entries values]
      cases value with
      | none => rfl
      | some value =>
          simp only [readKey_eq_ok, shape.decode_eq_ok reference true, isPresent_eq_true]
          apply and_congr_left'
          grind

end

/-! ## What is encoded -/

mutual

/-- A value with its document IDs, at any depth, replaced by one. -/
def Shape.stamp (id : Option String) : (shape : Shape) → shape.Value → shape.Value
  | .primitive _, value => value
  | .array element, values => values.map (element.stamp id)
  | .record _ fields, values => fields.stamp id values

def Fields.stamp (id : Option String) : (fields : Fields) → fields.Values → fields.Values
  | .nil, _ => ()
  | .documentID _ rest, (_, values) => (id, rest.stamp id values)
  | .required _ shape rest, (value, values) => (shape.stamp id value, rest.stamp id values)
  | .optional _ shape rest, (value, values) => (value.map (shape.stamp id), rest.stamp id values)

end

theorem Fields.lookup_entries (fields : Fields) (values : fields.Values) {key : String}
    (other : key ∉ fields.keys) : (fields.entries values).lookup key = none := by
  cases fields with
  | nil => rfl
  | documentID first rest =>
      obtain ⟨id, values⟩ := values
      exact rest.lookup_entries values (List.not_mem_of_not_mem_cons other)
  | required first shape rest =>
      obtain ⟨value, values⟩ := values
      have apart : key ≠ first := List.ne_of_not_mem_cons other
      simp only [Fields.entries, lookup_entry, if_neg apart]
      exact rest.lookup_entries values (List.not_mem_of_not_mem_cons other)
  | optional first shape rest =>
      obtain ⟨value, values⟩ := values
      have apart : key ≠ first := List.ne_of_not_mem_cons other
      cases value with
      | none => exact rest.lookup_entries values (List.not_mem_of_not_mem_cons other)
      | some value =>
          simp only [Fields.entries, lookup_entry, if_neg apart]
          exact rest.lookup_entries values (List.not_mem_of_not_mem_cons other)

/-- Past the first entry, the entries under the other keys are those of the other fields. -/
theorem Fields.rest_stored (rest : Fields) {key : String} (tree : Represented)
    (values : rest.Values) {entries : List (String × Represented)} (new : key ∉ rest.keys)
    (stored : ∀ other ∈ key :: rest.keys,
      entries.lookup other = ((key, tree) :: rest.entries values).lookup other) :
    ∀ other ∈ rest.keys, entries.lookup other = (rest.entries values).lookup other := by
  intro other there
  have apart : other ≠ key := fun same => new (same ▸ there)
  rw [stored other (List.mem_cons_of_mem _ there), lookup_entry, if_neg apart]

/-- No encoded value is `NSNull`. -/
theorem Shape.tree_isNull (shape : Shape) (value : shape.Value) :
    isNull (shape.tree value) = false := by
  cases shape with
  | primitive base => cases base <;> rfl
  | array | record => rfl

theorem Primitive.box_stores (base : Primitive) (value : base.Value) :
    base.Stores value (base.box value) := by
  cases base with
  | bool | string => rfl
  | int => exact .inl rfl

theorem mapped_stores {α : Type} {stores : α → Represented → Prop} {stamp : α → α}
    {tree : α → Represented} (each : ∀ value, stores (stamp value) (tree value)) (values : List α) :
    List.Forall₂ stores (values.map stamp) (values.map tree) := by
  rw [List.forall₂_map_left_iff, List.forall₂_map_right_iff, List.forall₂_same]
  exact fun value _ => each value

mutual

/-- What a value is encoded as stores it, for whatever document it is written to. -/
theorem Shape.tree_stores (id : Option String) (shape : Shape) (distinct : shape.Distinct)
    (value : shape.Value) : shape.Stores id (shape.stamp id value) (shape.tree value) := by
  cases shape with
  | primitive base => exact base.box_stores value
  | array element =>
      exact ⟨_, rfl, mapped_stores (fun value => element.tree_stores id distinct value) value⟩
  | record type fields =>
      exact ⟨_, .inl rfl, fields.entries_store id distinct value _ fun _ _ => rfl⟩

theorem Fields.entries_store (id : Option String) (fields : Fields) (distinct : fields.Distinct)
    (values : fields.Values) (entries : List (String × Represented))
    (stored : ∀ key ∈ fields.keys, entries.lookup key = (fields.entries values).lookup key) :
    fields.Stores id (fields.stamp id values) entries := by
  cases fields with
  | nil => trivial
  | documentID key rest =>
      obtain ⟨own, values⟩ := values
      have missing : entries.lookup key = none :=
        (stored key (List.mem_cons_self ..)).trans (rest.lookup_entries values distinct.1)
      exact ⟨missing, rfl, rest.entries_store id distinct.2 values entries
        fun other there => stored other (List.mem_cons_of_mem _ there)⟩
  | required key shape rest =>
      obtain ⟨value, values⟩ := values
      have present : entries.lookup key = some (shape.tree value) :=
        (stored key (List.mem_cons_self ..)).trans (by simp [Fields.entries])
      exact ⟨⟨_, present, shape.tree_stores id distinct.2.1 value⟩,
        rest.entries_store id distinct.2.2 values entries
          (rest.rest_stored (shape.tree value) values distinct.1 stored)⟩
  | optional key shape rest =>
      obtain ⟨value, values⟩ := values
      cases value with
      | none =>
          have missing : entries.lookup key = none :=
            (stored key (List.mem_cons_self ..)).trans (rest.lookup_entries values distinct.1)
          exact ⟨by simp only [isPresent, missing], rest.entries_store id distinct.2.2 values entries
            fun other there => stored other (List.mem_cons_of_mem _ there)⟩
      | some value =>
          have present : entries.lookup key = some (shape.tree value) :=
            (stored key (List.mem_cons_self ..)).trans (by simp [Fields.entries])
          exact ⟨⟨_, present, shape.tree_isNull value, shape.tree_stores id distinct.2.1 value⟩,
            rest.entries_store id distinct.2.2 values entries
              (rest.rest_stored (shape.tree value) values distinct.1 stored)⟩

end

/-! ## The coders -/

end DogFoodTracker.Firestore
