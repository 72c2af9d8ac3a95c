import DogFoodTracker.Firestore.Representation

/-! # Types with synthesised coders

The types a `Codable` struct can be made of when the compiler writes its coders, and
what the written `encode(to:)` comes to: a dictionary with one entry for each field that
is stored, in order.
-/

namespace DogFoodTracker.Firestore

open Containers FirestoreEncoder

inductive Primitive where
  | bool
  | int
  | string
  deriving DecidableEq, Repr

namespace Primitive

abbrev Value : Primitive → Type
  | .bool => Bool
  | .int => Int64
  | .string => String

/-- How the type prints. -/
def name : Primitive → String
  | .bool => "Bool"
  | .int => "Int"
  | .string => "String"

/-- `box`. -/
def box : (primitive : Primitive) → primitive.Value → Firestore.Value
  | .bool, value => .boolean value
  | .int, value => .integer value
  | .string, value => .string value

end Primitive

mutual

inductive Shape where
  | primitive (base : Primitive)
  | array (element : Shape)
  | record (type : String) (fields : Fields)

/-- The stored properties of a struct, with their coding keys. -/
inductive Fields where
  | nil
  /-- `@DocumentID var key: String?`. -/
  | documentID (key : String) (rest : Fields)
  | required (key : String) (shape : Shape) (rest : Fields)
  /-- `var key: Shape?`. -/
  | optional (key : String) (shape : Shape) (rest : Fields)

end

mutual

def Shape.Value : Shape → Type
  | .primitive base => base.Value
  | .array element => List element.Value
  | .record _ fields => fields.Values

def Fields.Values : Fields → Type
  | .nil => Unit
  | .documentID _ rest => Option String × rest.Values
  | .required _ shape rest => shape.Value × rest.Values
  | .optional _ shape rest => Option shape.Value × rest.Values

end

def Fields.keys : Fields → List String
  | .nil => []
  | .documentID key rest | .required key _ rest | .optional key _ rest => key :: rest.keys

mutual

/-- The compiler gives no two fields of a struct the same coding key. -/
def Shape.Distinct : Shape → Prop
  | .primitive _ => True
  | .array element => element.Distinct
  | .record _ fields => fields.Distinct

def Fields.Distinct : Fields → Prop
  | .nil => True
  | .documentID key rest => key ∉ rest.keys ∧ rest.Distinct
  | .required key shape rest | .optional key shape rest =>
      key ∉ rest.keys ∧ shape.Distinct ∧ rest.Distinct

end

/-! ## `encode(to:)` -/

/-- The keyed container has an `encode` of its own for a number or a string. -/
def Shape.call (key : String) : (shape : Shape) → shape.Value → Encodable → Calls .keyed → Calls .keyed
  | .primitive base, value, _, rest => .boxed (.key key) (base.box value) rest
  | _, _, encodable, rest => .encode (.key key) encodable rest

mutual

/-- A value where its type is only known to be `Encodable`, as the elements of an array are. -/
def Shape.encodable : (shape : Shape) → shape.Value → Encodable
  | .primitive base, value => .custom (.boxed (base.box value) .done)
  | .array element, values =>
      .custom (.container .unkeyed
        (values.foldr (fun value => .encode .next (element.encodable value)) .done) .done)
  | .record _ fields, values => .custom (.container .keyed (fields.calls values) .done)

def Fields.calls : (fields : Fields) → fields.Values → Calls .keyed
  | .nil, _ => .done
  | .documentID key rest, (_, values) => .encode (.key key) .documentID (rest.calls values)
  | .required key shape rest, (value, values) =>
      shape.call key value (shape.encodable value) (rest.calls values)
  | .optional _ _ rest, (none, values) => rest.calls values
  | .optional key shape rest, (some value, values) =>
      shape.call key value (shape.encodable value) (rest.calls values)

end

/-! ## What is stored -/

mutual

def Shape.tree : (shape : Shape) → shape.Value → Represented
  | .primitive base, value => .leaf (.plain (base.box value))
  | .array element, values => .array (values.map element.tree)
  | .record _ fields, values => .dictionary (fields.entries values)

/-- An entry for each field that is not a document ID and not `nil`. -/
def Fields.entries : (fields : Fields) → fields.Values → List (String × Represented)
  | .nil, _ => []
  | .documentID _ rest, (_, values) => rest.entries values
  | .required key shape rest, (value, values) => (key, shape.tree value) :: rest.entries values
  | .optional _ _ rest, (none, values) => rest.entries values
  | .optional key shape rest, (some value, values) =>
      (key, shape.tree value) :: rest.entries values

end

theorem Shape.encodable_ignored (shape : Shape) (value : shape.Value) {kind : Kind}
    (slot : Slot String kind) : (shape.encodable value).ignored slot = false := by
  cases shape <;> cases slot <;> rfl

/-- Both ways to encode a field set its entry. -/
theorem Shape.call_represent (key : String) (shape : Shape) (value : shape.Value)
    (rest : Calls .keyed) (tree : Represented)
    (encoded : (shape.encodable value).represent = .ok (some (shape.tree value)) ()) :
    (shape.call key value (shape.encodable value) rest).represent tree =
      rest.represent (tree.put (.key key) (shape.tree value)) := by
  cases shape with
  | primitive base => simp only [Shape.call, Calls.represent, Shape.tree]
  | array | record =>
      simp only [Shape.call, Calls.represent, Shape.encodable_ignored, encoded, Outcome.leave,
        Outcome.bind, Option.getD_some, Bool.false_eq_true, if_false]

theorem Shape.elements_represent (element : Shape)
    (encoded : ∀ value, (element.encodable value).represent = .ok (some (element.tree value)) ())
    (values : List element.Value) (trees : List Represented) :
    (values.foldr (fun value => Calls.encode .next (element.encodable value)) .done).represent
      (.array trees) = .ok () (.array (trees ++ values.map element.tree)) := by
  induction values generalizing trees with
  | nil => simp [Calls.represent]
  | cons value values ih =>
      simp only [List.foldr_cons, Calls.represent, Shape.encodable_ignored, encoded, Outcome.leave,
        Outcome.bind, Option.getD_some, Bool.false_eq_true, if_false, Tree.put, ih]
      simp

/-- A field with a key of its own adds an entry at the end. -/
theorem Fields.stored_represent (rest : Fields) (key : String) (tree : Represented)
    (values : rest.Values) (entries : List (String × Represented)) (new : key ∉ rest.keys)
    (apart : ∀ other ∈ key :: rest.keys, other ∉ entries.map Prod.fst)
    (encoded : ∀ entries : List (String × Represented),
      (∀ other ∈ rest.keys, other ∉ entries.map Prod.fst) →
        (rest.calls values).represent (.dictionary entries) =
          .ok () (.dictionary (entries ++ rest.entries values))) :
    (rest.calls values).represent ((Tree.dictionary entries).put (.key key) tree) =
      .ok () (.dictionary (entries ++ (key, tree) :: rest.entries values)) := by
  have here : key ∉ entries.map Prod.fst := apart key (List.mem_cons_self ..)
  simp only [Tree.put, setEntry_new here]
  rw [encoded]
  · simp
  · intro other there
    simp only [List.map_append, List.map_cons, List.map_nil, List.mem_append, List.mem_singleton,
      not_or]
    exact ⟨apart other (List.mem_cons_of_mem _ there), fun same => new (same ▸ there)⟩

mutual

theorem Shape.encodable_represent (shape : Shape) (distinct : shape.Distinct)
    (value : shape.Value) :
    (shape.encodable value).represent = .ok (some (shape.tree value)) () := by
  cases shape with
  | primitive base =>
      simp only [Shape.encodable, Encodable.represent, Body.represent, Shape.tree]
  | array element =>
      have encoded := element.elements_represent
        (fun value => element.encodable_represent distinct value) value []
      simp only [Shape.encodable, Encodable.represent, Body.represent, request, Tree.fresh, encoded,
        Outcome.leave, Outcome.bind, Shape.tree, List.nil_append]
  | record type fields =>
      have encoded := fields.calls_represent distinct value [] (by simp)
      simp only [Shape.encodable, Encodable.represent, Body.represent, request, Tree.fresh, encoded,
        Outcome.leave, Outcome.bind, Shape.tree, List.nil_append]

theorem Fields.calls_represent (fields : Fields) (distinct : fields.Distinct)
    (values : fields.Values) (entries : List (String × Represented))
    (apart : ∀ key ∈ fields.keys, key ∉ entries.map Prod.fst) :
    (fields.calls values).represent (.dictionary entries) =
      .ok () (.dictionary (entries ++ fields.entries values)) := by
  cases fields with
  | nil => simp [Fields.calls, Calls.represent, Fields.entries]
  | documentID key rest =>
      obtain ⟨id, values⟩ := values
      simp only [Fields.calls, Calls.represent, Encodable.ignored, if_true, Fields.entries]
      exact rest.calls_represent distinct.2 values entries fun other there =>
        apart other (List.mem_cons_of_mem _ there)
  | required key shape rest =>
      obtain ⟨value, values⟩ := values
      simp only [Fields.calls, Fields.entries]
      rw [shape.call_represent key value _ _ (shape.encodable_represent distinct.2.1 value)]
      exact rest.stored_represent key (shape.tree value) values entries distinct.1 apart
        (rest.calls_represent distinct.2.2 values)
  | optional key shape rest =>
      obtain ⟨value, values⟩ := values
      cases value with
      | none =>
          simp only [Fields.calls, Fields.entries]
          exact rest.calls_represent distinct.2.2 values entries fun other there =>
            apart other (List.mem_cons_of_mem _ there)
      | some value =>
          simp only [Fields.calls, Fields.entries]
          rw [shape.call_represent key value _ _ (shape.encodable_represent distinct.2.1 value)]
          exact rest.stored_represent key (shape.tree value) values entries distinct.1 apart
            (rest.calls_represent distinct.2.2 values)

end

/-- A record is encoded as its stored fields, with no error and no failed precondition. -/
theorem encode_record (type : String) (fields : Fields) (distinct : fields.Distinct)
    (values : fields.Values) :
    encode type ((Shape.record type fields).encodable values) = .ok (fields.entries values) () := by
  have represented := (Shape.record type fields).encodable_represent distinct values
  rw [encode_document]
  simp only [document, Shape.encodable, Encodable.allowed] at represented ⊢
  simp only [represented, Outcome.bind, Shape.tree, if_true]

end DogFoodTracker.Firestore
