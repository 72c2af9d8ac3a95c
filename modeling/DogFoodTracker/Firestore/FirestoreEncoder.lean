import DogFoodTracker.Firestore.Document
import DogFoodTracker.Storage.Containers
import DogFoodTracker.Storage.Outcome

/-! # `Firestore.Encoder`

The encoder keeps a stack of mutable containers beside a path of coding keys, and
whatever an `encode(to:)` asks of it happens to containers by reference. An
`encode(to:)` is given here by the calls it makes, in order.
-/

namespace DogFoodTracker.Firestore.FirestoreEncoder

open Containers

/-- The types that are handed to the API as they are. -/
inductive Native where
  | date
  | data
  | decimal
  | geoPoint
  | timestamp
  | fieldValue
  | documentReference
  deriving DecidableEq, Repr

structure NativeObject where
  type : Native
  /-- What `type(of:)` prints. -/
  className : String
  contents : String
  deriving DecidableEq, Repr

/-- An `NSObject` that is no container: a number, a string or `NSNull`, or an object of
    a native type. -/
inductive Leaf where
  | plain (value : Value)
  | native (object : NativeObject)
  deriving DecidableEq, Repr

/-- What is handed to the API: a value with its containers copied out. -/
abbrev Represented := Tree String Leaf

inductive EncodingError where
  | invalidValue (codingPath : List String) (debugDescription : String)
  | encodingIsNotSupported (message : String)
  /-- Whatever else an `encode(to:)` throws. -/
  | other (description : String)
  deriving DecidableEq, Repr

mutual

/-- A value to encode, by what `box_` finds its type to be. -/
inductive Encodable where
  | native (object : NativeObject)
  | url (absoluteString : String)
  | documentID
  | custom (body : Body)

/-- What an `encode(to:)` does with its encoder. -/
inductive Body where
  | done
  | throws (error : EncodingError)
  /-- Ask for a keyed or an unkeyed container and use it. -/
  | container (kind : Kind) (calls : Calls kind) (rest : Body)
  /-- Encode a number, a string or `nil` through the single value container. -/
  | boxed (value : Value) (rest : Body)
  /-- Encode a value through the single value container. -/
  | single (value : Encodable) (rest : Body)
  | attempt (first rest : Body)

/-- What is done with a container. -/
inductive Calls : Kind → Type where
  | done {kind : Kind} : Calls kind
  | throws {kind : Kind} (error : EncodingError) : Calls kind
  /-- Encode a number, a string or `nil`. -/
  | boxed {kind : Kind} (slot : Slot String kind) (value : Value) (rest : Calls kind) : Calls kind
  | encode {kind : Kind} (slot : Slot String kind) (value : Encodable) (rest : Calls kind) :
      Calls kind
  /-- `nestedContainer` and `nestedUnkeyedContainer`, used before the outer one is again. -/
  | nested {kind : Kind} (slot : Slot String kind) {inner : Kind} (calls : Calls inner)
      (rest : Calls kind) : Calls kind
  /-- `superEncoder`, let go of at the end of the body. -/
  | superEncoder {kind : Kind} (slot : Slot String kind) (body : Body) (rest : Calls kind) :
      Calls kind
  | attempt {kind : Kind} (first rest : Calls kind) : Calls kind

end

/-! ## The encoder's state -/

/-- `_FirestoreEncoder`, with the containers in memory; the top of the storage comes first. -/
structure State where
  heap : Heap String Leaf
  containers : List (Object Leaf)
  codingPath : List String
  /-- How much of the path a referencing encoder started with: its parent's path and its
      own key. -/
  inherited : Nat
  deriving DecidableEq, Repr

namespace State

def initial : State where
  heap := []
  containers := []
  codingPath := []
  inherited := 0

def shouldAllocateNewContainer (s : State) : Bool :=
  s.containers.length = s.codingPath.length - s.inherited

/-- `storage.pushKeyedContainer()` and `storage.pushUnkeyedContainer()`. -/
def pushContainer (s : State) (kind : Kind) : State :=
  { s with
    heap := s.heap ++ [Cell.fresh kind]
    containers := .reference s.heap.length :: s.containers }

def push (s : State) (object : Object Leaf) : State :=
  { s with containers := object :: s.containers }

def enter (s : State) (key : String) : State := { s with codingPath := s.codingPath ++ [key] }

def leave (s : State) : State := { s with codingPath := s.codingPath.dropLast }

/-- Set an entry of a dictionary, or add to an array. -/
def write (s : State) (address : Nat) {kind : Kind} (slot : Slot String kind)
    (object : Object Leaf) : State :=
  { s with heap := s.heap.modify address (·.put slot object) }

def count (s : State) (address : Nat) : Nat :=
  match s.heap[address]? with
  | some cell => cell.count
  | none => 0

/-- The coding key of a slot, in a container of `count` elements. -/
def codingKey (count : Nat) {kind : Kind} : Slot String kind → String
  | .key key => key
  | .next => "Index " ++ toString count

/-- `container(keyedBy:)` and `unkeyedContainer()`; `none` is the failed precondition that
    something else was encoded at this path before. -/
def container (s : State) (kind : Kind) : Option (Nat × State) :=
  if s.shouldAllocateNewContainer then some (s.heap.length, s.pushContainer kind)
  else
    match s.containers with
    | .reference address :: _ =>
        match s.heap[address]? with
        | some cell => if cell.kind = kind then some (address, s) else none
        | none => none
    | _ => none

/-- Take off what was pushed above a depth, if anything was. -/
def popAbove (s : State) (depth : Nat) : Option (Object Leaf) × State :=
  match s.containers with
  | top :: rest =>
      if depth < s.containers.length then (some top, { s with containers := rest }) else (none, s)
  | [] => (none, s)

/-- `_FirestoreReferencingEncoder.init`. -/
def referencing (s : State) (key : String) : State where
  heap := s.heap
  containers := []
  codingPath := s.codingPath ++ [key]
  inherited := s.codingPath.length + 1

/-- Set an entry of a dictionary, or insert into an array at an index. -/
def writeBack (s : State) (address : Nat) {kind : Kind} (slot : Slot String kind) (index : Nat)
    (value : Object Leaf) : State :=
  match slot with
  | .key key => s.write address (.key key) value
  | .next => { s with heap := s.heap.modify address (·.insert index value) }

/-- What a referencing encoder does when it goes; the index is where its array ended when
    it was made. -/
def finalize (parent : State) (address : Nat) {kind : Kind} (slot : Slot String kind)
    (index : Nat) (s : State) : Option State :=
  let referenced : State := { parent with heap := s.heap }
  match s.containers with
  | [] => some (referenced.writeBack address slot index .empty)
  | [value] => some (referenced.writeBack address slot index value)
  | _ => none

end State

/-- `DocumentID`-annotated fields are ignored during encoding, but only by keyed containers. -/
def Encodable.ignored (value : Encodable) {kind : Kind} (slot : Slot String kind) : Bool :=
  match slot, value with
  | .key _, .documentID => true
  | _, _ => false

abbrev Result := Outcome EncodingError State

mutual

/-- `box_`: no object when the value encoded nothing. -/
def Encodable.box_ (value : Encodable) (s : State) : Result (Option (Object Leaf)) :=
  match value with
  | .native object => .ok (some (.leaf (.native object))) s
  | .url absoluteString => .ok (some (.leaf (.plain (.string absoluteString)))) s
  | .documentID =>
      .thrown
        (.encodingIsNotSupported "DocumentID values can only be encoded with Firestore.Encoder") s
  | .custom body =>
      match body.run s with
      | .ok _ after =>
          let (object, restored) := after.popAbove s.containers.length
          .ok object restored
      | .thrown error after => .thrown error (after.popAbove s.containers.length).2
      | .trap => .trap

def Body.run (body : Body) (s : State) : Result Unit :=
  match body with
  | .done => .ok () s
  | .throws error => .thrown error s
  | .container kind calls rest =>
      match s.container kind with
      | some (address, s) => (calls.run address s).bind fun _ s => rest.run s
      | none => .trap
  | .boxed value rest =>
      if s.shouldAllocateNewContainer then rest.run (s.push (.leaf (.plain value))) else .trap
  | .single value rest =>
      if s.shouldAllocateNewContainer then
        (value.box_ s).bind fun object s => rest.run (s.push (object.getD .empty))
      else .trap
  | .attempt first rest => (first.run s).recover fun s => rest.run s

/-- The calls on the container at `address`. -/
def Calls.run {kind : Kind} (calls : Calls kind) (address : Nat) (s : State) : Result Unit :=
  match calls with
  | .done => .ok () s
  | .throws error => .thrown error s
  | .boxed slot value rest => rest.run address (s.write address slot (.leaf (.plain value)))
  | .encode slot value rest =>
      if value.ignored slot then rest.run address s
      else
        ((value.box_ (s.enter (State.codingKey (s.count address) slot))).leave
          fun s => some s.leave).bind fun object s =>
            rest.run address (s.write address slot (object.getD .empty))
  | @Calls.nested _ slot inner calls rest =>
      (calls.run s.heap.length
        ({ s with heap := s.heap ++ [Cell.fresh inner] }.write address slot
          (.reference s.heap.length))).bind fun _ s => rest.run address s
  | .superEncoder slot body rest =>
      ((body.run (s.referencing (State.codingKey (s.count address) slot))).leave
        (s.finalize address slot (s.count address))).bind fun _ s => rest.run address s
  | .attempt first rest => (first.run address s).recover fun s => rest.run address s

end

/-! ## `encode` -/

def Encodable.allowed : Encodable → Bool
  | .native object => object.type ≠ .documentReference ∧ object.type ≠ .fieldValue
  | _ => true

def invalidValue (type problem : String) : EncodingError :=
  .invalidValue [] ("Top-level " ++ type ++ problem)

/-- `encode`; `type` is how `T.self` prints. -/
def encode (type : String) (value : Encodable) :
    Outcome EncodingError Unit (List (String × Represented)) :=
  if value.allowed then
    match value.box_ .initial with
    | .ok none _ => .thrown (invalidValue type " did not encode any values.") ()
    | .ok (some topLevel) s =>
        match read s.heap s.heap.length topLevel with
        | some (.dictionary entries) => .ok entries ()
        | some .empty => .ok [] ()
        | _ => .thrown (invalidValue type " encoded not as dictionary.") ()
    | .thrown error _ => .thrown error ()
    | .trap => .trap
  else .thrown (invalidValue type " is not allowed.") ()

end DogFoodTracker.Firestore.FirestoreEncoder
