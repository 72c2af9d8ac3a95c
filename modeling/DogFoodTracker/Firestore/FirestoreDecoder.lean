import DogFoodTracker.Firestore.Codable

/-! # `Firestore.Decoder`

The decoder pushes each container it decodes and pops it afterwards, beside a path of
coding keys. The synthesised `init(from:)` of a type is read off its shape, once with
the decoder's state and once without.
-/

namespace DogFoodTracker.Firestore

open Containers
open FirestoreEncoder (Represented)

namespace FirestoreDecoder

/-! ## Casts and messages -/

/-- A value as it is unboxed and as messages describe it. -/
def shown : Represented → Value
  | .leaf (.plain value) => value
  | .leaf (.native object) => .other object.className
  | .dictionary _ | .empty => .other "a dictionary"
  | .array _ => .other "an array"

def unbox (path : List String) :
    (base : Primitive) → Represented → Except DecodingError (Option base.Value)
  | .bool, value => Decoder.unboxBool path (shown value)
  | .int, value => Decoder.unboxInt path (shown value)
  | .string, value => Decoder.unboxString path (shown value)

def isNull (value : Represented) : Bool :=
  match shown value with
  | .null => true
  | _ => false

/-- What `container(keyedBy:)` makes of the top container. -/
def asDictionary (path : List String) (value : Represented) :
    Except DecodingError (List (String × Represented)) :=
  if isNull value then
    .error (.valueNotFound "KeyedDecodingContainer<CodingKeys>" path
      "Cannot get keyed decoding container -- found null value instead.")
  else
    match value with
    | .dictionary entries => .ok entries
    | .empty => .ok []
    | _ => .error (.typeMismatch "Dictionary<String, Any>" path "Not a dictionary")

/-- What `unkeyedContainer()` makes of the top container. -/
def asArray (path : List String) (value : Represented) : Except DecodingError (List Represented) :=
  if isNull value then
    .error (.valueNotFound "UnkeyedDecodingContainer" path
      "Cannot get unkeyed decoding container -- found null value instead.")
  else
    match value with
    | .array elements => .ok elements
    | _ => .error (.typeMismatch "Array<Any>" path "Not an array")

/-- `expectNonNull` and `unbox` of the single value container. -/
def decodeSingle (path : List String) (base : Primitive) (value : Represented) :
    Except DecodingError (Option base.Value) :=
  if isNull value then
    .error (.valueNotFound base.name path
      ("Expected " ++ base.name ++ " but found null value instead."))
  else unbox path base value

def requireKey (path : List String) (entries : List (String × Represented)) (key : String) :
    Except DecodingError Represented :=
  match entries.lookup key with
  | some entry => .ok entry
  | none => .error (.keyNotFound key path
      ("No value associated with key CodingKeys(stringValue: \"" ++ key ++
        "\", intValue: nil) (\"" ++ key ++ "\")."))

/-- How an array of keys prints. -/
def describe (path : List String) : String :=
  "[" ++ ", ".intercalate (path.map fun key => "\"" ++ key ++ "\"") ++ "]"

/-- The `DocumentID` case of `decode(_:forKey:)`. -/
def decodeDocumentID (reference : Option DocumentReference) (path : List String)
    (entries : List (String × Represented)) (key : String) : Except DecodingError (Option String) :=
  match entries.lookup key with
  | some _ =>
      let docPath := match reference with
        | some reference => reference.path
        | none => "nil"
      .error (.fieldNameConflict (path ++ [key]) ("Field name " ++ describe (path ++ [key]) ++
        " was found from document \"" ++ docPath ++
        "\", cannot assign the document reference to this field."))
  | none => .ok (reference.map (·.documentID))

/-- `contains(key) && !decodeNil(forKey: key)`, which `decodeIfPresent` asks first. -/
def isPresent (entries : List (String × Represented)) (key : String) : Bool :=
  match entries.lookup key with
  | some entry => !isNull entry
  | none => false

/-! ## The decoder's state -/

/-- `_FirestoreDecoder`; the top of the storage comes first. -/
structure State where
  storage : List Represented
  codingPath : List String

abbrev Result := Outcome DecodingError State

namespace State

variable {α : Type}

def push (s : State) (value : Represented) : State := { s with storage := value :: s.storage }

def enter (s : State) (key : String) : State := { s with codingPath := s.codingPath ++ [key] }

def leave (s : State) : State := { s with codingPath := s.codingPath.dropLast }

def topContainer (s : State) : Result Represented :=
  match s.storage with
  | top :: _ => .ok top s
  | [] => .trap

/-- A throwing expression that leaves the decoder alone. -/
def lift (s : State) (result : Except DecodingError α) : Result α := .ofExcept result s

/-- Push a value, decode from it, and pop it; an error skips the popping. -/
def expand (s : State) (value : Represented) (initFrom : State → Result α) : Result (Option α) :=
  (initFrom (s.push value)).bind fun decoded s =>
    match s.storage with
    | _ :: rest => .ok (some decoded) { s with storage := rest }
    | [] => .trap

/-- `decode(_:forKey:)`. -/
def decodeKey (s : State) (type : String) (unbox : Represented → State → Result (Option α))
    (entries : List (String × Represented)) (key : String) : Result α :=
  (s.lift (requireKey s.codingPath entries key)).bind fun entry s =>
    ((unbox entry (s.enter key)).bind fun decoded s =>
      s.lift (Decoder.requireValue type s.codingPath decoded)).leave fun s => some s.leave

/-- `decode(_:)` of the unkeyed container, at its current index. -/
def decodeElement (s : State) (type : String) (unbox : Represented → State → Result (Option α))
    (index : Nat) (element : Represented) : Result α :=
  let key := "Index " ++ toString index
  ((unbox element (s.enter key)).bind fun decoded s =>
    s.lift (Decoder.requireValue type (s.codingPath ++ [key]) decoded)).leave fun s => some s.leave

/-- `Array.init(from:)`, from an index on. -/
def decodeElements (type : String) (unbox : Represented → State → Result (Option α)) :
    Nat → List Represented → State → Result (List α)
  | _, [], s => .ok [] s
  | index, element :: elements, s =>
      (s.decodeElement type unbox index element).bind fun value s =>
        (decodeElements type unbox (index + 1) elements s).bind fun values s =>
          .ok (value :: values) s

/-- `init(from:)` of `Bool`, `Int` and `String`. -/
def decodeSingle (s : State) (base : Primitive) : Result base.Value :=
  s.topContainer.bind fun top s =>
    (s.lift (FirestoreDecoder.decodeSingle s.codingPath base top)).bind fun decoded s =>
      match decoded with
      | some value => .ok value s
      | none => .trap

end State

end FirestoreDecoder

open FirestoreDecoder

def Shape.typeName : Shape → String
  | .primitive base => base.name
  | .array element => "Array<" ++ element.typeName ++ ">"
  | .record type _ => type

mutual

/-- `unbox`; `direct` is whether the overload for a number or a string was chosen, which
    only a type that is known when the call is compiled gets. -/
def Shape.unbox (reference : Option DocumentReference) :
    (shape : Shape) → Bool → Represented → State → Result (Option shape.Value)
  | .primitive base, true, value, s => s.lift (unbox s.codingPath base value)
  | .primitive base, false, value, s => s.expand value fun s => s.decodeSingle base
  | .array element, _, value, s =>
      s.expand value fun s => s.topContainer.bind fun top s =>
        (s.lift (asArray s.codingPath top)).bind fun elements s =>
          State.decodeElements element.typeName (element.unbox reference false) 0 elements s
  | .record _ fields, _, value, s =>
      s.expand value fun s => s.topContainer.bind fun top s =>
        (s.lift (asDictionary s.codingPath top)).bind fun entries s =>
          fields.initFrom reference s.codingPath entries s

/-- The synthesised `init(from:)`, on a keyed container made at `path`. -/
def Fields.initFrom (reference : Option DocumentReference) (path : List String) :
    (fields : Fields) → List (String × Represented) → State → Result fields.Values
  | .nil, _, s => .ok () s
  | .documentID key rest, entries, s =>
      (s.lift (decodeDocumentID reference path entries key)).bind fun id s =>
        (rest.initFrom reference path entries s).bind fun values s => .ok (id, values) s
  | .required key shape rest, entries, s =>
      (s.decodeKey shape.typeName (shape.unbox reference true) entries key).bind fun value s =>
        (rest.initFrom reference path entries s).bind fun values s => .ok (value, values) s
  | .optional key shape rest, entries, s =>
      if isPresent entries key then
        (s.decodeKey shape.typeName (shape.unbox reference true) entries key).bind fun value s =>
          (rest.initFrom reference path entries s).bind fun values s => .ok (some value, values) s
      else (rest.initFrom reference path entries s).bind fun values s => .ok (none, values) s

end

/-- `decode`. -/
def FirestoreDecoder.decode (shape : Shape) (container : List (String × Represented))
    (document : Option DocumentReference) : Outcome DecodingError Unit shape.Value :=
  match shape.unbox document false (.dictionary container)
    { storage := [.dictionary container], codingPath := [] } with
  | .ok (some value) _ => .ok value ()
  | .ok none _ => .thrown (.valueNotFound shape.typeName [] "The given dictionary was invalid") ()
  | .thrown error _ => .thrown error ()
  | .trap => .trap

/-! ## The same without a stack -/

namespace FirestoreDecoder

variable {α β : Type}

/-- The entry of a key, decoded at its own path. -/
def readKey (path : List String) (type : String)
    (read : List String → Represented → Except DecodingError (Option α))
    (entries : List (String × Represented)) (key : String) : Except DecodingError α := do
  let entry ← requireKey path entries key
  let decoded ← read (path ++ [key]) entry
  Decoder.requireValue type (path ++ [key]) decoded

def readElement (path : List String) (type : String)
    (read : List String → Represented → Except DecodingError (Option α)) (index : Nat)
    (element : Represented) : Except DecodingError α := do
  let key := "Index " ++ toString index
  let decoded ← read (path ++ [key]) element
  Decoder.requireValue type (path ++ [key] ++ [key]) decoded

def readElements (path : List String) (type : String)
    (read : List String → Represented → Except DecodingError (Option α)) :
    Nat → List Represented → Except DecodingError (List α)
  | _, [] => .ok []
  | index, element :: elements => do
      let value ← readElement path type read index element
      let values ← readElements path type read (index + 1) elements
      return value :: values

end FirestoreDecoder

mutual

def Shape.decode (reference : Option DocumentReference) :
    (shape : Shape) → Bool → List String → Represented → Except DecodingError (Option shape.Value)
  | .primitive base, true, path, value => unbox path base value
  | .primitive base, false, path, value => decodeSingle path base value
  | .array element, _, path, value =>
      (asArray path value >>= readElements path element.typeName (element.decode reference false) 0).map
        some
  | .record _ fields, _, path, value =>
      (asDictionary path value >>= fields.decode reference path).map some

def Fields.decode (reference : Option DocumentReference) (path : List String) :
    (fields : Fields) → List (String × Represented) → Except DecodingError fields.Values
  | .nil, _ => .ok ()
  | .documentID key rest, entries => do
      let id ← decodeDocumentID reference path entries key
      let values ← rest.decode reference path entries
      return (id, values)
  | .required key shape rest, entries => do
      let value ← readKey path shape.typeName (shape.decode reference true) entries key
      let values ← rest.decode reference path entries
      return (value, values)
  | .optional key shape rest, entries =>
      if isPresent entries key then do
        let value ← readKey path shape.typeName (shape.decode reference true) entries key
        let values ← rest.decode reference path entries
        return (some value, values)
      else do
        let values ← rest.decode reference path entries
        return (none, values)

end

namespace FirestoreDecoder

variable {α β : Type}

/-- A decoding step that succeeds leaves the decoder as it was; one that fails has restored
    the path, but may leave containers on the storage. -/
def Agrees (s : State) (pure : Except DecodingError α) (result : Result α) : Prop :=
  match pure with
  | .ok value => result = .ok value s
  | .error error => ∃ left, result = .thrown error { s with storage := left ++ s.storage }

namespace Agrees

variable {s : State} {pure : Except DecodingError α} {result : Result α}

theorem lift (s : State) (pure : Except DecodingError α) : Agrees s pure (s.lift pure) := by
  cases pure with
  | ok value => rfl
  | error error => exact ⟨[], rfl⟩

theorem ok (s : State) (value : α) : Agrees s (.ok value) (.ok value s) := rfl

theorem bind {next : α → Except DecodingError β} {next' : α → State → Result β}
    (first : Agrees s pure result) (rest : ∀ value, Agrees s (next value) (next' value s)) :
    Agrees s (pure >>= next) (result.bind next') := by
  cases pure with
  | ok value =>
      rw [show result = .ok value s from first]
      exact rest value
  | error error =>
      obtain ⟨left, failed⟩ := first
      exact ⟨left, by rw [failed]; rfl⟩

/-- A key that was entered is left again, by an error too. -/
theorem leave {key : String} (inner : Agrees (s.enter key) pure result) :
    Agrees s pure (result.leave fun s => some s.leave) := by
  cases pure with
  | ok value =>
      rw [show result = .ok value (s.enter key) from inner]
      simp [Agrees, Outcome.leave, State.leave, State.enter]
  | error error =>
      obtain ⟨left, failed⟩ := inner
      refine ⟨left, ?_⟩
      rw [failed]
      simp [Outcome.leave, State.leave, State.enter]

end Agrees

/-- A value that is pushed to be decoded is popped after a success, and never after an
    error. -/
def Expands (s : State) (value : Represented) (pure : Except DecodingError (Option α))
    (result : Result (Option α)) : Prop :=
  match pure with
  | .ok decoded => result = .ok decoded s
  | .error error =>
      ∃ left, result = .thrown error { s with storage := left ++ value :: s.storage }

theorem Expands.agrees {s : State} {value : Represented} {pure : Except DecodingError (Option α)}
    {result : Result (Option α)} (expands : Expands s value pure result) : Agrees s pure result := by
  cases pure with
  | ok decoded => exact expands
  | error error =>
      obtain ⟨left, failed⟩ := expands
      exact ⟨left ++ [value], by rw [failed]; simp⟩

theorem Agrees.expand {s : State} {value : Represented} {pure : Except DecodingError α}
    {initFrom : State → Result α} (inner : Agrees (s.push value) pure (initFrom (s.push value))) :
    Expands s value (pure.map some) (s.expand value initFrom) := by
  unfold State.expand
  cases pure with
  | ok decoded =>
      rw [show initFrom (s.push value) = .ok decoded (s.push value) from inner]
      rfl
  | error error =>
      obtain ⟨left, failed⟩ := inner
      exact ⟨left, by rw [failed]; rfl⟩

theorem decodeSingle_some {path : List String} {base : Primitive} {value : Represented}
    (decoded : decodeSingle path base value = .ok none) : False := by
  unfold decodeSingle isNull at decoded
  split at decoded
  · cases decoded
  · rename_i present
    cases seen : shown value with
    | null => simp [seen] at present
    | double description exactly =>
        cases base <;> cases exactly <;>
          simp [unbox, seen, Decoder.unboxBool, Decoder.unboxInt, Decoder.unboxString] at decoded
    | _ =>
        cases base <;>
          simp [unbox, seen, Decoder.unboxBool, Decoder.unboxInt, Decoder.unboxString] at decoded

section Steps

variable {s : State} {type : String} {unbox : Represented → State → Result (Option α)}
  {read : List String → Represented → Except DecodingError (Option α)}

theorem decodeKey_agrees
    (unboxed : ∀ value s, Agrees s (read s.codingPath value) (unbox value s))
    (entries : List (String × Represented)) (key : String) :
    Agrees s (readKey s.codingPath type read entries key) (s.decodeKey type unbox entries key) := by
  unfold readKey State.decodeKey
  apply (Agrees.lift s _).bind
  intro entry
  apply Agrees.leave
  apply (unboxed entry (s.enter key)).bind
  intro decoded
  exact .lift (s.enter key) _

theorem decodeElement_agrees
    (unboxed : ∀ value s, Agrees s (read s.codingPath value) (unbox value s)) (index : Nat)
    (element : Represented) :
    Agrees s (readElement s.codingPath type read index element)
      (s.decodeElement type unbox index element) := by
  unfold readElement State.decodeElement
  apply Agrees.leave
  apply (unboxed element (s.enter _)).bind
  intro decoded
  exact .lift (s.enter _) _

theorem decodeElements_agrees
    (unboxed : ∀ value s, Agrees s (read s.codingPath value) (unbox value s)) (index : Nat)
    (elements : List Represented) :
    Agrees s (readElements s.codingPath type read index elements)
      (State.decodeElements type unbox index elements s) := by
  induction elements generalizing index with
  | nil => exact .ok s []
  | cons element elements ih =>
      unfold readElements State.decodeElements
      apply (decodeElement_agrees unboxed index element).bind
      intro value
      apply (ih (index + 1)).bind
      intro values
      exact .ok s _

end Steps

theorem single_expands (base : Primitive) (value : Represented) (s : State) :
    Expands s value (decodeSingle s.codingPath base value)
      (s.expand value fun s => s.decodeSingle base) := by
  unfold State.expand State.decodeSingle
  cases decoded : decodeSingle s.codingPath base value with
  | error error =>
      refine ⟨[], ?_⟩
      simp [State.topContainer, State.push, State.lift, Outcome.ofExcept, Outcome.bind, decoded]
  | ok result =>
      cases result with
      | none => exact (decodeSingle_some decoded).elim
      | some result =>
          simp [Expands, State.topContainer, State.push, State.lift, Outcome.ofExcept, Outcome.bind,
            decoded]

end FirestoreDecoder

/-- Fields get the direct overload, elements and whole values do not. -/
theorem Shape.unbox_direct {reference : Option DocumentReference} {shape : Shape}
    (expands : ∀ value s, Expands s value (shape.decode reference false s.codingPath value)
      (shape.unbox reference false value s)) (value : Represented) (s : State) :
    Agrees s (shape.decode reference true s.codingPath value)
      (shape.unbox reference true value s) := by
  cases shape with
  | primitive base => exact .lift s _
  | array element => exact (expands value s).agrees
  | record type fields => exact (expands value s).agrees

mutual

theorem Shape.unbox_expands (reference : Option DocumentReference) (shape : Shape)
    (value : Represented) (s : State) :
    Expands s value (shape.decode reference false s.codingPath value)
      (shape.unbox reference false value s) := by
  cases shape with
  | primitive base => exact single_expands base value s
  | array element =>
      apply Agrees.expand
      apply (Agrees.lift (s.push value) (asArray s.codingPath value)).bind
      intro elements
      exact decodeElements_agrees (fun value s => (element.unbox_expands reference value s).agrees) 0
        elements
  | record type fields =>
      apply Agrees.expand
      apply (Agrees.lift (s.push value) (asDictionary s.codingPath value)).bind
      intro entries
      exact fields.initFrom_agrees reference entries (s.push value)

theorem Fields.initFrom_agrees (reference : Option DocumentReference) (fields : Fields)
    (entries : List (String × Represented)) (s : State) :
    Agrees s (fields.decode reference s.codingPath entries)
      (fields.initFrom reference s.codingPath entries s) := by
  cases fields with
  | nil => exact .ok s ()
  | documentID key rest =>
      unfold Fields.decode Fields.initFrom
      apply (Agrees.lift s _).bind
      intro id
      apply (rest.initFrom_agrees reference entries s).bind
      intro values
      exact .ok s _
  | required key shape rest =>
      unfold Fields.decode Fields.initFrom
      apply (decodeKey_agrees (shape.unbox_direct (shape.unbox_expands reference)) entries key).bind
      intro value
      apply (rest.initFrom_agrees reference entries s).bind
      intro values
      exact .ok s _
  | optional key shape rest =>
      unfold Fields.decode Fields.initFrom
      by_cases present : isPresent entries key = true
      · simp only [present, if_true]
        apply (decodeKey_agrees (shape.unbox_direct (shape.unbox_expands reference)) entries
          key).bind
        intro value
        apply (rest.initFrom_agrees reference entries s).bind
        intro values
        exact .ok s _
      · simp only [present, if_false, Bool.false_eq_true]
        apply (rest.initFrom_agrees reference entries s).bind
        intro values
        exact .ok s _

end

theorem FirestoreDecoder.map_some {α : Type} {result : Except DecodingError α}
    (mapped : result.map some = .ok none) : False := by
  cases result <;> simp [Except.map] at mapped

/-- Decoding a whole value is never `nil`. -/
theorem Shape.decode_some {reference : Option DocumentReference} {shape : Shape}
    {path : List String} {value : Represented}
    (decoded : shape.decode reference false path value = .ok none) : False := by
  cases shape with
  | primitive base => exact decodeSingle_some decoded
  | array element => exact map_some decoded
  | record type fields => exact map_some decoded

/-- With its stack the decoder computes what the shape reads in the container, error by
    error, and never traps. -/
theorem FirestoreDecoder.decode_reads (shape : Shape) (container : List (String × Represented))
    (document : Option DocumentReference) :
    match FirestoreDecoder.decode shape container document with
    | .ok value _ => shape.decode document false [] (.dictionary container) = .ok (some value)
    | .thrown error _ => shape.decode document false [] (.dictionary container) = .error error
    | .trap => False := by
  have expands := shape.unbox_expands document (.dictionary container)
    { storage := [.dictionary container], codingPath := [] }
  unfold FirestoreDecoder.decode
  cases decoded : shape.decode document false [] (.dictionary container) with
  | error error =>
      simp only [decoded, Expands] at expands
      obtain ⟨left, failed⟩ := expands
      simp only [failed]
  | ok result =>
      simp only [decoded, Expands] at expands
      cases result with
      | none => exact (Shape.decode_some decoded).elim
      | some value => simp only [expands]

end DogFoodTracker.Firestore
