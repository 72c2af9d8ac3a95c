import Mathlib.Logic.Function.Basic

/-! # Documents, casts and coding

A document maps field names to values. Its fields are read in two ways that do not
agree: `as!` bridges an `NSNumber` to whatever it is exactly equal to and traps on
anything else, while `Firestore.Decoder` tells booleans from numbers and throws.
-/

namespace DogFoodTracker.Firestore

/-- A value as `DocumentSnapshot` hands it out. A double is kept as the integer it
    is exactly equal to, when there is one; `other` is everything that is neither
    a number nor a string, with the type name that error messages print. -/
inductive Value where
  | null
  | boolean (value : Bool)
  | integer (value : Int64)
  | double (description : String) (exactly : Option Int64)
  | string (value : String)
  | other (type : String)
  deriving DecidableEq, Repr

abbrev DocumentID := String

/-- The fields of a document, by name. -/
abbrev Document := String → Option Value

structure DocumentReference where
  collection : String
  documentID : DocumentID
  deriving DecidableEq, Repr

def DocumentReference.path (reference : DocumentReference) : String :=
  reference.collection ++ "/" ++ reference.documentID

/-- Why a running callback stops the process. -/
inductive Trap where
  /-- `as!` on a value of another type, or on a missing one. -/
  | cast
  /-- Integer arithmetic past the ends of `Int`. -/
  | overflow
  /-- `!` on `nil`. -/
  | unwrap
  /-- An array index out of range. -/
  | index
  deriving DecidableEq, Repr

/-! ## `as!` -/

/-- `document.get(field) as! Bool`. -/
def asBool : Option Value → Except Trap Bool
  | some (.boolean value) => .ok value
  | some (.integer value) | some (.double _ (some value)) =>
      if value = 0 then .ok false else if value = 1 then .ok true else .error .cast
  | _ => .error .cast

/-- `document.get(field) as! Int`. -/
def asInt : Option Value → Except Trap Int64
  | some (.boolean value) => .ok (if value then 1 else 0)
  | some (.integer value) | some (.double _ (some value)) => .ok value
  | _ => .error .cast

theorem asBool_error {value : Option Value} {trap : Trap} (failed : asBool value = .error trap) :
    trap = .cast := by
  unfold asBool at failed
  split at failed
  · cases failed
  · split at failed
    · cases failed
    · split at failed <;> cases failed
      rfl
  · split at failed
    · cases failed
    · split at failed <;> cases failed
      rfl
  · cases failed
    rfl

/-! ## `Firestore.Encoder` -/

namespace Encoder

/-- The dictionary a keyed container starts from. -/
def empty : Document := fun _ => none

def encode (container : Document) (value : Value) (key : String) : Document :=
  Function.update container key (some value)

/-- `DocumentID`-annotated fields are ignored during encoding. -/
def encodeDocumentID (container : Document) (_value : Option String) (_key : String) : Document :=
  container

end Encoder

/-! ## `Firestore.Decoder` -/

inductive DecodingError where
  | keyNotFound (key : String) (codingPath : List String) (debugDescription : String)
  | valueNotFound (type : String) (codingPath : List String) (debugDescription : String)
  | typeMismatch (type : String) (codingPath : List String) (debugDescription : String)
  | dataCorrupted (codingPath : List String) (debugDescription : String)
  | fieldNameConflict (codingPath : List String) (message : String)
  deriving DecidableEq, Repr

/-- The field an error is about. -/
def DecodingError.field : DecodingError → List String
  | .keyNotFound key _ _ => [key]
  | .valueNotFound _ codingPath _ | .typeMismatch _ codingPath _ | .dataCorrupted codingPath _
  | .fieldNameConflict codingPath _ => codingPath

namespace Decoder

def typeDescription : Value → String
  | .null => "a null value"
  | .boolean _ | .integer _ | .double _ _ => "a number"
  | .string _ => "a string/data"
  | .other type => type

def typeMismatch (path : List String) (expectation : String) (reality : Value) : DecodingError :=
  .typeMismatch expectation path
    ("Expected to decode " ++ expectation ++ " but found " ++ typeDescription reality ++ " instead.")

def unboxBool (path : List String) : Value → Except DecodingError (Option Bool)
  | .null => .ok none
  | .boolean value => .ok (some value)
  | value => .error (typeMismatch path "Bool" value)

def unboxInt (path : List String) : Value → Except DecodingError (Option Int64)
  | .null => .ok none
  | .integer value | .double _ (some value) => .ok (some value)
  | .double description none =>
      .error (.dataCorrupted path ("Decoded number <" ++ description ++ "> does not fit in Int."))
  | value => .error (typeMismatch path "Int" value)

def unboxString (path : List String) : Value → Except DecodingError (Option String)
  | .null => .ok none
  | .string value => .ok (some value)
  | value => .error (typeMismatch path "String" value)

def requireKey (container : Document) (key : String) : Except DecodingError Value :=
  match container key with
  | some entry => .ok entry
  | none => .error (.keyNotFound key [] ("No value associated with key CodingKeys(stringValue: \"" ++
      key ++ "\", intValue: nil) (\"" ++ key ++ "\")."))

def requireValue (type : String) (path : List String) {α : Type} :
    Option α → Except DecodingError α
  | some value => .ok value
  | none => .error (.valueNotFound type path ("Expected " ++ type ++ " value but found null instead."))

/-- `decode(_:forKey:)` of the keyed container; the types differ only in how they unbox. -/
def decode (type : String) {α : Type} (unbox : List String → Value → Except DecodingError (Option α))
    (container : Document) (key : String) : Except DecodingError α := do
  let entry ← requireKey container key
  let value ← unbox [key] entry
  requireValue type [key] value

def decodeBool (container : Document) (key : String) : Except DecodingError Bool :=
  decode "Bool" unboxBool container key

def decodeInt (container : Document) (key : String) : Except DecodingError Int64 :=
  decode "Int" unboxInt container key

def decodeString (container : Document) (key : String) : Except DecodingError String :=
  decode "String" unboxString container key

/-- The document's own ID, unless the document stores a field of that name. -/
def decodeDocumentID (reference : DocumentReference) (container : Document) (key : String) :
    Except DecodingError (Option String) :=
  match container key with
  | some _ => .error (.fieldNameConflict [key] ("Field name [\"" ++ key ++
      "\"] was found from document \"" ++ reference.path ++
      "\", cannot assign the document reference to this field."))
  | none => .ok (some reference.documentID)

theorem unboxBool_field (path : List String) (value : Value) {error : DecodingError}
    (failed : unboxBool path value = .error error) : error.field = path := by
  cases value <;> cases failed <;> rfl

theorem unboxInt_field (path : List String) (value : Value) {error : DecodingError}
    (failed : unboxInt path value = .error error) : error.field = path := by
  cases value with
  | double description exactly => cases exactly <;> cases failed; rfl
  | _ => cases failed <;> rfl

theorem unboxString_field (path : List String) (value : Value) {error : DecodingError}
    (failed : unboxString path value = .error error) : error.field = path := by
  cases value <;> cases failed <;> rfl

/-- Every error of a field names that field. -/
theorem decode_field {type key : String} {α : Type}
    {unbox : List String → Value → Except DecodingError (Option α)} {container : Document}
    (unboxed : ∀ path value error, unbox path value = .error error → error.field = path)
    {error : DecodingError} (failed : decode type unbox container key = .error error) :
    error.field = [key] := by
  simp only [decode, requireKey] at failed
  cases present : container key with
  | none =>
      simp only [present, bind, Except.bind] at failed
      cases failed
      rfl
  | some entry =>
      simp only [present, bind, Except.bind] at failed
      cases result : unbox [key] entry with
      | error inner =>
          simp only [result] at failed
          cases failed
          exact unboxed _ _ _ result
      | ok value =>
          simp only [result] at failed
          cases value <;> cases failed
          rfl

/-- A decoding step fails in its first part, or in what follows. -/
theorem bind_error {α β : Type} {first : Except DecodingError α} {next : α → Except DecodingError β}
    {error : DecodingError} (failed : (first >>= next) = .error error) :
    first = .error error ∨ ∃ value, next value = .error error := by
  cases first with
  | error inner =>
      cases failed
      exact .inl rfl
  | ok value => exact .inr ⟨value, failed⟩

/-- A decoding step succeeds only through its parts. -/
theorem bind_ok {α β : Type} {first : Except DecodingError α} {next : α → Except DecodingError β}
    {result : β} (succeeded : (first >>= next) = .ok result) :
    ∃ value, first = .ok value ∧ next value = .ok result := by
  cases first with
  | error error => cases succeeded
  | ok value => exact ⟨value, rfl, succeeded⟩

theorem decodeDocumentID_field {reference : DocumentReference} {container : Document}
    {key : String} {error : DecodingError}
    (failed : decodeDocumentID reference container key = .error error) : error.field = [key] := by
  simp only [decodeDocumentID] at failed
  split at failed <;> cases failed
  rfl

theorem decodeDocumentID_ok {reference : DocumentReference} {container : Document} {key : String}
    {id : Option String} (decoded : decodeDocumentID reference container key = .ok id) :
    id = some reference.documentID := by
  simp only [decodeDocumentID] at decoded
  split at decoded
  · cases decoded
  · exact (Except.ok.inj decoded).symm

theorem decode_present {type key : String} {α : Type}
    {unbox : List String → Value → Except DecodingError (Option α)} {container : Document}
    {entry : Value} {value : α} (present : container key = some entry)
    (unboxed : unbox [key] entry = .ok (some value)) :
    decode type unbox container key = .ok value := by
  simp only [decode, requireKey, present, bind, Except.bind, unboxed, requireValue]

end Decoder

end DogFoodTracker.Firestore
