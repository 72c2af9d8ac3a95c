import DogFoodTracker.Firestore.Document

/-! # The two record types and their documents

`Pet` and `CareGiver` are `Codable`: the synthesised coders go through the coding
keys in order. The `@DocumentID` field is skipped when a document is written and
filled with the document's own ID when it is read.
-/

namespace DogFoodTracker

open Firestore

structure Pet where
  id : Option String
  name : String
  breakfast : Bool
  dinner : Bool
  treats : Int64
  deriving DecidableEq, Repr

namespace Pet

inductive CodingKeys where
  | id
  | name
  | breakfast
  | dinner
  | treats
  deriving DecidableEq, Repr

def CodingKeys.stringValue : CodingKeys → String
  | .id => "id"
  | .name => "name"
  | .breakfast => "breakfast"
  | .dinner => "dinner"
  | .treats => "treats"

/-- `encode(to:)`. -/
def encode (pet : Pet) : Document :=
  let container := Encoder.empty
  let container := Encoder.encodeDocumentID container pet.id CodingKeys.id.stringValue
  let container := Encoder.encode container (.string pet.name) CodingKeys.name.stringValue
  let container := Encoder.encode container (.boolean pet.breakfast) CodingKeys.breakfast.stringValue
  let container := Encoder.encode container (.boolean pet.dinner) CodingKeys.dinner.stringValue
  Encoder.encode container (.integer pet.treats) CodingKeys.treats.stringValue

/-- `init(from:)`, run by the decoder of the document at `reference`. -/
def decode (reference : DocumentReference) (container : Document) : Except DecodingError Pet := do
  let id ← Decoder.decodeDocumentID reference container CodingKeys.id.stringValue
  let name ← Decoder.decodeString container CodingKeys.name.stringValue
  let breakfast ← Decoder.decodeBool container CodingKeys.breakfast.stringValue
  let dinner ← Decoder.decodeBool container CodingKeys.dinner.stringValue
  let treats ← Decoder.decodeInt container CodingKeys.treats.stringValue
  return { id, name, breakfast, dinner, treats }

theorem encode_id (pet : Pet) : pet.encode "id" = none := by
  simp [encode, Encoder.encode, Encoder.encodeDocumentID, Encoder.empty, CodingKeys.stringValue,
    Function.update]

theorem encode_name (pet : Pet) : pet.encode "name" = some (.string pet.name) := by
  simp [encode, Encoder.encode, CodingKeys.stringValue, Function.update]

theorem encode_breakfast (pet : Pet) : pet.encode "breakfast" = some (.boolean pet.breakfast) := by
  simp [encode, Encoder.encode, CodingKeys.stringValue, Function.update]

theorem encode_dinner (pet : Pet) : pet.encode "dinner" = some (.boolean pet.dinner) := by
  simp [encode, Encoder.encode, CodingKeys.stringValue, Function.update]

theorem encode_treats (pet : Pet) : pet.encode "treats" = some (.integer pet.treats) := by
  simp [encode, Encoder.encode, CodingKeys.stringValue]

/-- A document with no stored `id` and the four fields at their types decodes, and
    takes its ID from where it is stored. -/
theorem decode_ok (reference : DocumentReference) {document : Document} {name : String}
    {breakfast dinner : Bool} {treats : Int64} (noID : document "id" = none)
    (hasName : document "name" = some (.string name))
    (hasBreakfast : document "breakfast" = some (.boolean breakfast))
    (hasDinner : document "dinner" = some (.boolean dinner))
    (hasTreats : document "treats" = some (.integer treats)) :
    decode reference document =
      .ok { id := some reference.documentID, name, breakfast, dinner, treats } := by
  have decodedName : Decoder.decodeString document "name" = .ok name :=
    Decoder.decode_present hasName rfl
  have decodedBreakfast : Decoder.decodeBool document "breakfast" = .ok breakfast :=
    Decoder.decode_present hasBreakfast rfl
  have decodedDinner : Decoder.decodeBool document "dinner" = .ok dinner :=
    Decoder.decode_present hasDinner rfl
  have decodedTreats : Decoder.decodeInt document "treats" = .ok treats :=
    Decoder.decode_present hasTreats rfl
  simp only [decode, CodingKeys.stringValue, Decoder.decodeDocumentID, noID, decodedName,
    decodedBreakfast, decodedDinner, decodedTreats, bind, Except.bind, pure, Except.pure]

/-- Reading back what was written gives the same pet under the document's ID. -/
theorem decode_encode (reference : DocumentReference) (pet : Pet) :
    decode reference pet.encode = .ok { pet with id := some reference.documentID } :=
  decode_ok reference pet.encode_id pet.encode_name pet.encode_breakfast pet.encode_dinner
    pet.encode_treats

/-- A decoded pet always carries the ID of its document. -/
theorem decode_documentID {reference : DocumentReference} {document : Document} {pet : Pet}
    (decoded : decode reference document = .ok pet) : pet.id = some reference.documentID := by
  simp only [decode, CodingKeys.stringValue] at decoded
  obtain ⟨id, ownID, decoded⟩ := Decoder.bind_ok decoded
  obtain ⟨name, -, decoded⟩ := Decoder.bind_ok decoded
  obtain ⟨breakfast, -, decoded⟩ := Decoder.bind_ok decoded
  obtain ⟨dinner, -, decoded⟩ := Decoder.bind_ok decoded
  obtain ⟨treats, -, decoded⟩ := Decoder.bind_ok decoded
  cases decoded
  exact Decoder.decodeDocumentID_ok ownID

/-- Every decoding error names one of the coding keys. -/
theorem decode_field {reference : DocumentReference} {document : Document} {error : DecodingError}
    (failed : decode reference document = .error error) :
    ∃ key : CodingKeys, error.field = [key.stringValue] := by
  rcases Decoder.bind_error failed with wrong | ⟨id, failed⟩
  · exact ⟨.id, Decoder.decodeDocumentID_field wrong⟩
  rcases Decoder.bind_error failed with wrong | ⟨name, failed⟩
  · exact ⟨.name, Decoder.decode_field (fun _ _ _ => Decoder.unboxString_field _ _) wrong⟩
  rcases Decoder.bind_error failed with wrong | ⟨breakfast, failed⟩
  · exact ⟨.breakfast, Decoder.decode_field (fun _ _ _ => Decoder.unboxBool_field _ _) wrong⟩
  rcases Decoder.bind_error failed with wrong | ⟨dinner, failed⟩
  · exact ⟨.dinner, Decoder.decode_field (fun _ _ _ => Decoder.unboxBool_field _ _) wrong⟩
  rcases Decoder.bind_error failed with wrong | ⟨treats, failed⟩
  · exact ⟨.treats, Decoder.decode_field (fun _ _ _ => Decoder.unboxInt_field _ _) wrong⟩
  · cases failed

end Pet

structure CareGiver where
  id : Option String
  name : String
  email : String
  deriving DecidableEq, Repr

namespace CareGiver

inductive CodingKeys where
  | id
  | name
  | email
  deriving DecidableEq, Repr

def CodingKeys.stringValue : CodingKeys → String
  | .id => "id"
  | .name => "name"
  | .email => "email"

/-- `init(from:)`, run by the decoder of the document at `reference`. -/
def decode (reference : DocumentReference) (container : Document) :
    Except DecodingError CareGiver := do
  let id ← Decoder.decodeDocumentID reference container CodingKeys.id.stringValue
  let name ← Decoder.decodeString container CodingKeys.name.stringValue
  let email ← Decoder.decodeString container CodingKeys.email.stringValue
  return { id, name, email }

/-- `encode(to:)`. -/
def encode (caregiver : CareGiver) : Document :=
  let container := Encoder.empty
  let container := Encoder.encodeDocumentID container caregiver.id CodingKeys.id.stringValue
  let container := Encoder.encode container (.string caregiver.name) CodingKeys.name.stringValue
  Encoder.encode container (.string caregiver.email) CodingKeys.email.stringValue

theorem encode_id (caregiver : CareGiver) : caregiver.encode "id" = none := by
  simp [encode, Encoder.encode, Encoder.encodeDocumentID, Encoder.empty, CodingKeys.stringValue,
    Function.update]

theorem encode_name (caregiver : CareGiver) :
    caregiver.encode "name" = some (.string caregiver.name) := by
  simp [encode, Encoder.encode, CodingKeys.stringValue, Function.update]

theorem encode_email (caregiver : CareGiver) :
    caregiver.encode "email" = some (.string caregiver.email) := by
  simp [encode, Encoder.encode, CodingKeys.stringValue]

/-- Reading back what was written gives the same caregiver under the document's ID. -/
theorem decode_encode (reference : DocumentReference) (caregiver : CareGiver) :
    decode reference caregiver.encode = .ok { caregiver with id := some reference.documentID } := by
  have decodedName : Decoder.decodeString caregiver.encode "name" = .ok caregiver.name :=
    Decoder.decode_present caregiver.encode_name rfl
  have decodedEmail : Decoder.decodeString caregiver.encode "email" = .ok caregiver.email :=
    Decoder.decode_present caregiver.encode_email rfl
  simp only [decode, CodingKeys.stringValue, Decoder.decodeDocumentID, encode_id, decodedName,
    decodedEmail, bind, Except.bind, pure, Except.pure]

/-- A decoded caregiver always carries the ID of its document. -/
theorem decode_documentID {reference : DocumentReference} {document : Document}
    {caregiver : CareGiver} (decoded : decode reference document = .ok caregiver) :
    caregiver.id = some reference.documentID := by
  simp only [decode, CodingKeys.stringValue] at decoded
  obtain ⟨id, ownID, decoded⟩ := Decoder.bind_ok decoded
  obtain ⟨name, -, decoded⟩ := Decoder.bind_ok decoded
  obtain ⟨email, -, decoded⟩ := Decoder.bind_ok decoded
  cases decoded
  exact Decoder.decodeDocumentID_ok ownID

end CareGiver

end DogFoodTracker
