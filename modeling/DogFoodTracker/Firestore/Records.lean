import DogFoodTracker.Firestore.RoundTrip

/-! # `Pet` and `CareGiver` through the general coders

The coders of the two record types, as they are used everywhere else, are what the
encoder and the decoder make of their shapes.
-/

namespace DogFoodTracker.Firestore

open FirestoreDecoder
open FirestoreEncoder (Represented)

/-- The entries of a dictionary as the fields of a document. -/
def asDocument (entries : List (String × Represented)) : Document :=
  fun key => (entries.lookup key).map shown

theorem describe_single (key : String) : describe [key] = "[\"" ++ key ++ "\"]" := by
  have opened : "[" ++ "\"" = "[\"" := rfl
  have closed : "\"" ++ "]" = "\"]" := rfl
  simp only [describe, List.map_cons, List.map_nil, String.intercalate_singleton, ← opened, ← closed,
    String.append_assoc]

theorem decodeDocumentID_document (reference : DocumentReference)
    (entries : List (String × Represented)) (key : String) :
    decodeDocumentID (some reference) [] entries key =
      Decoder.decodeDocumentID reference (asDocument entries) key := by
  have opened : "Field name " ++ "[\"" = "Field name [\"" := rfl
  have closed : "\"]" ++ " was found from document \"" = "\"] was found from document \"" := rfl
  simp only [decodeDocumentID, Decoder.decodeDocumentID, asDocument, List.nil_append,
    describe_single, ← opened, ← closed, String.append_assoc]
  cases entries.lookup key <;> rfl

/-- A field of a number or a string, in a dictionary and in a document. -/
theorem readKey_document {α : Type} (type : String)
    (unbox : List String → Value → Except DecodingError (Option α))
    (entries : List (String × Represented)) (key : String) :
    readKey [] type (fun path tree => unbox path (shown tree)) entries key =
      Decoder.decode type unbox (asDocument entries) key := by
  simp only [readKey, requireKey, Decoder.decode, Decoder.requireKey, asDocument]
  cases entries.lookup key <;> rfl

/-- `decode(_:forKey:)` of a number or a string in a document. -/
def Primitive.decode : (base : Primitive) → Document → String → Except DecodingError base.Value
  | .bool => Decoder.decodeBool
  | .int => Decoder.decodeInt
  | .string => Decoder.decodeString

theorem readKey_primitive (reference : Option DocumentReference) (base : Primitive)
    (entries : List (String × Represented)) (key : String) :
    readKey [] (Shape.primitive base).typeName (Shape.decode reference (.primitive base) true) entries
        key =
      base.decode (asDocument entries) key := by
  cases base with
  | bool => exact readKey_document "Bool" Decoder.unboxBool entries key
  | int => exact readKey_document "Int" Decoder.unboxInt entries key
  | string => exact readKey_document "String" Decoder.unboxString entries key

/-- A record is decoded as its fields are, in order. -/
theorem FirestoreDecoder.decode_fields {α : Type} (type : String) (fields : Fields)
    (entries : List (String × Represented)) (document : Option DocumentReference)
    (values : α → fields.Values) (decoded : Except DecodingError α)
    (same : fields.decode document [] entries = decoded.map values) :
    FirestoreDecoder.decode (.record type fields) entries document =
      .ofExcept (decoded.map values) () := by
  have reads := FirestoreDecoder.decode_reads (.record type fields) entries document
  have unfolded : (Shape.record type fields).decode document false [] (.dictionary entries) =
      (fields.decode document [] entries).map some := rfl
  rw [unfolded, same] at reads
  cases decoded <;>
    cases result : FirestoreDecoder.decode (.record type fields) entries document <;>
    simp only [result, Except.map] at reads <;> cases reads
  · rfl
  · rfl

/-- The coders of a record type are the general ones at its fields. -/
structure Synthesised {α : Type} (type : String) (fields : Fields) (values : α → fields.Values)
    (encode : α → Document) (decode : DocumentReference → Document → Except DecodingError α) :
    Prop where
  encodes : ∀ record, ∃ entries,
    FirestoreEncoder.encode type ((Shape.record type fields).encodable (values record)) =
      .ok entries () ∧ asDocument entries = encode record
  decodes : ∀ reference entries,
    FirestoreDecoder.decode (.record type fields) entries (some reference) =
      .ofExcept ((decode reference (asDocument entries)).map values) ()

theorem Synthesised.of_fields {α : Type} (type : String) {fields : Fields}
    {values : α → fields.Values} {encode : α → Document}
    {decode : DocumentReference → Document → Except DecodingError α} (distinct : fields.Distinct)
    (encoded : ∀ record, asDocument (fields.entries (values record)) = encode record)
    (decoded : ∀ reference entries, fields.decode (some reference) [] entries =
      (decode reference (asDocument entries)).map values) :
    Synthesised type fields values encode decode where
  encodes record := ⟨_, encode_record type fields distinct (values record), encoded record⟩
  decodes reference entries :=
    FirestoreDecoder.decode_fields type fields entries (some reference) values _
      (decoded reference entries)

end DogFoodTracker.Firestore

namespace DogFoodTracker

open Containers Firestore FirestoreDecoder
open FirestoreEncoder (Represented)

namespace Pet

def fields : Fields :=
  .documentID CodingKeys.id.stringValue <|
  .required CodingKeys.name.stringValue (.primitive .string) <|
  .required CodingKeys.breakfast.stringValue (.primitive .bool) <|
  .required CodingKeys.dinner.stringValue (.primitive .bool) <|
  .required CodingKeys.treats.stringValue (.primitive .int) .nil

def values (pet : Pet) : fields.Values :=
  (pet.id, pet.name, pet.breakfast, pet.dinner, pet.treats, ())

theorem fields_distinct : fields.Distinct := by
  simp [fields, Fields.Distinct, Fields.keys, Shape.Distinct, CodingKeys.stringValue]

theorem asDocument_entries (pet : Pet) : asDocument (fields.entries pet.values) = pet.encode := by
  funext key
  simp only [asDocument, fields, values, Fields.entries, CodingKeys.stringValue, lookup_entry]
  by_cases name : key = "name"
  · simp [name, encode_name, Shape.tree, shown, Primitive.box]
  by_cases breakfast : key = "breakfast"
  · simp [breakfast, encode_breakfast, Shape.tree, shown, Primitive.box]
  by_cases dinner : key = "dinner"
  · simp [dinner, encode_dinner, Shape.tree, shown, Primitive.box]
  by_cases treats : key = "treats"
  · simp [treats, encode_treats, Shape.tree, shown, Primitive.box]
  · simp [name, breakfast, dinner, treats, encode, Encoder.encode, Encoder.encodeDocumentID,
      Encoder.empty, CodingKeys.stringValue, Function.update]

theorem fields_decode (reference : DocumentReference) (entries : List (String × Represented)) :
    fields.decode (some reference) [] entries =
      (decode reference (asDocument entries)).map values := by
  have field := readKey_primitive (some reference)
  simp only [fields, Fields.decode, decode, decodeDocumentID_document]
  rw [field .string entries, field .bool entries, field .bool entries, field .int entries]
  simp only [Primitive.decode]
  cases Decoder.decodeDocumentID reference (asDocument entries) CodingKeys.id.stringValue with
  | error error => rfl
  | ok id =>
  cases Decoder.decodeString (asDocument entries) CodingKeys.name.stringValue with
  | error error => rfl
  | ok name =>
  cases Decoder.decodeBool (asDocument entries) CodingKeys.breakfast.stringValue with
  | error error => rfl
  | ok breakfast =>
  cases Decoder.decodeBool (asDocument entries) CodingKeys.dinner.stringValue with
  | error error => rfl
  | ok dinner =>
  cases Decoder.decodeInt (asDocument entries) CodingKeys.treats.stringValue with
  | error error => rfl
  | ok treats => rfl

end Pet

namespace CareGiver

def fields : Fields :=
  .documentID CodingKeys.id.stringValue <|
  .required CodingKeys.name.stringValue (.primitive .string) <|
  .required CodingKeys.email.stringValue (.primitive .string) .nil

def values (caregiver : CareGiver) : fields.Values :=
  (caregiver.id, caregiver.name, caregiver.email, ())

theorem fields_distinct : fields.Distinct := by
  simp [fields, Fields.Distinct, Fields.keys, Shape.Distinct, CodingKeys.stringValue]

theorem asDocument_entries (caregiver : CareGiver) :
    asDocument (fields.entries caregiver.values) = caregiver.encode := by
  funext key
  simp only [asDocument, fields, values, Fields.entries, CodingKeys.stringValue, lookup_entry]
  by_cases name : key = "name"
  · simp [name, encode_name, Shape.tree, shown, Primitive.box]
  by_cases email : key = "email"
  · simp [email, encode_email, Shape.tree, shown, Primitive.box]
  · simp [name, email, encode, Encoder.encode, Encoder.encodeDocumentID, Encoder.empty,
      CodingKeys.stringValue, Function.update]

theorem fields_decode (reference : DocumentReference) (entries : List (String × Represented)) :
    fields.decode (some reference) [] entries =
      (decode reference (asDocument entries)).map values := by
  have field := readKey_primitive (some reference)
  simp only [fields, Fields.decode, decode, decodeDocumentID_document]
  rw [field .string entries, field .string entries]
  simp only [Primitive.decode]
  cases Decoder.decodeDocumentID reference (asDocument entries) CodingKeys.id.stringValue with
  | error error => rfl
  | ok id =>
  cases Decoder.decodeString (asDocument entries) CodingKeys.name.stringValue with
  | error error => rfl
  | ok name =>
  cases Decoder.decodeString (asDocument entries) CodingKeys.email.stringValue with
  | error error => rfl
  | ok email => rfl

end CareGiver

/-- The documents of pets and caregivers are what the encoder writes and the decoder reads,
    for every record, every stored dictionary and every error. -/
theorem coders_synthesised :
    Synthesised "Pet" Pet.fields Pet.values Pet.encode Pet.decode ∧
      Synthesised "CareGiver" CareGiver.fields CareGiver.values CareGiver.encode CareGiver.decode :=
  ⟨.of_fields "Pet" Pet.fields_distinct Pet.asDocument_entries Pet.fields_decode,
    .of_fields "CareGiver" CareGiver.fields_distinct CareGiver.asDocument_entries
      CareGiver.fields_decode⟩

end DogFoodTracker
