import DogFoodTracker.Core.CollectionQuery
import DogFoodTracker.Core.OwnWrites
import DogFoodTracker.Pets.Clients

/-! # The collection behind the library

The program writes documents through references and is shown a collection by a query. To
the program that is one collection that a write reaches at once; here a write is a batch in
a queue and what is shown is a scan. As long as nobody else has a say, the two are the same.
-/

namespace DogFoodTracker.Core

open Firestore Transition SortedMap

/-! ## Writing through references -/

structure ParsedSetData where
  data : ObjectValue

structure ParsedUpdateData where
  data : ObjectValue
  fieldMask : List FieldPath

def ParsedSetData.toMutations (setData : ParsedSetData) (key : DocumentKey)
    (precondition : Precondition) : List Mutation :=
  [.set key setData.data precondition]

def ParsedUpdateData.toMutations (updateData : ParsedUpdateData) (key : DocumentKey)
    (precondition : Precondition) : List Mutation :=
  [.patch key updateData.data updateData.fieldMask precondition]

/-- What the methods of a reference hand to `WriteMutations`. -/
structure DocumentReference where
  key : DocumentKey

namespace DocumentReference

def setData (reference : DocumentReference) (data : ParsedSetData) : List Mutation :=
  data.toMutations reference.key .none

def updateData (reference : DocumentReference) (data : ParsedUpdateData) : List Mutation :=
  data.toMutations reference.key (.exists true)

def deleteDocument (reference : DocumentReference) : List Mutation :=
  [.delete reference.key .none]

end DocumentReference

/-! ## What the program asks of a collection -/

/-- `addDocument` sets a new document, `updateData` is given one field. -/
inductive CollectionWrite where
  | addDocument (id : DocumentID) (data : ObjectValue)
  | updateData (id : DocumentID) (entry : String × Value)
  | delete (id : DocumentID)

namespace CollectionWrite

def mutations (collection : String) : CollectionWrite → List Mutation
  | .addDocument id data => DocumentReference.setData ⟨[collection, id]⟩ ⟨data⟩
  | .updateData id entry => DocumentReference.updateData ⟨[collection, id]⟩
      ⟨[(entry.1, .primitive entry.2)], [[entry.1]]⟩
  | .delete id => DocumentReference.deleteDocument ⟨[collection, id]⟩

end CollectionWrite

/-- A field as the program is handed it. -/
def FieldValue.value : FieldValue → Value
  | .primitive value => value
  | .array _ => .other "an array"
  | .object _ => .other "a dictionary"

def documentOf (data : ObjectValue) : Document := fun name =>
  (find name data).map FieldValue.value

/-- The same asked of the program's collection. -/
def CollectionWrite.applyTo (pets : Collection) : CollectionWrite → Collection
  | .addDocument id data => Function.update pets id (some (documentOf data))
  | .updateData id entry => pets.updateData id entry
  | .delete id => Function.update pets id none

/-- `collection(name)` as a query: all of its documents. -/
def collectionQuery (collection : String) : CollectionQuery := ⟨[collection], fun _ _ => true⟩

/-- What a listener of a collection is shown. -/
def LocalStore.shown (s : LocalStore) (collection : String) : Collection := fun id =>
  (contents (s.getDocumentsMatchingCollectionQuery (collectionQuery collection) [collection, id])).map
    documentOf

variable {collection : String} {id : DocumentID} {data : Option ObjectValue} {pets : Collection}

theorem contents_existing (document : Option MaybeDocument) :
    contents (LocalStore.existing document) = contents document := by
  cases document with
  | none => rfl
  | some doc => cases doc <;> rfl

theorem documentOf_insert (field : String) (value : Value) (object : ObjectValue) :
    documentOf (insert field (.primitive value) object) =
      Function.update (documentOf object) field (some value) := by
  funext name
  rw [documentOf, find_insert]
  by_cases same : field = name
  · subst same
    rw [if_pos rfl, Function.update_self]
    rfl
  · rw [if_neg same, Function.update_of_ne (Ne.symm same)]
    rfl

theorem patchObject_field (field : String) (value : FieldValue) (object : ObjectValue) :
    Mutation.patchObject [(field, value)] [[field]] object = insert field value object := by
  have found : ObjectValue.get [field] [(field, value)] = some value := by
    simp [ObjectValue.get, FieldValue.get, find]
  simp [Mutation.patchObject, Mutation.patchField, found, ObjectValue.set]

/-- A write of one document has an effect on that one. -/
theorem writeEffect_single (mutation : Mutation) (key : DocumentKey) :
    writeEffect [mutation] key data = if mutation.key = key then mutation.effect data else data := rfl

/-- One write: the library's and the program's, document by document. -/
theorem writeEffect_mutations (same : pets id = data.map documentOf) (write : CollectionWrite) :
    (writeEffect (write.mutations collection) [collection, id] data).map documentOf =
      write.applyTo pets id := by
  have key : ∀ other : DocumentID, [collection, other] = [collection, id] ↔ id = other := by
    intro other
    simp [eq_comm]
  cases write with
  | addDocument other object =>
      refine (congrArg (Option.map documentOf) (writeEffect_single _ _)).trans ?_
      simp only [Mutation.key, key, CollectionWrite.applyTo]
      by_cases here : id = other
      · subst here
        simp [Mutation.effect]
      · rw [if_neg here, Function.update_of_ne here, same]
  | updateData other entry =>
      refine (congrArg (Option.map documentOf) (writeEffect_single _ _)).trans ?_
      simp only [Mutation.key, key, CollectionWrite.applyTo]
      by_cases here : id = other
      · subst here
        rw [if_pos rfl, Collection.updateData_self, same, Option.map_map, Mutation.effect,
          Option.map_map]
        congr 1
        funext object
        simp only [Function.comp_apply, patchObject_field, documentOf_insert]
      · rw [if_neg here, Collection.updateData_other here, same]
  | delete other =>
      refine (congrArg (Option.map documentOf) (writeEffect_single _ _)).trans ?_
      simp only [Mutation.key, key, CollectionWrite.applyTo]
      by_cases here : id = other
      · subst here
        simp [Mutation.effect]
      · rw [if_neg here, Function.update_of_ne here, same]

theorem writeEffects_mutations (same : pets id = data.map documentOf)
    (writes : List CollectionWrite) :
    ((writes.map (CollectionWrite.mutations collection)).foldl
        (fun data mutations => writeEffect mutations [collection, id] data) data).map documentOf =
      writes.foldl CollectionWrite.applyTo pets id := by
  induction writes generalizing pets data with
  | nil => exact same.symm
  | cons write rest ih => exact ih (writeEffect_mutations same write).symm

theorem CollectionWrite.plain (write : CollectionWrite) :
    ∀ mutation ∈ write.mutations collection, mutation.Plain := by
  cases write <;> (intro mutation member; obtain rfl := List.mem_singleton.mp member; rfl)

variable {user : User} {actions later : List Action} {s t : FirestoreClient}
  {writes : List CollectionWrite}

/-- A pet is fed while the network is down. -/
def interruption : List Action :=
  [.disableNetwork,
    .write 3 (CollectionWrite.mutations "pets" (.updateData "rex" ("breakfast", .boolean false))),
    .enableNetwork, .streamStart]

end DogFoodTracker.Core
