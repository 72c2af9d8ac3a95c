import DogFoodTracker.Core.ObjectValue

/-! # Mutations of documents

A mutation is applied twice: to what is shown while it is pending, and to the cached
document once the backend has committed it. What both do to a document's data is one
effect, for the mutations that the API writes.
-/

namespace DogFoodTracker.Core

/-- The path of a document, as its segments. -/
abbrev DocumentKey := List String

/-- Versions by their order; `None` is the first. -/
abbrev SnapshotVersion := Nat

inductive DocumentState where
  | localMutations
  | committedMutations
  | synced
  deriving DecidableEq, Repr

/-- What is known of a document; its key is that of the map it is kept in. -/
inductive MaybeDocument where
  | document (data : ObjectValue) (version : SnapshotVersion) (state : DocumentState)
  | noDocument (version : SnapshotVersion) (hasCommittedMutations : Bool)
  | unknownDocument (version : SnapshotVersion)

namespace MaybeDocument

def version : MaybeDocument → SnapshotVersion
  | .document _ version _ | .noDocument version _ | .unknownDocument version => version

def isDocument : MaybeDocument → Bool
  | .document .. => true
  | _ => false

def hasPendingWrites : MaybeDocument → Bool
  | .document _ _ state => state ≠ .synced
  | .noDocument _ hasCommittedMutations => hasCommittedMutations
  | .unknownDocument _ => true

/-- The data of a document that exists. -/
def data : MaybeDocument → Option ObjectValue
  | .document data _ _ => some data
  | _ => none

end MaybeDocument

/-- The data that is shown for what is known. -/
def contents (document : Option MaybeDocument) : Option ObjectValue :=
  document.bind MaybeDocument.data

/-! ## Preconditions -/

inductive Precondition where
  | none
  | exists (exists_ : Bool)
  | updateTime (version : SnapshotVersion)
  deriving DecidableEq, Repr

def Precondition.isValidFor (document : Option MaybeDocument) : Precondition → Bool
  | .updateTime version =>
      match document with
      | some (.document _ documentVersion _) => documentVersion = version
      | _ => false
  | .exists exists_ => exists_ = (document.any MaybeDocument.isDocument)
  | .none => true

/-! ## Mutations -/

inductive Mutation where
  | set (key : DocumentKey) (value : ObjectValue) (precondition : Precondition)
  | patch (key : DocumentKey) (value : ObjectValue) (mask : List FieldPath)
      (precondition : Precondition)
  | delete (key : DocumentKey) (precondition : Precondition)

namespace Mutation

def key : Mutation → DocumentKey
  | .set key _ _ | .patch key _ _ _ | .delete key _ => key

def precondition : Mutation → Precondition
  | .set _ _ precondition | .patch _ _ _ precondition | .delete _ precondition => precondition

/-- One field of a patch: a field of the mask that the value lacks is deleted. -/
def patchField (value : ObjectValue) (object : ObjectValue) (path : FieldPath) : ObjectValue :=
  if path.isEmpty then object
  else
    match value.get path with
    | some new => object.set path new
    | none => object.delete path

def patchObject (value : ObjectValue) (mask : List FieldPath) (object : ObjectValue) : ObjectValue :=
  mask.foldl (patchField value) object

def patchDocument (value : ObjectValue) (mask : List FieldPath) (document : Option MaybeDocument) :
    ObjectValue :=
  patchObject value mask ((contents document).getD [])

def getPostMutationVersion : Option MaybeDocument → SnapshotVersion
  | some (.document _ version _) => version
  | _ => 0

def applyToLocalView (mutation : Mutation) (document : Option MaybeDocument) :
    Option MaybeDocument :=
  if mutation.precondition.isValidFor document then
    match mutation with
    | .set _ value _ => some (.document value (getPostMutationVersion document) .localMutations)
    | .patch _ value mask _ =>
        some (.document (patchDocument value mask document) (getPostMutationVersion document)
          .localMutations)
    | .delete _ _ => some (.noDocument 0 false)
  else document

/-- The backend has accepted the mutation at `version`, so its precondition held there. -/
def applyToRemoteDocument (mutation : Mutation) (document : Option MaybeDocument)
    (version : SnapshotVersion) : MaybeDocument :=
  match mutation with
  | .set _ value _ => .document value version .committedMutations
  | .patch _ value mask precondition =>
      if precondition.isValidFor document then
        .document (patchDocument value mask document) version .committedMutations
      else .unknownDocument version
  | .delete _ _ => .noDocument version true

/-! ## The effect on a document's data -/

/-- What is asked of the data of a document that may not exist. -/
def effect : Mutation → Option ObjectValue → Option ObjectValue
  | .set _ value _, _ => some value
  | .patch _ value mask _, data => data.map (patchObject value mask)
  | .delete _ _, _ => none

/-- The preconditions that `setData`, `updateData` and `delete` give their mutations. -/
def Plain : Mutation → Prop
  | .set _ _ precondition | .delete _ precondition => precondition = .none
  | .patch _ _ _ precondition => precondition = .exists true

instance (mutation : Mutation) : Decidable mutation.Plain :=
  match mutation with
  | .set _ _ _ | .delete _ _ | .patch _ _ _ _ => inferInstanceAs (Decidable (_ = _))

theorem isValidFor_exists (document : Option MaybeDocument) :
    (Precondition.exists true).isValidFor document = (contents document).isSome := by
  cases document with
  | none => rfl
  | some document => cases document <;> rfl

theorem Plain.applyToLocalView {mutation : Mutation} (plain : mutation.Plain)
    (document : Option MaybeDocument) :
    contents (mutation.applyToLocalView document) = mutation.effect (contents document) := by
  cases mutation with
  | set key value precondition =>
      obtain rfl : precondition = .none := plain
      rfl
  | patch key value mask precondition =>
      obtain rfl : precondition = .exists true := plain
      simp only [Mutation.applyToLocalView, Mutation.precondition, isValidFor_exists, effect,
        patchDocument]
      cases shown : contents document with
      | none => rw [Option.isSome_none, if_neg Bool.false_ne_true, shown, Option.map_none]
      | some data => rfl
  | delete key precondition =>
      obtain rfl : precondition = .none := plain
      rfl

/-- Committing has the effect that was shown while the mutation was pending, also where the
    cache does not know the document the backend has patched. -/
theorem Plain.applyToRemoteDocument {mutation : Mutation} (plain : mutation.Plain)
    (document : Option MaybeDocument) (version : SnapshotVersion) :
    contents (some (mutation.applyToRemoteDocument document version)) =
      mutation.effect (contents document) := by
  cases mutation with
  | set key value precondition => rfl
  | patch key value mask precondition =>
      obtain rfl : precondition = .exists true := plain
      simp only [Mutation.applyToRemoteDocument, isValidFor_exists, effect, patchDocument]
      cases contents document with
      | none => rfl
      | some data => rfl
  | delete key precondition => rfl

@[simp] theorem applyToRemoteDocument_version (mutation : Mutation)
    (document : Option MaybeDocument) (version : SnapshotVersion) :
    (mutation.applyToRemoteDocument document version).version = version := by
  cases mutation with
  | set key value precondition => rfl
  | patch key value mask precondition =>
      simp only [Mutation.applyToRemoteDocument]
      split <;> rfl
  | delete key precondition => rfl

/-! ## Patches -/

variable {value object : ObjectValue} {mask : List FieldPath} {path : FieldPath}

theorem get_patchField_self (nonempty : path ≠ []) :
    (patchField value object path).get path = value.get path := by
  rw [patchField, if_neg (by simpa using nonempty)]
  split
  · rename_i new found
    rw [ObjectValue.get_set_self nonempty, found]
  · rename_i missing
    rw [ObjectValue.get_delete_self nonempty, missing]

theorem get_patchField_apart {other : FieldPath} (apart : ObjectValue.Apart path other) :
    (patchField value object path).get other = object.get other := by
  rw [patchField]
  split
  · rfl
  · split
    · exact ObjectValue.get_set_apart apart
    · exact ObjectValue.get_delete_apart apart

/-- A patch leaves every field alone that is apart from its mask. -/
theorem get_patchObject_apart (apart : ∀ masked ∈ mask, ObjectValue.Apart masked path) :
    (patchObject value mask object).get path = object.get path := by
  induction mask generalizing object with
  | nil => rfl
  | cons masked mask ih =>
      rw [patchObject, List.foldl_cons, ← patchObject,
        ih fun other member => apart other (List.mem_cons_of_mem _ member)]
      exact get_patchField_apart (apart masked List.mem_cons_self)

/-- A field of the mask becomes what the patch has there, when no other leads through it. -/
theorem get_patchObject_masked (nonempty : path ≠ []) (masked : path ∈ mask)
    (apart : mask.Pairwise ObjectValue.Apart) :
    (patchObject value mask object).get path = value.get path := by
  induction mask generalizing object with
  | nil => cases masked
  | cons first mask ih =>
      rw [List.pairwise_cons] at apart
      rw [patchObject, List.foldl_cons, ← patchObject]
      cases masked with
      | head =>
          rw [get_patchObject_apart fun other member => (apart.1 other member).symm]
          exact get_patchField_self nonempty
      | tail _ later => exact ih later apart.2

end Mutation

end DogFoodTracker.Core
