import DogFoodTracker.Core.LocalView

/-! # Querying a collection

A query does not read the documents of its collection one by one: it scans the cache for
them and lays every pending batch that touches the collection over the result at once.
Batches bring documents of other collections along, and the cache keeps more than
documents; what is left at the end is what reading each document would have shown.
-/

namespace DogFoodTracker.Core

/-- `Query` for a collection. `accepts` is what its order, filters and bounds say of a
    document; a query for everything accepts every one. -/
structure CollectionQuery where
  path : List String
  accepts : DocumentKey → MaybeDocument → Bool

/-- The documents found, by their keys. -/
abbrev DocumentMap := DocumentKey → Option MaybeDocument

/-- `IsImmediateParentOf`. -/
def isImmediateParentOf (path : List String) (key : DocumentKey) : Bool :=
  path.length + 1 = key.length && path.isPrefixOf key

def CollectionQuery.matches (q : CollectionQuery) (key : DocumentKey) (doc : MaybeDocument) : Bool :=
  isImmediateParentOf q.path key && q.accepts key doc

def Mutation.isPatch : Mutation → Bool
  | .patch .. => true
  | _ => false

namespace LocalStore

/-- `GetMatching`, for documents of any age. -/
def getMatching (s : LocalStore) (q : CollectionQuery) : DocumentMap := fun key =>
  if isImmediateParentOf q.path key then (s.remoteDocuments key).filter MaybeDocument.isDocument
  else none

def allMutationBatchesAffectingQuery (s : LocalStore) (q : CollectionQuery) : List MutationBatch :=
  s.queue.filter fun batch => batch.keys.any (isImmediateParentOf q.path)

/-- The patched documents that `AddMissingBaseDocuments` looks up. -/
def missingDocKeys (batches : List MutationBatch) (existingDocs : DocumentMap) : List DocumentKey :=
  ((batches.flatMap MutationBatch.mutations).filter fun mutation =>
    mutation.isPatch && (existingDocs mutation.key).isNone).map Mutation.key

def addBaseDocument (s : LocalStore) (docs : DocumentMap) (key : DocumentKey) : DocumentMap :=
  match s.remoteDocuments key with
  | some doc => if doc.isDocument then Function.update docs key (some doc) else docs
  | none => docs

def addMissingBaseDocuments (s : LocalStore) (batches : List MutationBatch)
    (existingDocs : DocumentMap) : DocumentMap :=
  (missingDocKeys batches existingDocs).foldl s.addBaseDocument existingDocs

/-- A mutation of the batches laid over what was found. -/
def applyToResults (q : CollectionQuery) (results : DocumentMap) (mutation : Mutation) : DocumentMap :=
  if isImmediateParentOf q.path mutation.key then
    match mutation.applyToLocalView (results mutation.key) with
    | some doc =>
        if doc.isDocument then Function.update results mutation.key (some doc)
        else Function.update results mutation.key none
    | none => Function.update results mutation.key none
  else results

/-- What is found before the query has the last word on it. -/
def unfiltered (s : LocalStore) (q : CollectionQuery) : DocumentMap :=
  (s.allMutationBatchesAffectingQuery q).foldl
    (fun results batch => batch.mutations.foldl (applyToResults q) results)
    (s.addMissingBaseDocuments (s.allMutationBatchesAffectingQuery q) (s.getMatching q))

def getDocumentsMatchingCollectionQuery (s : LocalStore) (q : CollectionQuery) : DocumentMap :=
  fun key => (s.unfiltered q key).filter (q.matches key)

variable {q : CollectionQuery} {key : DocumentKey} {document : Option MaybeDocument}
  {mutation : Mutation}

/-- The document, if that is what is known. -/
def existing (document : Option MaybeDocument) : Option MaybeDocument :=
  document.filter MaybeDocument.isDocument

theorem existing_document {doc : MaybeDocument} (isDocument : doc.isDocument = true) :
    existing (some doc) = some doc := by
  rw [existing, Option.filter_some, if_pos isDocument]

theorem existing_other {doc : MaybeDocument} (other : doc.isDocument = false) :
    existing (some doc) = none := by
  rw [existing, Option.filter_some, if_neg (by simp [other])]

/-- A mutation makes the same of what is no document, whatever is known of it. -/
theorem existing_applyToLocalView (mutation : Mutation) (document : Option MaybeDocument) :
    existing (mutation.applyToLocalView (existing document)) =
      existing (mutation.applyToLocalView document) := by
  have absent : ∀ doc : MaybeDocument, doc.isDocument = false →
      existing (mutation.applyToLocalView none) =
        existing (mutation.applyToLocalView (some doc)) := by
    intro doc other
    have valid : mutation.precondition.isValidFor none =
        mutation.precondition.isValidFor (some doc) := by
      cases mutation.precondition with
      | none => rfl
      | «exists» => simp [Precondition.isValidFor, other]
      | updateTime =>
          cases doc with
          | document => cases other
          | noDocument => rfl
          | unknownDocument => rfl
    have version : Mutation.getPostMutationVersion none =
        Mutation.getPostMutationVersion (some doc) := by
      cases doc with
      | document => cases other
      | noDocument => rfl
      | unknownDocument => rfl
    have data : contents none = contents (some doc) := by
      cases doc with
      | document => cases other
      | noDocument => rfl
      | unknownDocument => rfl
    unfold Mutation.applyToLocalView
    rw [valid]
    split
    · cases mutation with
      | set => simp only [version]
      | patch => simp only [version, Mutation.patchDocument, data]
      | delete => rfl
    · exact (existing_other other).symm
  cases document with
  | none => rfl
  | some doc =>
      cases isDocument : doc.isDocument with
      | true => rw [existing_document isDocument]
      | false =>
          rw [existing_other isDocument]
          exact absent doc isDocument

theorem applyToResults_inside (inside : isImmediateParentOf q.path mutation.key = true)
    (results : DocumentMap) :
    applyToResults q results mutation = Function.update results mutation.key
      (existing (mutation.applyToLocalView (results mutation.key))) := by
  rw [applyToResults, if_pos inside]
  cases mutation.applyToLocalView (results mutation.key) with
  | none => rfl
  | some doc =>
      cases isDocument : doc.isDocument with
      | true => simp [existing_document, isDocument]
      | false => simp [existing_other, isDocument]

theorem applyToResults_eq (inside : isImmediateParentOf q.path key = true) (results : DocumentMap)
    (mutation : Mutation) (here : results key = existing document) :
    applyToResults q results mutation key =
      existing (if mutation.key = key then mutation.applyToLocalView document else document) := by
  by_cases same : mutation.key = key
  · subst same
    rw [applyToResults_inside inside, Function.update_self, if_pos rfl, here,
      existing_applyToLocalView]
  · rw [if_neg same, ← here]
    by_cases collected : isImmediateParentOf q.path mutation.key = true
    · rw [applyToResults_inside collected, Function.update_of_ne (Ne.symm same)]
    · rw [applyToResults, if_neg collected]

/-- A batch lays over the documents of the collection what it lays over each of them. -/
theorem batch_applied (inside : isImmediateParentOf q.path key = true) (batch : MutationBatch)
    (results : DocumentMap) (here : results key = existing document) :
    batch.mutations.foldl (applyToResults q) results key =
      existing (batch.applyToLocalDocument document key) := by
  rw [MutationBatch.applyToLocalDocument]
  generalize batch.mutations = mutations
  induction mutations generalizing results document with
  | nil => exact here
  | cons mutation rest ih => exact ih _ (applyToResults_eq inside results mutation here)

theorem batches_applied (inside : isImmediateParentOf q.path key = true)
    (batches : List MutationBatch) (results : DocumentMap) (here : results key = existing document) :
    (batches.filter fun batch => batch.keys.any (isImmediateParentOf q.path)).foldl
        (fun results batch => batch.mutations.foldl (applyToResults q) results) results key =
      existing (batches.foldl (fun document batch => batch.applyToLocalDocument document key)
        document) := by
  induction batches generalizing results document with
  | nil => exact here
  | cons batch rest ih =>
      rw [List.filter_cons]
      split
      · exact ih _ (batch_applied inside batch results here)
      · rename_i elsewhere
        have other : batch.affects key = false := by
          by_contra affected
          rw [Bool.not_eq_false, MutationBatch.affects_iff] at affected
          exact elsewhere (List.any_eq_true.mpr ⟨key, affected, inside⟩)
        rw [List.foldl_cons, MutationBatch.applyToLocalDocument_other other]
        exact ih results here

/-- What is looked up once more is already there, or no document. -/
theorem addMissing_eq (inside : isImmediateParentOf q.path key = true) (s : LocalStore)
    (keys : List DocumentKey) (docs : DocumentMap)
    (here : docs key = existing (s.remoteDocuments key)) :
    keys.foldl s.addBaseDocument docs key = existing (s.remoteDocuments key) := by
  induction keys generalizing docs with
  | nil => exact here
  | cons other rest ih =>
      apply ih
      rw [addBaseDocument]
      cases cached : s.remoteDocuments other with
      | none => exact here
      | some doc =>
          cases isDocument : doc.isDocument with
          | false => simpa [isDocument] using here
          | true =>
              simp only [isDocument, if_true]
              by_cases same : other = key
              · subst same
                rw [Function.update_self, cached, existing_document isDocument]
              · rw [Function.update_of_ne (Ne.symm same), here]

end LocalStore

end DogFoodTracker.Core
