import DogFoodTracker.Pets.Clients
import DogFoodTracker.PetsViewModel
import Mathlib.Data.List.Sort

/-! # Snapshots of a collection

A listener on a whole collection is given all documents there are, in the order of
their IDs.
-/

namespace DogFoodTracker.Collection

open Firestore

/-- What is stored under the given IDs. -/
def listing (documents : Collection) (ids : List DocumentID) : List QueryDocumentSnapshot :=
  ids.filterMap fun id => (documents id).map fun data => { documentID := id, data }

theorem mem_listing {documents : Collection} {ids : List DocumentID}
    {document : QueryDocumentSnapshot} :
    document ∈ documents.listing ids ↔
      document.documentID ∈ ids ∧ documents document.documentID = some document.data := by
  simp only [listing, List.mem_filterMap, Option.map_eq_some_iff]
  constructor
  · rintro ⟨id, member, data, stored, rfl⟩
    exact ⟨member, stored⟩
  · rintro ⟨member, stored⟩
    exact ⟨_, member, _, stored, rfl⟩

theorem listing_ids (documents : Collection) (ids : List DocumentID) :
    (documents.listing ids).map QueryDocumentSnapshot.documentID =
      ids.filter fun id => (documents id).isSome := by
  induction ids with
  | nil => rfl
  | cons id rest ih =>
      cases stored : documents id with
      | none => simpa [listing, stored] using ih
      | some data => simpa [listing, stored] using ih

/-- IDs in the order in which documents are listed. -/
def ordered (ids : List DocumentID) : List DocumentID :=
  ids.dedup.insertionSort (· ≤ ·)

theorem mem_ordered {ids : List DocumentID} {id : DocumentID} : id ∈ ordered ids ↔ id ∈ ids := by
  simp only [ordered, List.mem_insertionSort, List.mem_dedup]

theorem nodup_ordered (ids : List DocumentID) : (ordered ids).Nodup :=
  (List.perm_insertionSort _ _).nodup_iff.mpr (List.nodup_dedup ids)

/-- The snapshot of a collection; `used` are the IDs of all documents there are or have
    been. -/
def snapshot (documents : Collection) (used : List DocumentID) : QuerySnapshot where
  documents := documents.listing (ordered used)
  distinct := by
    rw [listing_ids]
    exact (nodup_ordered used).filter _

theorem mem_snapshot {documents : Collection} {used : List DocumentID}
    {document : QueryDocumentSnapshot} :
    document ∈ (documents.snapshot used).documents ↔
      document.documentID ∈ used ∧ documents document.documentID = some document.data := by
  simp only [snapshot, mem_listing, mem_ordered]

/-- More IDs are listed around the ones there were. -/
theorem ordered_sublist {ids more : List DocumentID} (among : ids ⊆ more) :
    (ordered ids).Sublist (ordered more) := by
  apply List.sublist_insertionSort' (List.pairwise_insertionSort _ _)
  apply List.subperm_of_subset (nodup_ordered ids)
  intro id member
  exact List.mem_dedup.mpr (among (mem_ordered.mp member))

theorem ordered_perm {ids : List DocumentID} (distinct : ids.Nodup) : (ordered ids).Perm ids := by
  rw [ordered, List.dedup_eq_self.mpr distinct]
  exact List.perm_insertionSort _ _

/-- A listing is about its IDs only. -/
theorem listing_congr {documents documents' : Collection} {ids : List DocumentID}
    (same : ∀ id ∈ ids, documents id = documents' id) :
    documents.listing ids = documents'.listing ids :=
  List.filterMap_congr fun id member => by rw [same id member]

end DogFoodTracker.Collection
