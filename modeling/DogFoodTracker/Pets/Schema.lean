import DogFoodTracker.HomeView
import DogFoodTracker.Pets.Clients
import DogFoodTracker.PetsViewModel

/-! # Every stored pet is a whole pet

Starting from an empty collection, whatever the clients do and however their steps
interleave, every document in `pets` has all four fields at their types, a non-empty
name and no field called `id`. A write that arrives after its document was deleted
fails instead of bringing a partial document back.
-/

namespace DogFoodTracker.Clients

open Firestore Transition

/-- What `fetchData`, the casts and the cards rely on. -/
structure PetDocument (document : Document) : Prop where
  name : ∃ name, document "name" = some (.string name) ∧ name ≠ ""
  breakfast : ∃ breakfast, document "breakfast" = some (.boolean breakfast)
  dinner : ∃ dinner, document "dinner" = some (.boolean dinner)
  treats : ∃ treats, document "treats" = some (.integer treats)
  noID : document "id" = none

/-- An entry that `updateData` can merge into a pet without spoiling it. -/
inductive PetEntry : String × Value → Prop where
  | breakfast (value : Bool) : PetEntry ("breakfast", .boolean value)
  | dinner (value : Bool) : PetEntry ("dinner", .boolean value)
  | treats (value : Int64) : PetEntry ("treats", .integer value)

theorem petDocument_encode {pet : Pet} (named : pet.name ≠ "") : PetDocument pet.encode where
  name := ⟨pet.name, pet.encode_name, named⟩
  breakfast := ⟨pet.breakfast, pet.encode_breakfast⟩
  dinner := ⟨pet.dinner, pet.encode_dinner⟩
  treats := ⟨pet.treats, pet.encode_treats⟩
  noID := pet.encode_id

theorem PetDocument.merge {document : Document} (whole : PetDocument document)
    {entry : String × Value} (fits : PetEntry entry) :
    PetDocument (Function.update document entry.1 (some entry.2)) := by
  obtain ⟨name, breakfast, dinner, treats, noID⟩ := whole
  cases fits <;> constructor <;> simp [Function.update, name, breakfast, dinner, treats, noID]

/-- On a whole pet an update writes a fitting entry, or overflows; its cast succeeds. -/
theorem PetDocument.callback {document : Document} (whole : PetDocument document)
    (update : Update) :
    (∃ entry, update.callback (some document) = .write entry ∧ PetEntry entry) ∨
      update.callback (some document) = .fail .overflow := by
  obtain ⟨-, ⟨breakfast, hasBreakfast⟩, ⟨dinner, hasDinner⟩, ⟨treats, hasTreats⟩, -⟩ := whole
  have castTreats : asInt (document "treats") = .ok treats := by rw [hasTreats]; rfl
  cases update with
  | updateBB =>
      have casted : asBool (document "breakfast") = .ok breakfast := by rw [hasBreakfast]; rfl
      exact .inl ⟨_, PetViewModel.update_ok casted rfl, .breakfast _⟩
  | updateDB =>
      have casted : asBool (document "dinner") = .ok dinner := by rw [hasDinner]; rfl
      exact .inl ⟨_, PetViewModel.update_ok casted rfl, .dinner _⟩
  | updateTreatsUp =>
      cases computed : checked (treats.toInt + 1) with
      | ok value => exact .inl ⟨_, PetViewModel.update_ok castTreats computed, .treats value⟩
      | error trap =>
          obtain ⟨rfl, -⟩ := checked_error computed
          refine .inr ?_
          simp only [Update.callback, PetViewModel.updateTreatsUp, PetViewModel.update, castTreats,
            computed]
  | updateTreatsDown =>
      cases computed : (if treats ≠ 0 then checked (treats.toInt - 1) else .ok treats) with
      | ok value => exact .inl ⟨_, PetViewModel.update_ok castTreats computed, .treats value⟩
      | error trap =>
          refine .inr ?_
          have overflow : trap = .overflow := by
            split at computed
            · exact (checked_error computed).1
            · cases computed
          simp only [Update.callback, PetViewModel.updateTreatsDown, PetViewModel.update,
            castTreats, computed, overflow]

/-- The invariant of the collection and of every write still to come. -/
structure Schema (s : State) : Prop where
  documents : ∀ id document, s.pets id = some document → PetDocument document
  pending : ∀ call entry, s.calls call = .writing entry → PetEntry entry
  casts : ∀ call, s.calls call ≠ .failed .cast

theorem Schema.callback {s : State} (schema : Schema s) (call : Call) :
    (∃ entry, call.update.callback (s.pets call.id) = .write entry ∧ PetEntry entry) ∨
      call.update.callback (s.pets call.id) = .fail .overflow ∨
      call.update.callback (s.pets call.id) = .nothing := by
  cases found : s.pets call.id with
  | none => exact .inr (.inr call.update.callback_none)
  | some document =>
      rcases (schema.documents _ _ found).callback call.update with writes | overflow
      · exact .inl writes
      · exact .inr (.inl overflow)

theorem step_schema {s t : State} {a : Action} (schema : Schema s) (taken : step s a = some t) :
    Schema t where
  documents := by
    apply step_documents (P := fun _ document => PetDocument document) taken schema.documents
    · intro form id document view _ _ submitted
      obtain ⟨rfl, named, -⟩ := AddPetView.submit_some submitted
      exact petDocument_encode named
    · intro call entry document _ writing whole
      exact whole.merge (schema.pending call entry writing)
  pending call entry writing := by
    rcases writing_origin taken writing with before | ⟨-, looked⟩
    · exact schema.pending call entry before
    · rcases schema.callback call with ⟨_, same, fits⟩ | same | same
      · obtain rfl := TwoStep.Outcome.write.inj (same.symm.trans looked)
        exact fits
      · exact nomatch same.symm.trans looked
      · exact nomatch same.symm.trans looked
  casts call failed := by
    rcases failed_origin taken failed with before | ⟨-, looked⟩
    · exact schema.casts call before
    · rcases schema.callback call with ⟨_, same, -⟩ | same | same
      · exact nomatch same.symm.trans looked
      · exact nomatch same.symm.trans looked
      · exact nomatch same.symm.trans looked

theorem initial_schema (uuid : Nat → String) : Schema (initial uuid) where
  documents _ _ stored := nomatch stored
  pending _ _ writing := nomatch writing
  casts _ failed := nomatch failed

theorem run_schema {uuid : Nat → String} {actions : List Action} {s : State}
    (run : Runs step (initial uuid) actions s) : Schema s :=
  run.invariant Schema (fun _ _ _ => step_schema) (initial_schema uuid)

/-! ## What the views make of it -/

/-- A snapshot lists documents of the collection. -/
def SnapshotOf (snapshot : QuerySnapshot) (pets : Collection) : Prop :=
  ∀ document, document ∈ snapshot.documents ↔ pets document.documentID = some document.data

/-- A row carries its document's ID and its fields. -/
structure RowOf (document : QueryDocumentSnapshot) (pet : Pet) : Prop where
  id : pet.id = some document.documentID
  name : document.data "name" = some (.string pet.name)
  breakfast : document.data "breakfast" = some (.boolean pet.breakfast)
  dinner : document.data "dinner" = some (.boolean pet.dinner)
  treats : document.data "treats" = some (.integer pet.treats)

/-- Whole pets all decode, each into a row of its own. -/
theorem decoded_rows {documents : List QueryDocumentSnapshot}
    (whole : ∀ document ∈ documents, PetDocument document.data) :
    List.Forall₂ RowOf documents (PetsViewModel.decoded documents) := by
  induction documents with
  | nil => exact .nil
  | cons document rest ih =>
      obtain ⟨⟨name, hasName, -⟩, ⟨breakfast, hasBreakfast⟩, ⟨dinner, hasDinner⟩,
        ⟨treats, hasTreats⟩, noID⟩ := whole document (by simp)
      have decoded := Pet.decode_ok ⟨"pets", document.documentID⟩ noID hasName
        hasBreakfast hasDinner hasTreats
      have rows := ih fun other member => whole other (List.mem_cons_of_mem _ member)
      simp only [PetsViewModel.decoded, decodable, List.filterMap_cons, decoded, Except.toOption]
        at rows ⊢
      exact .cons ⟨rfl, hasName, hasBreakfast, hasDinner, hasTreats⟩ rows

theorem rows_ids {documents : List QueryDocumentSnapshot} {pets : List Pet}
    (rows : List.Forall₂ RowOf documents pets) :
    pets.map Pet.id = documents.map fun document => some document.documentID := by
  induction rows with
  | nil => rfl
  | cons row _ ih => rw [List.map_cons, List.map_cons, row.id, ih]

theorem rows_identified {documents : List QueryDocumentSnapshot} {pets : List Pet}
    (rows : List.Forall₂ RowOf documents pets) : HomeView.Identified pets := by
  intro pet member
  have named : pet.id ∈ pets.map Pet.id := List.mem_map_of_mem member
  rw [rows_ids rows, List.mem_map] at named
  obtain ⟨document, -, same⟩ := named
  simp [← same]

/-- In every reachable state each stored document is a whole pet; each list built from
    the collection has one row per document, with its ID and its fields; no cast of a
    callback has failed; and no `pet.id!` of a card or of `removeItems` can. -/
theorem pets_schema {uuid : Nat → String} {actions : List Action} {s : State}
    (run : Runs step (initial uuid) actions s) :
    (∀ id document, s.pets id = some document → PetDocument document) ∧
    (∀ call, s.calls call ≠ .failed .cast) ∧
    ∀ snapshot : QuerySnapshot, SnapshotOf snapshot s.pets →
      let pets := PetsViewModel.decoded snapshot.documents
      List.Forall₂ RowOf snapshot.documents pets ∧ (pets.map Pet.id).Nodup ∧
      (∀ pet ∈ pets, ∀ update, ∃ id, (CardView.onTapGesture update pet).2 = .ok id) ∧
      ∀ offsets : IndexSet, (∀ index ∈ offsets.indices, index < pets.length) →
        (HomeView.removeItems pets offsets).2 = none := by
  have schema := run_schema run
  refine ⟨schema.documents, schema.casts, ?_⟩
  intro snapshot ofPets pets
  have rows : List.Forall₂ RowOf snapshot.documents pets :=
    decoded_rows fun document member => schema.documents _ _ ((ofPets document).mp member)
  have identified := rows_identified rows
  refine ⟨rows, nodup_ids (fun _ _ _ => Pet.decode_documentID) snapshot, ?_, ?_⟩
  · intro pet member update
    obtain ⟨id, named⟩ := Option.isSome_iff_exists.mp (identified pet member)
    exact ⟨id, by simp only [CardView.onTapGesture, Pet.unwrapID, named]⟩
  · intro offsets valid
    exact (HomeView.removeIndices_ok identified valid).1

/-- A treat for a pet that is deleted between the callback and the write. -/
private def lateTreat : List Action :=
  let up : Call := ⟨0, "koda", .updateTreatsUp⟩
  [.edit 0 "Koda", .submit 0 "koda", .call (.start up), .call (.read up), .delete "koda",
    .call (.write up), .gotIt 0, .edit 0 "Teddy", .submit 0 "teddy"]

theorem pets_schema_late_treat :
    ∃ s, Runs step (initial toString) lateTreat s ∧ s.pets "koda" = none ∧
      ∃ document, s.pets "teddy" = some document ∧ PetDocument document := by
  have run : Runs step (initial toString) lateTreat _ := Runs.of_isSome rfl
  obtain ⟨documents, -⟩ := pets_schema run
  exact ⟨_, run, rfl, _, rfl, documents "teddy" _ rfl⟩

end DogFoodTracker.Clients
