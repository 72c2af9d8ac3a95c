import DogFoodTracker.Pet
import DogFoodTracker.Transition.Feeds

/-! # The two live lists

`PetsViewModel` and `CaregiversViewModel` each publish an array that the snapshot
listeners registered by `fetchData` overwrite. `HomeView` and `ProfileView` call
`fetchData` again on every `onAppear`, and nothing ever removes a listener.
-/

namespace DogFoodTracker

open Firestore Transition

structure QueryDocumentSnapshot where
  documentID : DocumentID
  data : Document

/-- The documents of one version of a collection, in order. -/
structure QuerySnapshot where
  documents : List QueryDocumentSnapshot
  distinct : (documents.map QueryDocumentSnapshot.documentID).Nodup

/-- A collection without documents. -/
def QuerySnapshot.empty : QuerySnapshot := ⟨[], List.nodup_nil⟩

/-- `try? queryDocumentSnapshot.data(as:)` over the documents of a snapshot, the
    ones that fail to decode left out. -/
def decodable {α : Type} (collection : String)
    (decode : DocumentReference → Document → Except DecodingError α)
    (documents : List QueryDocumentSnapshot) : List α :=
  documents.filterMap fun snapshot =>
    (decode { collection, documentID := snapshot.documentID } snapshot.data).toOption

/-- The closure that `fetchData` passes to `addSnapshotListener`. -/
def onSnapshot {α : Type} (decoded : List QueryDocumentSnapshot → List α)
    (querySnapshot : Option QuerySnapshot) (published : List α) : List α :=
  match querySnapshot.map QuerySnapshot.documents with
  | some documents => decoded documents
  -- "No documents"
  | none => published

namespace PetsViewModel

def decoded (documents : List QueryDocumentSnapshot) : List Pet :=
  decodable "pets" Pet.decode documents

def onSnapshot : Option QuerySnapshot → List Pet → List Pet :=
  DogFoodTracker.onSnapshot decoded

end PetsViewModel

namespace CaregiversViewModel

def decoded (documents : List QueryDocumentSnapshot) : List CareGiver :=
  decodable "caregivers" CareGiver.decode documents

def onSnapshot : Option QuerySnapshot → List CareGiver → List CareGiver :=
  DogFoodTracker.onSnapshot decoded

end CaregiversViewModel

/-- A record that carries its document's ID keeps the rows of a list apart. -/
theorem decodable_ids {α : Type} {collection : String}
    {decode : DocumentReference → Document → Except DecodingError α} {id : α → Option String}
    (own : ∀ reference document record, decode reference document = .ok record →
      id record = some reference.documentID) (documents : List QueryDocumentSnapshot) :
    ((decodable collection decode documents).map id).Sublist
      (documents.map fun snapshot => some snapshot.documentID) := by
  induction documents with
  | nil => exact .slnil
  | cons snapshot rest ih =>
      simp only [decodable, List.filterMap_cons, List.map_cons] at ih ⊢
      cases result : decode { collection, documentID := snapshot.documentID } snapshot.data with
      | error _ => exact ih.cons _
      | ok record =>
          simp only [Except.toOption, List.map_cons, own _ _ _ result]
          exact ih.cons_cons _

theorem nodup_ids {α : Type} {collection : String}
    {decode : DocumentReference → Document → Except DecodingError α} {id : α → Option String}
    (own : ∀ reference document record, decode reference document = .ok record →
      id record = some reference.documentID) (snapshot : QuerySnapshot) :
    ((decodable collection decode snapshot.documents).map id).Nodup := by
  refine (decodable_ids own snapshot.documents).nodup ?_
  have distinct := snapshot.distinct.map (f := some) fun _ _ => Option.some.inj
  simpa only [List.map_map, Function.comp_def] using distinct

/-- What a run of fetches, versions and callbacks leaves in the array of one view
    model, for the record type that `decoded` and `id` belong to. -/
structure Converges {Reader α : Type} [DecidableEq Reader]
    (decoded : List QueryDocumentSnapshot → List α) (id : α → Option String)
    (t : Feeds.State Reader QuerySnapshot (List α)) (reader : Reader) : Prop where
  /-- The array is the list of one single snapshot, which some listener of the view
      model was given last; it is empty until the first snapshot arrives. -/
  single : ∃ snapshot : QuerySnapshot, (t.readers reader).published = decoded snapshot.documents ∧
    ((∃ position, some position ∈ (t.readers reader).listeners ∧
        t.history[position]? = some snapshot) ∨
      (snapshot = .empty ∧ ∀ listener ∈ (t.readers reader).listeners, listener = none))
  /-- No row is there twice. -/
  rows : ((t.readers reader).published.map id).Nodup
  /-- Once every listener has had the latest version, the array is its list. -/
  latest : ∀ snapshot, Feeds.CaughtUp t reader → t.history.getLast? = some snapshot →
    (t.readers reader).published = decoded snapshot.documents

theorem converges {Reader α : Type} [DecidableEq Reader] {collection : String}
    {decode : DocumentReference → Document → Except DecodingError α} {id : α → Option String}
    (own : ∀ reference document record, decode reference document = .ok record →
      id record = some reference.documentID)
    {s t : Feeds.State Reader QuerySnapshot (List α)}
    {actions : List (Feeds.Action Reader QuerySnapshot)} (fresh : Feeds.Fresh [] s)
    (run : Runs (Feeds.step (onSnapshot (decodable collection decode))) s actions t)
    (reader : Reader) : Converges (decodable collection decode) id t reader := by
  have current := Feeds.run_current
    (fun snapshot : QuerySnapshot => decodable collection decode snapshot.documents)
    (fun _ _ => rfl) (fun _ => rfl) fresh run reader
  have single : ∃ snapshot : QuerySnapshot,
      (t.readers reader).published = decodable collection decode snapshot.documents ∧
        ((∃ position, some position ∈ (t.readers reader).listeners ∧
            t.history[position]? = some snapshot) ∨
          (snapshot = .empty ∧ ∀ listener ∈ (t.readers reader).listeners, listener = none)) := by
    cases current with
    | waiting nothing same => exact ⟨.empty, same, .inr ⟨rfl, nothing⟩⟩
    | standing position snapshot stands recorded same =>
        exact ⟨snapshot, same, .inl ⟨position, stands, recorded⟩⟩
  refine ⟨single, ?_, fun snapshot caughtUp last => current.caughtUp caughtUp last⟩
  obtain ⟨snapshot, same, -⟩ := single
  rw [same]
  exact nodup_ids own snapshot

/-- Two view models over one collection that have both caught up show the same list. -/
theorem Converges.agree {Reader α : Type} [DecidableEq Reader]
    {decoded : List QueryDocumentSnapshot → List α} {id : α → Option String}
    {t : Feeds.State Reader QuerySnapshot (List α)} {one other : Reader}
    (first : Converges decoded id t one) (second : Converges decoded id t other)
    (caughtUp : Feeds.CaughtUp t one) (caughtUp' : Feeds.CaughtUp t other) :
    (t.readers one).published = (t.readers other).published := by
  have nonempty : t.history ≠ [] := by
    obtain ⟨snapshot, -, ⟨position, -, recorded⟩ | ⟨-, nothing⟩⟩ := first.single
    · exact fun none => by simp [none] at recorded
    · obtain ⟨listener, member⟩ := List.exists_mem_of_ne_nil _ caughtUp.1
      exact nomatch (nothing listener member).symm.trans (caughtUp.2 listener member)
  have last := List.getLast?_eq_some_getLast nonempty
  rw [first.latest _ caughtUp last, second.latest _ caughtUp' last]

/-- However many listeners the view models register and however their callbacks
    interleave, every list is at every moment that of one single snapshot, errors
    leave it alone, and it ends as the list of the latest version. -/
theorem lists_converge {Reader : Type} [DecidableEq Reader]
    {s t : Feeds.State Reader QuerySnapshot (List Pet)}
    {s' t' : Feeds.State Reader QuerySnapshot (List CareGiver)}
    {actions actions' : List (Feeds.Action Reader QuerySnapshot)}
    (freshPets : Feeds.Fresh [] s) (freshCaregivers : Feeds.Fresh [] s')
    (pets : Runs (Feeds.step PetsViewModel.onSnapshot) s actions t)
    (caregivers : Runs (Feeds.step CaregiversViewModel.onSnapshot) s' actions' t') :
    (∀ reader, Converges PetsViewModel.decoded Pet.id t reader) ∧
    (∀ reader, Converges CaregiversViewModel.decoded CareGiver.id t' reader) ∧
    (∀ reader listener u, Feeds.step PetsViewModel.onSnapshot t (.error reader listener) = some u →
      ∀ other, (u.readers other).published = (t.readers other).published) ∧
    (∀ reader listener u,
      Feeds.step CaregiversViewModel.onSnapshot t' (.error reader listener) = some u →
        ∀ other, (u.readers other).published = (t'.readers other).published) ∧
    (∀ home profile, Feeds.CaughtUp t home → Feeds.CaughtUp t profile →
      (t.readers home).published = (t.readers profile).published) := by
  have petLists := fun reader =>
    converges (fun _ _ _ => Pet.decode_documentID) freshPets pets reader
  have caregiverLists := fun reader =>
    converges (fun _ _ _ => CareGiver.decode_documentID) freshCaregivers caregivers reader
  refine ⟨petLists, caregiverLists, ?_, ?_, ?_⟩
  · intro reader listener u failed other
    exact Feeds.error_published (fun _ => rfl) failed
  · intro reader listener u failed other
    exact Feeds.error_published (fun _ => rfl) failed
  · intro home profile caughtUp caughtUp'
    exact (petLists home).agree (petLists profile) caughtUp caughtUp'

/-- Two versions of a collection; the second holds a document that does not decode. -/
private def twoVersions : QuerySnapshot × QuerySnapshot :=
  let koda : QueryDocumentSnapshot := ⟨"koda", Pet.encode ⟨none, "Koda", true, false, 3⟩⟩
  let teddy : QueryDocumentSnapshot := ⟨"teddy", Pet.encode ⟨none, "Teddy", false, false, 0⟩⟩
  (⟨[koda], by decide⟩, ⟨[koda, ⟨"odd", Encoder.empty⟩, teddy], by decide⟩)

/-- `HomeView` (`true`) appears twice and `ProfileView` once; the second listener of
    the first is given the new version before the first listener has had the old. -/
private def twoVisits : List (Feeds.Action Bool QuerySnapshot) :=
  [.listen true, .listen false, .change twoVersions.1, .listen true, .change twoVersions.2,
    .deliver true 1 1, .deliver true 0 0, .error true 1, .deliver false 0 1, .deliver true 0 1]

theorem lists_converge_two_visits :
    ∃ t, Runs (Feeds.step PetsViewModel.onSnapshot) ⟨[], fun _ => ⟨[], []⟩⟩ twoVisits t ∧
      (t.readers true).published = (t.readers false).published ∧
      (t.readers true).published.map Pet.name = ["Koda", "Teddy"] := by
  have run : Runs (Feeds.step PetsViewModel.onSnapshot) ⟨[], fun _ => ⟨[], []⟩⟩ twoVisits _ :=
    Runs.of_isSome rfl
  have noCaregivers : Runs (Feeds.step CaregiversViewModel.onSnapshot)
      ⟨[], fun _ : Bool => ⟨[], []⟩⟩ [] _ := .done
  obtain ⟨-, -, -, -, agree⟩ := lists_converge (fun _ => rfl) (fun _ => rfl) run noCaregivers
  exact ⟨_, run, agree true false (by decide) (by decide), rfl⟩

end DogFoodTracker
