import DogFoodTracker.Pets.Screens

/-! # What the screens showed and what they come to show

Every list on a screen is the whole collection as it was at one moment of the run. Once
a screen has been given a snapshot of the present and has been rendered, it shows the
pets entered and not struck off since, each once.
-/

namespace DogFoodTracker.Screens

open Firestore Transition

variable {Reader : Type}

/-- `ForEach(petViewModel.pets) { pet in Text("\(pet.name)") }` of `ProfileView`. -/
def profileNames (pets : List Pet) : List String :=
  pets.map Pet.name

/-- What is stored under each document's name is shown, in order. -/
def Names (documents : List QueryDocumentSnapshot) (names : List String) : Prop :=
  List.Forall₂ (fun document name => document.data "name" = some (.string name)) documents names

/-- Both views of a list, row by row, for a collection as it is in `s`. -/
structure Pictures (s : State Reader) (pets : List Pet) : Prop where
  home : List.Forall₂ HomeView.Displays s.now.documents (pets.map CardView.body)
  profile : Names s.now.documents (profileNames pets)

theorem Inv.rows {s : State Reader} (inv : Inv s) :
    List.Forall₂ Clients.RowOf s.now.documents (PetsViewModel.decoded s.now.documents) :=
  Clients.decoded_rows fun _ member =>
    inv.schema.documents _ _ (Collection.mem_snapshot.mp member).2

/-- A list made of a snapshot of now pictures now. -/
theorem Inv.pictures {s : State Reader} (inv : Inv s) :
    Pictures s (PetsViewModel.decoded s.now.documents) := by
  have rows := inv.rows
  constructor
  · rw [List.forall₂_map_right_iff]
    exact rows.imp fun _ _ => HomeView.displays_body
  · rw [Names, profileNames, List.forall₂_map_right_iff]
    exact rows.imp fun _ _ row => row.name

theorem Inv.cards {s : State Reader} (inv : Inv s) (reader : Reader) :
    HomeView.cards (s.rows reader) = (s.rows reader).elements.map CardView.body := by
  rw [HomeView.cards, inv.fresh reader, List.map_map]
  rfl

/-- Each document there is has one place in the snapshot. -/
theorem Inv.mem_now {s : State Reader} (inv : Inv s) {document : QueryDocumentSnapshot} :
    document ∈ s.now.documents ↔ s.pets document.documentID = some document.data := by
  refine Collection.mem_snapshot.trans (and_iff_right_of_imp fun stored => ?_)
  exact inv.accounted _ (by rw [State.pets] at stored; simp [stored])

/-- Each pet of the roster has a row, and each row is of the roster. -/
theorem Inv.roster {s : State Reader} (inv : Inv s) {roster : Roster}
    (enrolled : Clients.Enrolled roster s.pets) (id : DocumentID) (name : String) :
    roster id = some name ↔
      ∃ pet ∈ PetsViewModel.decoded s.now.documents, pet.id = some id ∧ pet.name = name := by
  have named : roster id = some name ↔
      s.pets.fieldOf id "name" = some (some (.string name)) := by
    rw [enrolled id]
    simp
  have rows := inv.rows
  rw [named, Collection.fieldOf, Option.map_eq_some_iff]
  constructor
  · rintro ⟨stored, found, has⟩
    have member : ({ documentID := id, data := stored } : QueryDocumentSnapshot) ∈ s.now.documents :=
      inv.mem_now.mpr found
    obtain ⟨position, inside, at_⟩ := List.getElem_of_mem member
    have row := rows.get inside (rows.length_eq ▸ inside)
    rw [List.get_eq_getElem, at_] at row
    refine ⟨_, List.getElem_mem _, row.id, ?_⟩
    simpa using row.name.symm.trans has
  · rintro ⟨pet, member, own, rfl⟩
    obtain ⟨position, inside, rfl⟩ := List.getElem_of_mem member
    have row := rows.get (rows.length_eq ▸ inside) inside
    have stored := inv.mem_now.mp (List.getElem_mem (rows.length_eq ▸ inside))
    obtain rfl := Option.some.inj (row.id.symm.trans own)
    exact ⟨_, stored, row.name⟩

section Steps

variable [DecidableEq Reader]

/-- Versions are only ever recorded of the state they are a snapshot of. -/
theorem step_recorded {s t : State Reader} {a : Action Reader} (taken : step s a = some t) :
    ∀ version ∈ t.feeds.history, version ∈ s.feeds.history ∨ version = s.now := by
  intro version member
  cases step_inv taken with
  | client | render | onTapGesture => exact .inl member
  | feed _ other action feeds now stepped =>
      rcases Feeds.step_history stepped with same | ⟨new, changed, same⟩ <;> rw [same] at member
      · exact .inl member
      · rcases List.mem_append.mp member with old | last
        · exact .inl old
        · obtain rfl := List.mem_singleton.mp last
          exact .inr (now version changed)

/-- What a list made of one of the versions pictures is a state the run passed through. -/
theorem listed_sometime {uuid : Nat → String} {actions : List (Action Reader)} {s : State Reader}
    (run : Runs step (initial uuid) actions s) {pets : List Pet}
    (listed : Listed s.feeds.history pets) :
    pets = [] ∨ Sometime step (fun u => Pictures u pets) (initial uuid) actions := by
  rcases listed with none | ⟨version, recorded, rfl⟩
  · exact .inl none
  · refine .inr ?_
    rcases run.sometime_of_recorded (fun s => s.feeds.history) (fun version s => version = s.now)
      (fun _ _ _ => step_recorded) version recorded with already | ⟨before, after, u, parts, earlier, rfl⟩
    · cases already
    · exact ⟨before, after, u, parts, earlier, (run_inv earlier).pictures⟩

/-! ## The roster of a run -/

def enroll (s : State Reader) (a : Action Reader) (roster : Roster) : Roster :=
  match a with
  | .client action => Clients.enroll s.server.clients action roster
  | _ => roster

theorem step_enrolled {roster : Roster} {s t : State Reader} {a : Action Reader} (inv : Inv s)
    (enrolled : Clients.Enrolled roster s.pets) (taken : step s a = some t) :
    Clients.Enrolled (enroll s a roster) t.pets := by
  cases step_inv taken with
  | client action server stepped =>
      exact Clients.step_enrolled inv.schema enrolled (stale_act stepped).1
  | feed _ other action feeds now stepped =>
      cases a with
      | client action => exact absurd rfl (other action)
      | _ => exact enrolled
  | render => exact enrolled
  | onTapGesture reader position ticket update rows call server tapped started =>
      exact Clients.step_enrolled inv.schema enrolled (stale_act started).1

theorem run_enrolled {uuid : Nat → String} {actions : List (Action Reader)} {s : State Reader}
    (run : Runs step (initial uuid) actions s) :
    Clients.Enrolled (recorded step enroll Roster.empty (initial uuid) actions) s.pets := by
  have always : Always step enroll (fun roster s => Inv s ∧ Clients.Enrolled roster s.pets)
      Roster.empty (initial uuid) actions := by
    apply run.always
    · exact ⟨initial_inv uuid, fun _ => rfl⟩
    · rintro roster s a t ⟨inv, enrolled⟩ taken
      exact ⟨step_keeps inv taken, step_enrolled inv enrolled taken⟩
  exact (always.last run).2

/-- A view model that has been given a snapshot of the present lists exactly the pets
    entered and not struck off since, each once and under its name, row by row what is
    stored; and its screen shows that list as soon as it is rendered. -/
theorem screens_settle {uuid : Nat → String} {actions : List (Action Reader)} {s : State Reader}
    (run : Runs step (initial uuid) actions s) (reader : Reader)
    (made : s.feeds.history.getLast? = some s.now) (caughtUp : Feeds.CaughtUp s.feeds reader) :
    (∀ id name, recorded step enroll Roster.empty (initial uuid) actions id = some name ↔
      ∃ pet ∈ s.published reader, pet.id = some id ∧ pet.name = name) ∧
    ((s.published reader).map Pet.id).Nodup ∧
    (∀ document, document ∈ s.now.documents ↔ s.pets document.documentID = some document.data) ∧
    Pictures s (s.published reader) ∧
    ∃ t, step s (.render reader) = some t ∧
      HomeView.cards (t.rows reader) = (s.published reader).map CardView.body := by
  have inv := run_inv run
  have latest : s.published reader = PetsViewModel.decoded s.now.documents :=
    (inv.current reader).caughtUp caughtUp made
  refine ⟨?_, ?_, fun _ => inv.mem_now, ?_, ?_⟩
  · rw [latest]
    exact inv.roster (run_enrolled run)
  · rw [latest]
    exact nodup_ids (fun _ _ _ => Pet.decode_documentID) s.now
  · rw [latest]
    exact inv.pictures
  · have rendered : ∃ t, step s (.render reader) = some t := ⟨_, rfl⟩
    obtain ⟨t, taken⟩ := rendered
    refine ⟨t, taken, ?_⟩
    rw [(step_keeps inv taken).cards reader]
    cases taken
    simp only [Function.update_self]

/-- Of Koda and Teddy, entered one after the other, Koda is struck off again. -/
private def kodaStruckOff : List (Action Unit) :=
  [.listen (), .client (.edit 0 "Koda"), .client (.submit 0 "koda"), .snapshot, .deliver () 0 0,
    .client (.gotIt 0), .client (.edit 0 "Teddy"), .client (.submit 0 "teddy"),
    .client (.delete "koda"), .snapshot, .deliver () 0 1]

theorem screens_settle_koda_struck_off :
    ∃ s, Runs step (initial toString) kodaStruckOff s ∧
      (s.published ()).map Pet.name = ["Teddy"] ∧ Pictures s (s.published ()) := by
  have run : Runs step (initial toString) kodaStruckOff _ := Runs.of_isSome rfl
  obtain ⟨-, -, -, pictures, -⟩ := screens_settle run () rfl (by decide)
  exact ⟨_, run, rfl, pictures⟩

end Steps

end DogFoodTracker.Screens
