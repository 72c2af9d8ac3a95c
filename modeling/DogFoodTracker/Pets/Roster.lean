import DogFoodTracker.Pets.Schema
import DogFoodTracker.Transition.History

/-! # The roster

What the collection is for, apart from meals and treats: pets are entered under a name
and struck off. However the clients' calls interleave, the names in the collection are
those entered and not struck off since. Nothing else adds, removes or renames a pet.
-/

namespace DogFoodTracker

open Firestore Transition

/-- The pets there are, by name. -/
abbrev Roster := DocumentID → Option String

namespace Roster

def empty : Roster := fun _ => none

def enter (roster : Roster) (id : DocumentID) (name : String) : Roster :=
  Function.update roster id (some name)

def strikeOff (roster : Roster) (id : DocumentID) : Roster :=
  Function.update roster id none

end Roster

namespace Clients

/-- Submit enters the name in its form, and a delete strikes off. -/
def enroll (s : State) (a : Action) (roster : Roster) : Roster :=
  match a with
  | .submit form id => roster.enter id (s.forms form).pet.name
  | .delete id => roster.strikeOff id
  | _ => roster

/-- The collection has the names of the roster, under the same IDs. -/
def Enrolled (roster : Roster) (pets : Collection) : Prop :=
  ∀ id, pets.fieldOf id "name" = (roster id).map fun name => some (.string name)

/-- What a call has pending leaves the names alone. -/
theorem fieldOf_name_updateData {s : State} (schema : Schema s) {call : Call}
    {entry : String × Value} (writing : s.calls call = .writing entry) (id : DocumentID) :
    (s.pets.updateData call.id entry).fieldOf id "name" = s.pets.fieldOf id "name" := by
  apply Collection.fieldOf_updateData
  rintro ⟨-, same⟩
  cases schema.pending call entry writing <;> simp at same

theorem step_enrolled {roster : Roster} {s t : State} {a : Action} (schema : Schema s)
    (enrolled : Enrolled roster s.pets) (taken : step s a = some t) :
    Enrolled (enroll s a roster) t.pets := by
  intro other
  have before := enrolled other
  rcases step_cases taken with ⟨form, text, rfl, rfl⟩ |
      ⟨form, id, document, view, rfl, fresh, submitted, rfl⟩ | ⟨form, view, rfl, _, rfl⟩ |
      ⟨id, rfl, rfl⟩ | ⟨action, server, rfl, stepped, rfl⟩
  · exact before
  · obtain ⟨rfl, -, -⟩ := AddPetView.submit_some submitted
    by_cases here : other = id
    · subst here
      have stored : Pet.encode (s.forms form).pet "name" = _ := Pet.encode_name _
      simp [Collection.fieldOf, State.pets, State.withPets, enroll, Roster.enter, stored]
    · simpa [Collection.fieldOf, State.pets, State.withPets, enroll, Roster.enter,
        Function.update_of_ne here] using before
  · exact before
  · by_cases here : other = id
    · subst here
      simp [Collection.fieldOf, State.pets, State.withPets, enroll, Roster.strikeOff]
    · simpa [Collection.fieldOf, State.pets, State.withPets, enroll, Roster.strikeOff,
        Function.update_of_ne here] using before
  · rcases TwoStep.store_origin stepped with same | ⟨call, entry, rfl, writing, same⟩
    · simpa only [State.pets, enroll, same] using before
    · have kept : server.store.fieldOf other "name" = s.pets.fieldOf other "name" := by
        rw [same]
        exact fieldOf_name_updateData schema writing other
      exact kept.trans before

/-- In every state of a run the names in the collection are exactly the roster's. -/
theorem names_enrolled {uuid : Nat → String} {actions : List Action} {s : State}
    (run : Runs step (initial uuid) actions s) :
    Always step enroll (fun roster s => Enrolled roster s.pets) Roster.empty (initial uuid)
      actions := by
  have both : Always step enroll (fun roster s => Schema s ∧ Enrolled roster s.pets) Roster.empty
      (initial uuid) actions := by
    apply run.always
    · exact ⟨initial_schema uuid, fun _ => rfl⟩
    · rintro roster s a t ⟨schema, enrolled⟩ taken
      exact ⟨step_schema schema taken, step_enrolled schema enrolled taken⟩
  exact both.imp fun _ _ => And.right

/-- Koda's breakfast is on its way when Koda is struck off. -/
private def struckOffAtBreakfast : List Action :=
  let breakfast : Call := ⟨0, "koda", .updateBB⟩
  [.edit 0 "Koda", .submit 0 "koda", .call (.start breakfast), .call (.read breakfast),
    .edit 1 "Teddy", .submit 1 "teddy", .delete "koda", .call (.write breakfast)]

theorem names_enrolled_struck_off :
    ∃ s, Runs step (initial toString) struckOffAtBreakfast s ∧
      s.pets.fieldOf "teddy" "name" = some (some (.string "Teddy")) ∧
      Enrolled (recorded step enroll Roster.empty (initial toString) struckOffAtBreakfast) s.pets := by
  have run : Runs step (initial toString) struckOffAtBreakfast _ := Runs.of_isSome rfl
  exact ⟨_, run, rfl, (names_enrolled run).last run⟩

end Clients

end DogFoodTracker
