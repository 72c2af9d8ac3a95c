import DogFoodTracker.PetViewModel

/-! # The rows of `HomeView`

A card shows its copy of a pet and starts the updates under that pet's ID. Swiping
rows away turns their offsets into IDs and deletes those documents.
-/

namespace DogFoodTracker

open Firestore

/-- `pet.id!`. -/
def Pet.unwrapID (pet : Pet) : Except Trap DocumentID :=
  match pet.id with
  | some id => .ok id
  | none => .error .unwrap

/-! ## `CardView` -/

namespace CardView

structure Symbol where
  systemName : String
  color : String
  deriving DecidableEq, Repr

def checkmark (checked : Bool) : Symbol :=
  if checked then { systemName := "checkmark.circle.fill", color := "orange" }
  else { systemName := "circle", color := "gray" }

/-- What is on the screen of a card. -/
structure Card where
  name : String
  breakfast : Symbol
  dinner : Symbol
  treats : String
  deriving DecidableEq, Repr

def body (pet : Pet) : Card where
  name := pet.name
  breakfast := checkmark pet.breakfast
  dinner := checkmark pet.dinner
  treats := toString pet.treats

/-- The four tap handlers: the card's pet afterwards, and the ID the view model's
    update is called with. -/
def onTapGesture (_update : Update) (pet : Pet) : Pet × Except Trap DocumentID :=
  (pet, pet.unwrapID)

theorem checkmark_injective {checked checked' : Bool} (same : checkmark checked = checkmark checked') :
    checked = checked' := by
  revert same
  cases checked <;> cases checked' <;> decide

end CardView

/-! ## `removeItems` -/

/-- A set of offsets, which `forEach` visits in ascending order. -/
structure IndexSet where
  indices : List Nat
  ascending : indices.Pairwise (· < ·)

namespace HomeView

/-- The body of `forEach`: the deletes called so far, and the trap that ended the
    loop, if one did. -/
def removeIndices (pets : List Pet) : List Nat → List DocumentID × Option Trap
  | [] => ([], none)
  | index :: rest =>
      match pets[index]? with
      | none => ([], some .index)
      | some pet =>
          match pet.unwrapID with
          | .error trap => ([], some trap)
          | .ok id =>
              let (deleted, trap) := removeIndices pets rest
              (id :: deleted, trap)

def removeItems (pets : List Pet) (offsets : IndexSet) : List DocumentID × Option Trap :=
  removeIndices pets offsets.indices

/-- Every pet of the list has an ID. -/
def Identified (pets : List Pet) : Prop :=
  ∀ pet ∈ pets, pet.id.isSome

/-- With valid offsets into a list of pets that have IDs, the loop runs to its end and
    deletes what is at the offsets, in order. -/
theorem removeIndices_ok {pets : List Pet} (identified : Identified pets) {indices : List Nat}
    (valid : ∀ index ∈ indices, index < pets.length) :
    (removeIndices pets indices).2 = none ∧
      (removeIndices pets indices).1.map some =
        indices.map fun index => pets[index]?.bind Pet.id := by
  induction indices with
  | nil => exact ⟨rfl, rfl⟩
  | cons index rest ih =>
      have inside : index < pets.length := valid index (by simp)
      obtain ⟨finished, deleted⟩ := ih fun i member => valid i (List.mem_cons_of_mem _ member)
      obtain ⟨id, named⟩ := Option.isSome_iff_exists.mp (identified _ (List.getElem_mem inside))
      have unwrapped : pets[index].unwrapID = .ok id := by simp only [Pet.unwrapID, named]
      simp only [removeIndices, List.getElem?_eq_getElem inside, unwrapped, List.map_cons, finished,
        deleted, Option.bind_some, named, and_self]

end HomeView

end DogFoodTracker
