import DogFoodTracker.Pet
import DogFoodTracker.Transition.TwoStep
import Mathlib.Algebra.Ring.Int.Defs
import Mathlib.Algebra.Ring.Nat

/-! # The calls of a pet card and the form that adds a pet

Each update reads its field in the `getDocument` callback, computes the new value on
the client and dispatches a separate `updateData`. What the callback comes to is an
outcome: nothing when the document does not exist, the entry to write, or the trap
that stops the process.
-/

namespace DogFoodTracker

open Firestore Transition

/-- What a `getDocument` callback comes to: the dictionary entry it will hand to
    `updateData`, if it gets that far. -/
abbrev Callback := TwoStep.Outcome (String × Value) Trap

/-- The result of `Int` arithmetic, which traps past the ends of the 64-bit range. -/
def checked (result : Int) : Except Trap Int64 :=
  if -2 ^ 63 ≤ result ∧ result < 2 ^ 63 then .ok (.ofInt result) else .error .overflow

theorem checked_ok {result : Int} {value : Int64} (computed : checked result = .ok value) :
    value.toInt = result := by
  simp only [checked] at computed
  split at computed
  · rename_i inside
    cases computed
    exact Int64.toInt_ofInt_of_le inside.1 inside.2
  · cases computed

theorem checked_error {result : Int} {trap : Trap} (failed : checked result = .error trap) :
    trap = .overflow ∧ (result < -2 ^ 63 ∨ 2 ^ 63 ≤ result) := by
  simp only [checked] at failed
  split at failed
  · cases failed
  · rename_i outside
    cases failed
    exact ⟨rfl, by omega⟩

namespace PetViewModel

/-- The closure of one update: cast the field, compute, dispatch. `document` is
    `none` when the callback got no snapshot, or one that does not exist. -/
def update {α : Type} (get : String) (cast : Option Value → Except Trap α)
    (compute : α → Except Trap α) (write : α → String × Value) (document : Option Document) :
    Callback :=
  match document with
  -- "Document does not exist"
  | none => .nothing
  | some document =>
      match cast (document get) with
      | .error trap => .fail trap
      | .ok curr =>
          match compute curr with
          | .error trap => .fail trap
          | .ok curr => .write (write curr)

def updateBB : Option Document → Callback :=
  update "breakfast" asBool (fun curr => .ok !curr) fun curr => ("breakfast", .boolean curr)

def updateDB : Option Document → Callback :=
  update "dinner" asBool (fun curr => .ok !curr) fun curr => ("dinner", .boolean curr)

def updateTreatsUp : Option Document → Callback :=
  update "treats" asInt (fun curr => checked (curr.toInt + 1))
    fun curr => ("treats", .integer curr)

def updateTreatsDown : Option Document → Callback :=
  update "treats" asInt (fun curr => if curr ≠ 0 then checked (curr.toInt - 1) else .ok curr)
    fun curr => ("treats", .integer curr)

section

variable {α : Type} {get : String} {cast : Option Value → Except Trap α}
  {compute : α → Except Trap α} {write : α → String × Value} {document : Option Document}

/-- An update that gets as far as writing has cast the field and computed from it. -/
theorem update_write {entry : String × Value}
    (writes : update get cast compute write document = .write entry) :
    ∃ found curr value, document = some found ∧ cast (found get) = .ok curr ∧
      compute curr = .ok value ∧ entry = write value := by
  cases document with
  | none => cases writes
  | some found =>
      simp only [update] at writes
      split at writes
      · cases writes
      · rename_i curr casted
        split at writes
        · cases writes
        · rename_i value computed
          exact ⟨found, curr, value, rfl, casted, computed, (TwoStep.Outcome.write.inj writes).symm⟩

/-- An update traps in the cast or in the computation. -/
theorem update_fail {trap : Trap} (fails : update get cast compute write document = .fail trap) :
    ∃ found, document = some found ∧ (cast (found get) = .error trap ∨
      ∃ curr, cast (found get) = .ok curr ∧ compute curr = .error trap) := by
  cases document with
  | none => cases fails
  | some found =>
      refine ⟨found, rfl, ?_⟩
      simp only [update] at fails
      split at fails
      · rename_i why casted
        obtain rfl := TwoStep.Outcome.fail.inj fails
        exact .inl casted
      · rename_i curr casted
        split at fails
        · rename_i why computed
          obtain rfl := TwoStep.Outcome.fail.inj fails
          exact .inr ⟨curr, casted, computed⟩
        · cases fails

theorem update_ok {found : Document} {curr value : α} (casted : cast (found get) = .ok curr)
    (computed : compute curr = .ok value) :
    update get cast compute write (some found) = .write (write value) := by
  simp only [update, casted, computed]

end

/-- `addPet` hands the encoded pet to `addDocument`. -/
def addPet (pet : Pet) : Document :=
  pet.encode

def save (pet : Pet) : Document :=
  addPet pet

end PetViewModel

/-- The four updates of a pet card. -/
inductive Update where
  | updateBB
  | updateDB
  | updateTreatsUp
  | updateTreatsDown
  deriving DecidableEq, Repr

namespace Update

def callback : Update → Option Document → Callback
  | .updateBB => PetViewModel.updateBB
  | .updateDB => PetViewModel.updateDB
  | .updateTreatsUp => PetViewModel.updateTreatsUp
  | .updateTreatsDown => PetViewModel.updateTreatsDown

/-- The field an update is about. -/
def field : Update → String
  | .updateBB => "breakfast"
  | .updateDB => "dinner"
  | .updateTreatsUp | .updateTreatsDown => "treats"

theorem callback_none (update : Update) : update.callback none = .nothing := by
  cases update <;> rfl

/-- An update looks at its own field only. -/
theorem callback_congr (update : Update) {document document' : Option Document}
    (same : document.map (· update.field) = document'.map (· update.field)) :
    update.callback document = update.callback document' := by
  cases document with
  | none => cases document' with
    | none => rfl
    | some document' => cases same
  | some document => cases document' with
    | none => cases same
    | some document' =>
        have field : document update.field = document' update.field := Option.some.inj same
        cases update <;>
          simp only [callback, PetViewModel.updateBB, PetViewModel.updateDB,
            PetViewModel.updateTreatsUp, PetViewModel.updateTreatsDown, PetViewModel.update,
            Update.field] at field ⊢ <;>
          rw [field]

/-- An update writes its own field only. -/
theorem callback_field (update : Update) {document : Option Document} {entry : String × Value}
    (writes : update.callback document = .write entry) : entry.1 = update.field := by
  cases update <;>
    simp only [callback, PetViewModel.updateBB, PetViewModel.updateDB, PetViewModel.updateTreatsUp,
      PetViewModel.updateTreatsDown] at writes <;>
    obtain ⟨_, _, _, _, _, _, rfl⟩ := PetViewModel.update_write writes <;> rfl

end Update

/-! ## The form -/

/-- The view model's pet and the alert flag behind `AddPetView`. -/
structure AddPetView where
  pet : Pet
  showingAlert : Bool
  deriving DecidableEq, Repr

namespace AddPetView

/-- The form as it opens; `uuid` is the default of the pet's `id`. -/
def initial (uuid : String) : AddPetView where
  pet := { id := some uuid, name := "", breakfast := false, dinner := false, treats := 0 }
  showingAlert := false

/-- Typing in the text field. -/
def edit (view : AddPetView) (text : String) : AddPetView :=
  { view with pet := { view.pet with name := text } }

def disabled (view : AddPetView) : Bool :=
  view.pet.name.isEmpty

/-- A tap on Submit, when the button is enabled: the document to add. -/
def submit (view : AddPetView) : Option (Document × AddPetView) :=
  if view.disabled then none
  else some (PetViewModel.save view.pet, { view with showingAlert := true })

/-- Dismissing the alert clears the name. -/
def gotIt (view : AddPetView) : Option AddPetView :=
  if view.showingAlert then some { pet := { view.pet with name := "" }, showingAlert := false }
  else none

/-- What the form never changes of its pet. -/
structure Untouched (view : AddPetView) : Prop where
  breakfast : view.pet.breakfast = false
  dinner : view.pet.dinner = false
  treats : view.pet.treats = 0

theorem initial_untouched (uuid : String) : (initial uuid).Untouched :=
  ⟨rfl, rfl, rfl⟩

theorem Untouched.of_pet {view view' : AddPetView} (untouched : view.Untouched)
    (kept : view'.pet = view.pet) : view'.Untouched :=
  ⟨kept ▸ untouched.breakfast, kept ▸ untouched.dinner, kept ▸ untouched.treats⟩

theorem Untouched.edit {view : AddPetView} (untouched : view.Untouched) (text : String) :
    (view.edit text).Untouched :=
  ⟨untouched.breakfast, untouched.dinner, untouched.treats⟩

theorem Untouched.gotIt {view view' : AddPetView} (untouched : view.Untouched)
    (dismissed : view.gotIt = some view') : view'.Untouched := by
  simp only [AddPetView.gotIt] at dismissed
  split at dismissed
  · cases dismissed
    exact ⟨untouched.breakfast, untouched.dinner, untouched.treats⟩
  · cases dismissed

/-- Submit saves the form's pet, and only under a name. -/
theorem submit_some {view view' : AddPetView} {document : Document}
    (submitted : view.submit = some (document, view')) :
    document = view.pet.encode ∧ view.pet.name ≠ "" ∧ view'.pet = view.pet := by
  simp only [submit] at submitted
  split at submitted
  · cases submitted
  · rename_i enabled
    cases submitted
    exact ⟨rfl, fun empty => enabled (by simp [disabled, empty]), rfl⟩

end AddPetView

end DogFoodTracker
