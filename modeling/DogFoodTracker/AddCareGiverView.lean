import DogFoodTracker.Pet

/-! # The form that adds a caregiver

`save` stores the view model's caregiver, of which the form only ever edits the email;
`sendEmail` then prepares a message that nothing presents.
-/

namespace DogFoodTracker

open Firestore

namespace CaregiverViewModel

/-- `addCaregiver` hands the encoded caregiver to `addDocument`. -/
def addCaregiver (caregiver : CareGiver) : Document :=
  caregiver.encode

def save (caregiver : CareGiver) : Document :=
  addCaregiver caregiver

end CaregiverViewModel

/-- A message as `MFMailComposeViewController` is set up with it. -/
structure Mail where
  recipients : List String
  body : String
  isHTML : Bool
  deriving DecidableEq, Repr

/-- The view model's caregiver and the alert flag behind `AddCareGiverView`. -/
structure AddCareGiverView where
  caregiver : CareGiver
  showingAlert : Bool
  deriving DecidableEq, Repr

namespace AddCareGiverView

/-- The form as it opens; `uuid` is the default of the caregiver's `id`. -/
def initial (uuid : String) : AddCareGiverView where
  caregiver := { id := some uuid, name := "", email := "" }
  showingAlert := false

/-- Typing in the text field. -/
def edit (view : AddCareGiverView) (text : String) : AddCareGiverView :=
  { view with caregiver := { view.caregiver with email := text } }

def disabled (view : AddCareGiverView) : Bool :=
  view.caregiver.email.isEmpty

/-- The draft is dropped where `present` is commented out. -/
def sendEmail (canSendMail : Bool) (address : String) : Option Mail :=
  if canSendMail then
    some {
      recipients := [address]
      body := "<h1>Kibble</h1><br><p>___ would like you to join as a caregiver.</p>"
      isHTML := true }
  -- show failure alert
  else none

/-- A tap on Submit, when the button is enabled: the document to add, and the draft. -/
def submit (view : AddCareGiverView) (canSendMail : Bool) :
    Option (Document × Option Mail × AddCareGiverView) :=
  if view.disabled then none
  else some (CaregiverViewModel.save view.caregiver, sendEmail canSendMail view.caregiver.email,
    { view with showingAlert := true })

/-- Dismissing the alert clears the email. -/
def gotIt (view : AddCareGiverView) : Option AddCareGiverView :=
  if view.showingAlert then
    some { caregiver := { view.caregiver with email := "" }, showingAlert := false }
  else none

/-- Submit saves the form's caregiver, and only with an email. -/
theorem submit_some {view view' : AddCareGiverView} {canSendMail : Bool} {document : Document}
    {mail : Option Mail} (submitted : view.submit canSendMail = some (document, mail, view')) :
    document = view.caregiver.encode ∧ view.caregiver.email ≠ "" ∧
      view'.caregiver = view.caregiver := by
  simp only [submit] at submitted
  split at submitted
  · cases submitted
  · rename_i enabled
    cases submitted
    exact ⟨rfl, fun empty => enabled (by simp [disabled, empty]), rfl⟩

theorem gotIt_name {view view' : AddCareGiverView} (dismissed : view.gotIt = some view') :
    view'.caregiver.name = view.caregiver.name := by
  simp only [gotIt] at dismissed
  split at dismissed <;> cases dismissed
  rfl

end AddCareGiverView

end DogFoodTracker
