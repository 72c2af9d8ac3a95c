import DogFoodTracker.ProfileView

/-! # The profile editor

`EditProfileView` looks the name and the email up in Firebase Auth and then in GIDSignIn,
as `ProfileView` does, but asks the shared GIDSignIn for its user each time. The texts on
the screen and the two confirmed edits write the same `@State` variables.
-/

namespace DogFoodTracker

open Firestore

structure EditProfileView where
  name : String
  newName : String
  email : String
  newEmail : String
  showingAlertName : Bool
  showingAlertEmail : Bool
  deriving DecidableEq, Repr

/-- The two texts that can be edited here. -/
inductive Field where
  | name
  | email
  deriving DecidableEq, Repr

/-- What the editor shows, or what the edits asked it to show. -/
structure Details where
  name : String
  email : String
  deriving DecidableEq, Repr

def Details.get (details : Details) : Field → String
  | .name => details.name
  | .email => details.email

def Details.set (details : Details) : Field → String → Details
  | .name, name => { details with name }
  | .email, email => { details with email }

/-- Only the value a field already has can be set without a change. -/
theorem Details.set_eq_self {details : Details} {field : Field} {value : String} :
    details.set field value = details ↔ value = details.get field := by
  obtain ⟨name, email⟩ := details
  cases field <;> simp [Details.set, Details.get]

namespace EditProfileView

/-- The view as `NavigationLink` initialises it. -/
def initial : EditProfileView where
  name := "Enter Your Name Here"
  newName := ""
  email := "Enter Your Email Here"
  newEmail := ""
  showingAlertName := false
  showingAlertEmail := false

/-- `GIDSignIn.sharedInstance()?.currentUser.profile`. The `?` is for the shared instance,
    which is always there; the user and the profile are unwrapped implicitly. -/
def sharedProfile (gidUser : Option GIDGoogleUser) : Except Trap GIDProfileData :=
  match gidUser with
  | none => .error .unwrap
  | some user => ProfileView.profile user

/-- The chain of tests in each of the four functions below: the value in Auth, then the one
    in GIDSignIn, then neither. -/
def lookup (auth : Option String) (gidUser : Option GIDGoogleUser)
    (google : GIDProfileData → Option String)
    (withAuth withGoogle : String → EditProfileView → EditProfileView)
    (view : EditProfileView) : Except Trap EditProfileView :=
  match auth with
  | some value => .ok (withAuth value view)
  | none =>
      match sharedProfile gidUser with
      | .error trap => .error trap
      | .ok profile =>
          match google profile with
          | some value => .ok (withGoogle value view)
          | none => .ok view

section

variable (currentUser : Option AuthUser) (gidUser : Option GIDGoogleUser) (view : EditProfileView)

def getName : Except Trap (String × EditProfileView) :=
  let setName name view := { view with name }
  (lookup (currentUser.bind AuthUser.displayName) gidUser GIDProfileData.name setName setName view).map
    fun view => (view.name, view)

/-- The call that would update Auth is commented out. -/
def updateName : Except Trap (String × EditProfileView) :=
  let setName name view := { view with name }
  (lookup (currentUser.bind AuthUser.displayName) gidUser GIDProfileData.name (fun _ view => view)
    setName view).map fun view => (view.name, view)

def getEmail : Except Trap (String × EditProfileView) :=
  let setEmail email view := { view with email }
  (lookup (currentUser.bind AuthUser.email) gidUser GIDProfileData.email setEmail setEmail view).map
    fun view => (view.email, view)

/-- It tests and returns the name, and assigns nothing. -/
def updateEmail : Except Trap (String × EditProfileView) :=
  (lookup (currentUser.bind AuthUser.displayName) gidUser GIDProfileData.name (fun _ view => view)
    (fun _ view => view) view).map fun view => (view.name, view)

/-- The two texts, in the order in which `body` evaluates them. -/
def body : Except Trap (Details × EditProfileView) :=
  match view.getName currentUser gidUser with
  | .error trap => .error trap
  | .ok (name, view) =>
      match view.getEmail currentUser gidUser with
      | .error trap => .error trap
      | .ok (email, view) => .ok ({ name, email }, view)

end

/-- The text of a `TextField`. -/
def typed (view : EditProfileView) : Field → String
  | .name => view.newName
  | .email => view.newEmail

/-- The user types into a `TextField`. -/
def edit (view : EditProfileView) : Field → String → EditProfileView
  | .name, newName => { view with newName }
  | .email, newEmail => { view with newEmail }

/-- "Change Username" and "Change Email", each disabled while nothing is typed. -/
def change (view : EditProfileView) : Field → Option EditProfileView
  | .name => if view.newName.isEmpty then none else some { view with showingAlertName := true }
  | .email => if view.newEmail.isEmpty then none else some { view with showingAlertEmail := true }

/-- "Yes", on an alert that is shown. -/
def confirm (view : EditProfileView) : Field → Option EditProfileView
  | .name =>
      if view.showingAlertName then
        some { view with name := view.newName, newName := "", showingAlertName := false }
      else none
  | .email =>
      if view.showingAlertEmail then
        some { view with email := view.newEmail, newEmail := "", showingAlertEmail := false }
      else none

/-- "Cancel", on an alert that is shown. -/
def cancel (view : EditProfileView) : Field → Option EditProfileView
  | .name =>
      if view.showingAlertName then
        some { view with newName := "", showingAlertName := false }
      else none
  | .email =>
      if view.showingAlertEmail then
        some { view with newEmail := "", showingAlertEmail := false }
      else none

/-- A lookup needs a value in Auth or a profile in GIDSignIn, and nothing else. -/
theorem lookup_returns {auth : Option String} {gidUser : Option GIDGoogleUser}
    {google : GIDProfileData → Option String}
    {withAuth withGoogle : String → EditProfileView → EditProfileView} {view : EditProfileView} :
    Returns (lookup auth gidUser google withAuth withGoogle view) ↔
      auth.isSome ∨ HasProfile gidUser := by
  cases auth with
  | some value => simp [Returns, lookup]
  | none =>
      cases gidUser with
      | none => simp [Returns, lookup, sharedProfile, HasProfile]
      | some user =>
          rw [← ProfileView.profile_returns]
          cases found : ProfileView.profile user with
          | error trap => simp [Returns, lookup, sharedProfile, found]
          | ok profile => cases value : google profile <;> simp [Returns, lookup, sharedProfile, found, value]

section

variable {currentUser : Option AuthUser} {gidUser : Option GIDGoogleUser} {view : EditProfileView}

theorem getName_returns : Returns (view.getName currentUser gidUser) ↔
    (currentUser.bind AuthUser.displayName).isSome ∨ HasProfile gidUser := by
  simp only [getName, returns_map, lookup_returns]

theorem updateName_returns : Returns (view.updateName currentUser gidUser) ↔
    (currentUser.bind AuthUser.displayName).isSome ∨ HasProfile gidUser := by
  simp only [updateName, returns_map, lookup_returns]

theorem getEmail_returns : Returns (view.getEmail currentUser gidUser) ↔
    (currentUser.bind AuthUser.email).isSome ∨ HasProfile gidUser := by
  simp only [getEmail, returns_map, lookup_returns]

theorem updateEmail_returns : Returns (view.updateEmail currentUser gidUser) ↔
    (currentUser.bind AuthUser.displayName).isSome ∨ HasProfile gidUser := by
  simp only [updateEmail, returns_map, lookup_returns]

end

/-- With both in Auth the texts are Auth's, whatever the view and GIDSignIn hold. -/
theorem body_ofAuth {user : AuthUser} {account : Details}
    (named : user.displayName = some account.name) (mailed : user.email = some account.email)
    (gidUser : Option GIDGoogleUser) (view : EditProfileView) :
    view.body (some user) gidUser =
      .ok (account, { view with name := account.name, email := account.email }) := by
  simp only [body, getName, getEmail, lookup, Option.bind_some, named, mailed, Except.map]

/-- A name and an email in Auth, or a profile in GIDSignIn. -/
def Known (currentUser : Option AuthUser) (gidUser : Option GIDGoogleUser) : Prop :=
  HasProfile gidUser ∨ (currentUser.bind AuthUser.displayName).isSome ∧
    (currentUser.bind AuthUser.email).isSome

instance (currentUser : Option AuthUser) (gidUser : Option GIDGoogleUser) :
    Decidable (Known currentUser gidUser) :=
  inferInstanceAs (Decidable (_ ∨ _ ∧ _))

/-- None of the four functions reaches a trap, whatever the view holds. -/
def Safe (currentUser : Option AuthUser) (gidUser : Option GIDGoogleUser) : Prop :=
  ∀ view : EditProfileView,
    Returns (view.getName currentUser gidUser) ∧ Returns (view.getEmail currentUser gidUser) ∧
      Returns (view.updateName currentUser gidUser) ∧ Returns (view.updateEmail currentUser gidUser)

theorem safe_iff {currentUser : Option AuthUser} {gidUser : Option GIDGoogleUser} :
    Safe currentUser gidUser ↔ Known currentUser gidUser := by
  simp only [Safe, getName_returns, getEmail_returns, updateName_returns, updateEmail_returns, Known]
  constructor
  · intro safe
    obtain ⟨name, email, -⟩ := safe initial
    grind
  · intro known view
    grind

/-- What the editor can look up in the shared Google user, the profile can in the one it
    captured from there. -/
theorem Known.captured {currentUser : Option AuthUser} {gidUser : Option GIDGoogleUser}
    (known : Known currentUser gidUser) : ProfileView.Known currentUser gidUser := by
  rcases known with profile | ⟨name, -⟩
  · exact .inr (.inr profile)
  · exact .inl name

end EditProfileView

end DogFoodTracker
