import DogFoodTracker.Firestore.Document

/-! # What the profile screen shows of whom

Firebase Auth and GIDSignIn each know an account. `ProfileView` prefers Auth's display
name, falls back on the Google user it captured when it was initialised, and takes the
picture from that Google user only.
-/

namespace DogFoodTracker

open Firestore

/-- Whoever signs in, by whichever provider. -/
abbrev Account := String

/-- Firebase Auth's `User`. -/
structure AuthUser where
  account : Account
  displayName : Option String
  email : Option String
  deriving DecidableEq, Repr

structure GIDProfileData where
  name : Option String
  email : Option String
  /-- `imageURL(withDimension:)`, at the dimension asked for. -/
  imageURL : Option String
  deriving DecidableEq, Repr

/-- GIDSignIn's user. `profile` is imported as an implicitly unwrapped optional. -/
structure GIDGoogleUser where
  account : Account
  profile : Option GIDProfileData
  /-- The ID token and the access token. -/
  authentication : Option (String × String)
  deriving DecidableEq, Repr

/-- Something on the screen, and whose it is unless it is a placeholder. -/
inductive Shown where
  | placeholder (value : String)
  | ofAccount (account : Account) (value : String)
  deriving DecidableEq, Repr

def Shown.value : Shown → String
  | .placeholder value | .ofAccount _ value => value

/-- What is shown is the account's own, or nobody's. -/
def Shown.BelongsTo (account : Account) : Shown → Prop
  | .placeholder _ => True
  | .ofAccount owner _ => owner = account

/-- An evaluation reaches no trap. -/
def Returns {Value : Type} (evaluated : Except Trap Value) : Prop :=
  ∃ value, evaluated = .ok value

@[simp] theorem returns_map {Value Result : Type} {evaluated : Except Trap Value} {f : Value → Result} :
    Returns (evaluated.map f) ↔ Returns evaluated := by
  cases evaluated <;> simp [Returns, Except.map]

/-- A user whose profile may be unwrapped. -/
def HasProfile (user : Option GIDGoogleUser) : Prop :=
  (user.bind GIDGoogleUser.profile).isSome

instance (user : Option GIDGoogleUser) : Decidable (HasProfile user) :=
  inferInstanceAs (Decidable (_ = true))

namespace ProfileView

/-- `user?.profile`, a trap where the profile that is there implicitly is not. -/
def profile (user : GIDGoogleUser) : Except Trap GIDProfileData :=
  match user.profile with
  | some profile => .ok profile
  | none => .error .unwrap

def getName (currentUser : Option AuthUser) (user : Option GIDGoogleUser) : Except Trap Shown :=
  let name := Shown.placeholder "Enter Your Name Here"
  match currentUser with
  | some { account, displayName := some displayName, .. } => .ok (.ofAccount account displayName)
  | _ =>
      match user with
      | none => .ok name
      | some user =>
          match profile user with
          | .error trap => .error trap
          | .ok profile =>
              match profile.name with
              | some name => .ok (.ofAccount user.account name)
              | none => .ok name

/-- `NetworkImage(url: user?.profile.imageURL(withDimension: 200))`; `load` tells the
    URLs from which an image can be read. -/
def picture (load : String → Bool) (user : Option GIDGoogleUser) : Except Trap Shown :=
  let image := Shown.placeholder "person.circle.fill"
  match user with
  | none => .ok image
  | some user =>
      match profile user with
      | .error trap => .error trap
      | .ok profile =>
          match profile.imageURL with
          | some url => .ok (if load url then .ofAccount user.account url else image)
          | none => .ok image

/-- Auth's display name comes first, whatever Google user was captured. -/
theorem getName_displayName {user : AuthUser} {displayName : String}
    (named : user.displayName = some displayName) (captured : Option GIDGoogleUser) :
    getName (some user) captured = .ok (.ofAccount user.account displayName) := by
  obtain ⟨account, _, email⟩ := user
  cases named
  rfl

theorem profile_returns {user : GIDGoogleUser} :
    Returns (profile user) ↔ HasProfile (some user) := by
  cases found : user.profile <;> simp [Returns, profile, HasProfile, found]

/-- A display name in Auth, no captured Google user, or one with a profile. -/
def Known (currentUser : Option AuthUser) (user : Option GIDGoogleUser) : Prop :=
  (currentUser.bind AuthUser.displayName).isSome ∨ user = none ∨ HasProfile user

instance (currentUser : Option AuthUser) (user : Option GIDGoogleUser) :
    Decidable (Known currentUser user) :=
  inferInstanceAs (Decidable (_ ∨ _ ∨ _))

theorem getName_returns {currentUser : Option AuthUser} {user : Option GIDGoogleUser} :
    Returns (getName currentUser user) ↔ Known currentUser user := by
  unfold getName Known
  split
  · simp [Returns]
  · rename_i unnamed
    have noDisplayName : currentUser.bind AuthUser.displayName = none := by
      cases currentUser with
      | none => rfl
      | some user =>
          cases named : user.displayName with
          | none => exact named
          | some displayName =>
              obtain ⟨account, _, email⟩ := user
              exact absurd (named ▸ rfl) (unnamed account displayName email)
    cases user with
    | none => simp [Returns]
    | some google =>
        rw [← profile_returns, noDisplayName]
        cases found : profile google with
        | error trap => simp [Returns, found]
        | ok profile => cases named : profile.name <;> simp [Returns, found, named]

theorem getName_belongsTo {currentUser : AuthUser} {user : Option GIDGoogleUser} {shown : Shown}
    (same : ∀ google, user = some google → google.account = currentUser.account)
    (named : getName (some currentUser) user = .ok shown) : shown.BelongsTo currentUser.account := by
  simp only [getName] at named
  split at named
  · rename_i account displayName email found
    cases found
    cases named
    rfl
  · split at named
    · cases named
      trivial
    · rename_i google
      split at named
      · cases named
      · split at named
        · cases named
          exact same google rfl
        · cases named
          trivial

theorem picture_belongsTo {load : String → Bool} {user : Option GIDGoogleUser} {account : Account}
    {shown : Shown} (same : ∀ google, user = some google → google.account = account)
    (pictured : picture load user = .ok shown) : shown.BelongsTo account := by
  simp only [picture] at pictured
  split at pictured
  · cases pictured
    trivial
  · rename_i google
    split at pictured
    · cases pictured
    · split at pictured
      · cases pictured
        split
        · exact same google rfl
        · trivial
      · cases pictured
        trivial

end ProfileView

end DogFoodTracker
