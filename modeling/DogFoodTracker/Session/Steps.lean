import DogFoodTracker.ContentView
import DogFoodTracker.ProfileView

/-! # Signing in and out

Who is signed in is kept by Firebase Auth and by GIDSignIn; what is on the screen is
decided by a stored `status`, `ContentView`'s copy of it, and `log_status`. A sign-in
is a request whose outcome sets Auth's user at once and queues its completion on the
main thread. Several may be in flight, and their completions run in any order.
-/

namespace DogFoodTracker.Session

open Transition

/-- A request to Auth, with the account that its credential names. -/
inductive SignIn where
  /-- `signInWithEmail`. -/
  | email (account : Account)
  /-- `signUpWithEmail`. -/
  | signUp (account : Account)
  /-- The second stage of `sign(_:didSignInFor:withError:)`. -/
  | google (account : Account)
  /-- `AppleLogin.authenticate`. -/
  | apple (account : Account)
  deriving DecidableEq, Repr

def SignIn.account : SignIn → Account
  | .email account | .signUp account | .google account | .apple account => account

/-- A completion waiting on the main thread; an error has no user. -/
structure Completion where
  signIn : SignIn
  result : Option AuthUser
  deriving DecidableEq, Repr

structure State where
  /-- `Auth.auth().currentUser`. -/
  currentUser : Option AuthUser
  /-- `GIDSignIn.sharedInstance().currentUser`. -/
  gidUser : Option GIDGoogleUser
  /-- `status` in `UserDefaults`. -/
  storedStatus : Option Bool
  /-- `log_status` in `AppStorage`. -/
  log_status : Bool
  /-- `ContentView`'s own copy of the status. -/
  status : Bool
  /-- `user` of the `ProfileView` on the screen. -/
  profileUser : Option GIDGoogleUser
  signingIn : List SignIn
  completions : List Completion
  /-- Posts of `statusChange` not yet delivered. -/
  notifications : Nat
  deriving DecidableEq, Repr

namespace State

def contentView (s : State) : ContentView where
  status := s.status
  log_status := s.log_status

/-- `ContentView.body` initialises a `ProfileView`, which captures GIDSignIn's user. -/
def captured (s : State) : Option GIDGoogleUser :=
  match s.contentView.body with
  | .tabView => s.gidUser
  | .loginView => none

/-- The screen after a step: `body` is evaluated when one of its flags has changed. -/
def rendered (s before : State) : State :=
  { s with
    profileUser := if s.contentView = before.contentView then s.profileUser else s.captured }

/-- Set `status`, then post `statusChange`. -/
def setStatus (s : State) (writer : StatusWriter) : State :=
  { s with storedStatus := some writer.value, notifications := s.notifications + 1 }

/-- The profile captures GIDSignIn's user or nobody. -/
theorem captured_of (P : Option GIDGoogleUser → Prop) {s : State} (gid : P s.gidUser)
    (nobody : P none) : P s.captured := by
  unfold captured
  split
  · exact gid
  · exact nobody

/-- The profile keeps the user it has, or captures one. -/
theorem rendered_of (P : Option GIDGoogleUser → Prop) {s : State} (shown : P s.profileUser)
    (captured : P s.captured) (before : State) : P (s.rendered before).profileUser := by
  simp only [rendered]
  split
  · exact shown
  · exact captured

end State

/-- The success branch of a completion. `none` where `(res?.user.email)!` stops the
    process. -/
def SignIn.completed (signIn : SignIn) (user : AuthUser) (s : State) : Option State :=
  match signIn with
  | .email _ => user.email.map fun _ => s.setStatus .loginView
  | .signUp _ => user.email.map fun _ => s.setStatus .signUpView
  | .google _ => some (s.setStatus .appDelegate)
  | .apple _ => some { s with log_status := true }

inductive Action where
  | request (signIn : SignIn)
  | didSignInFor (user : Option GIDGoogleUser)
  | succeed (position : Nat) (user : AuthUser)
  | fail (position : Nat)
  | complete (position : Nat)
  | deliver
  | logout
  | relaunch
  | render
  deriving DecidableEq, Repr

def step (s : State) : Action → Option State
  -- the Google stage comes first
  | .request (.google _) => none
  | .request signIn => some { s with signingIn := s.signingIn ++ [signIn] }
  | .didSignInFor none => some s
  | .didSignInFor (some user) =>
      match user.authentication with
      | none => some { s with gidUser := some user }
      | some _ =>
          some { s with gidUser := some user, signingIn := s.signingIn ++ [.google user.account] }
  | .succeed position user =>
      match s.signingIn[position]? with
      | none => none
      | some signIn =>
          if user.account = signIn.account then
            some { s with
              currentUser := some user
              signingIn := s.signingIn.eraseIdx position
              completions := s.completions ++ [{ signIn, result := some user }] }
          else none
  | .fail position =>
      match s.signingIn[position]? with
      | none => none
      | some signIn =>
          some { s with
            signingIn := s.signingIn.eraseIdx position
            completions := s.completions ++ [{ signIn, result := none }] }
  | .complete position =>
      match s.completions[position]? with
      | none => none
      | some { result := none, .. } =>
          some { s with completions := s.completions.eraseIdx position }
      | some { signIn, result := some user } =>
          match signIn.completed user { s with completions := s.completions.eraseIdx position } with
          | none => none
          | some completed => some (completed.rendered s)
  | .deliver =>
      match s.notifications with
      | 0 => none
      | notifications + 1 =>
          let status := ContentView.readStatus s.storedStatus
          some ({ s with status, notifications }.rendered s)
  | .logout => some ({ s with currentUser := none, gidUser := none }.setStatus .profileView)
  | .relaunch =>
      let launched : State := { s with
        gidUser := none
        status := ContentView.readStatus s.storedStatus
        signingIn := []
        completions := []
        notifications := 0 }
      some { launched with profileUser := launched.captured }
  | .render => some { s with profileUser := s.captured }

/-- Signed out, nothing on its way, and both flags down. -/
structure SignedOut (s : State) : Prop where
  currentUser : s.currentUser = none
  gidUser : s.gidUser = none
  storedStatus : ContentView.readStatus s.storedStatus = false
  log_status : s.log_status = false
  status : s.status = false
  profileUser : s.profileUser = none
  signingIn : s.signingIn = []
  completions : s.completions = []
  notifications : s.notifications = 0

/-- As the app is installed. -/
def installed : State where
  currentUser := none
  gidUser := none
  storedStatus := none
  log_status := false
  status := false
  profileUser := none
  signingIn := []
  completions := []
  notifications := 0

theorem installed_signedOut : SignedOut installed :=
  ⟨rfl, rfl, rfl, rfl, rfl, rfl, rfl, rfl, rfl⟩

/-- Every completion of a success raises one of the two flags. -/
theorem completed_flags {signIn : SignIn} {user : AuthUser} {s t : State}
    (completed : signIn.completed user s = some t) :
    (∃ writer, writer.value = true ∧ t = s.setStatus writer) ∨ t = { s with log_status := true } := by
  cases signIn with
  | email account | signUp account =>
      obtain ⟨email, -, rfl⟩ := Option.map_eq_some_iff.mp completed
      exact .inl ⟨_, rfl, rfl⟩
  | google account => exact .inl ⟨.appDelegate, rfl, (Option.some.inj completed).symm⟩
  | apple account => exact .inr (Option.some.inj completed).symm

/-- Everything a step can do. -/
inductive Step (s : State) : Action → State → Prop where
  | request (signIn : SignIn) :
      Step s (.request signIn) { s with signingIn := s.signingIn ++ [signIn] }
  | refused : Step s (.didSignInFor none) s
  | didSignInFor (user : GIDGoogleUser) (signingIn : List SignIn) :
      Step s (.didSignInFor (some user)) { s with gidUser := some user, signingIn }
  | succeed (position : Nat) (user : AuthUser) (signIn : SignIn)
      (inFlight : s.signingIn[position]? = some signIn) (own : user.account = signIn.account) :
      Step s (.succeed position user) { s with
        currentUser := some user
        signingIn := s.signingIn.eraseIdx position
        completions := s.completions ++ [{ signIn, result := some user }] }
  | fail (position : Nat) (signIn : SignIn) (inFlight : s.signingIn[position]? = some signIn) :
      Step s (.fail position) { s with
        signingIn := s.signingIn.eraseIdx position
        completions := s.completions ++ [{ signIn, result := none }] }
  | failed (position : Nat) (signIn : SignIn)
      (queued : s.completions[position]? = some { signIn, result := none }) :
      Step s (.complete position) { s with completions := s.completions.eraseIdx position }
  | succeeded (position : Nat) (signIn : SignIn) (user : AuthUser) (completed : State)
      (queued : s.completions[position]? = some { signIn, result := some user })
      (runs : signIn.completed user { s with completions := s.completions.eraseIdx position } =
        some completed) :
      Step s (.complete position) (completed.rendered s)
  | deliver (notifications : Nat) (posted : s.notifications = notifications + 1) :
      Step s .deliver ({ s with
        status := ContentView.readStatus s.storedStatus, notifications }.rendered s)
  | logout :
      Step s .logout ({ s with currentUser := none, gidUser := none }.setStatus .profileView)
  | relaunch (launched : State) (clean : launched = { s with
        gidUser := none
        status := ContentView.readStatus s.storedStatus
        signingIn := []
        completions := []
        notifications := 0 }) :
      Step s .relaunch { launched with profileUser := launched.captured }
  | render : Step s .render { s with profileUser := s.captured }

theorem step_inv {s t : State} {a : Action} (taken : step s a = some t) : Step s a t := by
  cases a with
  | request signIn =>
      cases signIn <;> cases taken <;> exact .request _
  | didSignInFor user =>
      cases user with
      | none => cases taken; exact .refused
      | some user =>
          simp only [step] at taken
          split at taken <;> cases taken <;> exact .didSignInFor user _
  | succeed position user =>
      simp only [step] at taken
      split at taken
      · cases taken
      · rename_i signIn inFlight
        split at taken
        · rename_i own
          cases taken
          exact .succeed position user signIn inFlight own
        · cases taken
  | fail position =>
      simp only [step] at taken
      split at taken
      · cases taken
      · rename_i signIn inFlight
        cases taken
        exact .fail position signIn inFlight
  | complete position =>
      simp only [step] at taken
      split at taken
      · cases taken
      · rename_i signIn queued
        cases taken
        exact .failed position signIn queued
      · rename_i signIn user queued
        split at taken
        · cases taken
        · rename_i completed runs
          cases taken
          exact .succeeded position signIn user completed queued runs
  | deliver =>
      simp only [step] at taken
      split at taken
      · cases taken
      · rename_i notifications posted
        cases taken
        exact .deliver notifications posted
  | logout => cases taken; exact .logout
  | relaunch => cases taken; exact .relaunch _ rfl
  | render => cases taken; exact .render

end DogFoodTracker.Session
