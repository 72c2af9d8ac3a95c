import DogFoodTracker.ContentView
import DogFoodTracker.Firestore.Document

/-! # The login and the sign-up screen

Each has an alert of its own for a failed attempt. `LoginView` covers itself with a
`SignUpView` while its `show` is set, and passes a binding to that flag on. The buttons
are never disabled, so a completion may run after others of the same view.
-/

namespace DogFoodTracker

open Firestore

/-- The two variables behind the alert of either view. -/
structure ErrorAlert where
  msg : String
  alert : Bool
  deriving DecidableEq, Repr

structure LoginView extends ErrorAlert where
  show_ : Bool
  deriving DecidableEq, Repr

/-- Its `show` is a binding to the one of `LoginView`. -/
structure SignUpView extends ErrorAlert where
  deriving DecidableEq, Repr

/-- What Auth calls back with: an error, or a user whose email may be missing. -/
inductive AuthResult where
  | failure (localizedDescription : String)
  | success (email : Option String)
  deriving DecidableEq, Repr

/-- The arguments of the completion, `false` with the message or `true` with the email. -/
def verification : AuthResult → Except Trap (Bool × String)
  | .failure localizedDescription => .ok (false, localizedDescription)
  | .success (some email) => .ok (true, email)
  | .success none => .error .unwrap

def signInWithEmail (result : AuthResult) : Except Trap (Bool × String) :=
  verification result

def signUpWithEmail (result : AuthResult) : Except Trap (Bool × String) :=
  verification result

namespace LoginView

def initial : LoginView where
  msg := ""
  alert := false
  show_ := false

/-- The completion of the Login button, and the writer of `status` it acts as, if any. -/
def login (view : LoginView) (verified : Bool) (status : String) : LoginView × Option StatusWriter :=
  if !verified then ({ view with msg := status, alert := !view.alert }, none)
  else (view, some .loginView)

/-- The Sign Up button below it. -/
def signUp (view : LoginView) : LoginView :=
  { view with show_ := !view.show_ }

end LoginView

namespace SignUpView

def initial : SignUpView where
  msg := ""
  alert := false

/-- The completion of the Sign Up button, on the view and on what `show` is bound to. -/
def signUp (view : SignUpView) (parent : LoginView) (verified : Bool) (status : String) :
    SignUpView × LoginView × Option StatusWriter :=
  if !verified then ({ view with msg := status, alert := !view.alert }, parent, none)
  else (view, { parent with show_ := !parent.show_ }, some .signUpView)

end SignUpView

end DogFoodTracker
