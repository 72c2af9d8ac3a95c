import DogFoodTracker.Transition.Notify

/-! # The login status of the screens

`ContentView` shows the tab view or the login view by two flags. `status` is a copy of
a value in `UserDefaults`, made when the view is created and again whenever the
`statusChange` notification arrives; `log_status` is read through `AppStorage`. Each
`onAppear` registers one more observer.
-/

namespace DogFoodTracker

open Transition

inductive Screen where
  | tabView
  | loginView
  deriving DecidableEq, Repr

structure ContentView where
  status : Bool
  log_status : Bool
  deriving DecidableEq, Repr

namespace ContentView

/-- `UserDefaults.standard.value(forKey: "status") as? Bool ?? false`. -/
def readStatus (stored : Option Bool) : Bool :=
  stored.getD false

def body (view : ContentView) : Screen :=
  if view.status || view.log_status then .tabView else .loginView

theorem body_tabView {view : ContentView} :
    view.body = .tabView ↔ view.status = true ∨ view.log_status = true := by
  cases view with
  | mk status log_status => cases status <;> cases log_status <;> simp [body]

end ContentView

/-- The four places that set `status` and then post `statusChange`. -/
inductive StatusWriter where
  | loginView
  | signUpView
  | appDelegate
  | profileView
  deriving DecidableEq, Repr

/-- What each of them sets: `false` on Logout, `true` after a sign-in. -/
def StatusWriter.value : StatusWriter → Bool
  | .loginView | .signUpView | .appDelegate => true
  | .profileView => false

/-- The `status` key, its writers, and what an observer makes of it. -/
def statusChange : Notify.System StatusWriter (Option Bool) Bool where
  value writer := some writer.value
  read := ContentView.readStatus

/-- Two scenes, the second one with two observers; a login and a logout overlap, and
    the notifications are delivered last to first. -/
private def loginDuringLogout : List (Notify.Action Nat StatusWriter) :=
  [.create 0, .appear 0, .create 1, .appear 1, .store .loginView, .appear 1, .store .profileView,
    .post .loginView, .deliver 2, .post .profileView, .deliver 4, .deliver 3, .deliver 2,
    .deliver 1, .deliver 0]

end DogFoodTracker
