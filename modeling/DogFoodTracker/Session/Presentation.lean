import DogFoodTracker.LoginView
import DogFoodTracker.Transition.History
import Mathlib.Logic.Function.Basic

/-! # Alerts and covers while attempts are in flight

A failed attempt does not set `alert`, it toggles it, and a successful sign-up toggles
`show`. With one attempt at a time the two come to the same.
-/

namespace DogFoodTracker.Presentation

open Transition

/-- The login screen, or one of the sign-up screens opened from it so far. -/
inductive Form where
  | login
  | signUp (cover : Nat)
  deriving DecidableEq, Repr

structure State where
  login : LoginView
  signUps : List SignUpView
  /-- Attempts in flight, each by the form whose button was tapped. -/
  attempts : List Form
  deriving DecidableEq, Repr

inductive Action where
  /-- The button of a form is tapped. -/
  | attempt (form : Form)
  | complete (position : Nat) (result : AuthResult)
  | dismiss (form : Form)
  /-- The button that opens the cover is tapped. -/
  | openSignUp
  deriving DecidableEq, Repr

namespace State

def errorAlert (s : State) : Form → Option ErrorAlert
  | .login => some s.login.toErrorAlert
  | .signUp cover => s.signUps[cover]?.map SignUpView.toErrorAlert

def setAlert (s : State) (form : Form) (changed : ErrorAlert) : State :=
  match form with
  | .login => { s with login := { s.login with toErrorAlert := changed } }
  | .signUp cover => { s with signUps := s.signUps.set cover { toErrorAlert := changed } }

/-- `fullScreenCover` makes a new view whenever `show` becomes true, by whichever toggle. -/
def present (s : State) (login : LoginView) : State :=
  { s with
    login
    signUps := if login.show_ && !s.login.show_ then s.signUps ++ [SignUpView.initial] else s.signUps }

/-- The completion of a sign-up screen's button. -/
def finishSignUp (s : State) (cover : Nat) (signUp : SignUpView) (verified : Bool)
    (status : String) : State :=
  let (signUp, login, _) := signUp.signUp s.login verified status
  { s with signUps := s.signUps.set cover signUp }.present login

@[simp] theorem present_login (s : State) (login : LoginView) : (s.present login).login = login :=
  rfl

theorem present_self (s : State) : s.present s.login = s := by
  simp only [present, Bool.and_not_self, Bool.false_eq_true, if_false]

theorem finishSignUp_failed (s : State) (cover : Nat) (signUp : SignUpView) (message : String) :
    s.finishSignUp cover signUp false message =
      s.setAlert (.signUp cover) { msg := message, alert := !signUp.alert } :=
  (s.setAlert (.signUp cover) { msg := message, alert := !signUp.alert }).present_self

theorem finishSignUp_verified {s : State} {cover : Nat} {signUp : SignUpView}
    (there : s.signUps[cover]? = some signUp) (email : String) :
    s.finishSignUp cover signUp true email = s.present s.login.signUp := by
  obtain ⟨inside, rfl⟩ := List.getElem?_eq_some_iff.mp there
  have unchanged : s.signUps.set cover s.signUps[cover] = s.signUps := List.set_getElem_self inside
  calc s.finishSignUp cover s.signUps[cover] true email
      = { s with signUps := s.signUps.set cover s.signUps[cover] }.present s.login.signUp := rfl
    _ = s.present s.login.signUp := by rw [unchanged]

@[simp] theorem setAlert_show (s : State) (form : Form) (changed : ErrorAlert) :
    (s.setAlert form changed).login.show_ = s.login.show_ := by
  cases form <;> rfl

theorem errorAlert_setAlert {s : State} {form : Form} {shown changed : ErrorAlert}
    (shows : s.errorAlert form = some shown) :
    (s.setAlert form changed).errorAlert = Function.update s.errorAlert form (some changed) := by
  funext other
  cases form with
  | login => cases other <;> rfl
  | signUp cover =>
      cases other with
      | login => rfl
      | signUp other =>
          obtain ⟨signUp, there, -⟩ := Option.map_eq_some_iff.mp shows
          have inside := (List.getElem?_eq_some_iff.mp there).1
          by_cases same : other = cover
          · subst same
            simp only [errorAlert, setAlert, List.getElem?_set_self inside, Option.map_some,
              Function.update_self]
          · simp only [errorAlert, setAlert, List.getElem?_set_ne (Ne.symm same)]
            rw [Function.update_of_ne (by simpa using same)]
            rfl

/-- A view presented on top leaves the alerts of the others alone. -/
theorem errorAlert_present {s : State} {form : Form} {shown : ErrorAlert} {login : LoginView}
    (same : login.toErrorAlert = s.login.toErrorAlert) (shows : s.errorAlert form = some shown) :
    (s.present login).errorAlert form = some shown := by
  cases form with
  | login => exact (congrArg some same).trans shows
  | signUp cover =>
      obtain ⟨signUp, there, rfl⟩ := Option.map_eq_some_iff.mp shows
      have inside := (List.getElem?_eq_some_iff.mp there).1
      simp only [errorAlert, present]
      split
      · rw [List.getElem?_append_left inside, there, Option.map_some]
      · rw [there, Option.map_some]

end State

def step (s : State) : Action → Option State
  | .attempt form =>
      match s.errorAlert form with
      | none => none
      | some _ => some { s with attempts := s.attempts ++ [form] }
  | .complete position result =>
      match s.attempts[position]? with
      | none => none
      | some .login =>
          match signInWithEmail result with
          | .error _ => none
          | .ok (verified, status) =>
              some { s with
                login := (s.login.login verified status).1
                attempts := s.attempts.eraseIdx position }
      | some (.signUp cover) =>
          match s.signUps[cover]?, signUpWithEmail result with
          | some signUp, .ok (verified, status) =>
              let finished := s.finishSignUp cover signUp verified status
              some { finished with attempts := s.attempts.eraseIdx position }
          | _, _ => none
  | .dismiss form =>
      match s.errorAlert form with
      | some { msg, alert := true } => some (s.setAlert form { msg, alert := false })
      | _ => none
  | .openSignUp =>
      -- the button is under the cover
      if s.login.show_ then none
      else some (s.present s.login.signUp)

/-- Everything a step can do. -/
inductive Step (s : State) : Action → State → Prop where
  | attempt (form : Form) : Step s (.attempt form) { s with attempts := s.attempts ++ [form] }
  | failed (position : Nat) (form : Form) (message : String) (shown : ErrorAlert)
      (inFlight : s.attempts[position]? = some form) (shows : s.errorAlert form = some shown) :
      Step s (.complete position (.failure message))
        ({ s with attempts := s.attempts.eraseIdx position }.setAlert form
          { msg := message, alert := !shown.alert })
  | signedIn (position : Nat) (email : String) (inFlight : s.attempts[position]? = some .login) :
      Step s (.complete position (.success (some email)))
        { s with attempts := s.attempts.eraseIdx position }
  | signedUp (position cover : Nat) (email : String)
      (inFlight : s.attempts[position]? = some (.signUp cover)) :
      Step s (.complete position (.success (some email)))
        ({ s with attempts := s.attempts.eraseIdx position }.present s.login.signUp)
  | dismissed (form : Form) (msg : String) (shows : s.errorAlert form = some { msg, alert := true }) :
      Step s (.dismiss form) (s.setAlert form { msg, alert := false })
  | openSignUp (uncovered : s.login.show_ = false) :
      Step s .openSignUp (s.present s.login.signUp)

theorem step_inv {s t : State} {a : Action} (taken : step s a = some t) : Step s a t := by
  cases a with
  | attempt form =>
      simp only [step] at taken
      split at taken
      · cases taken
      · cases taken
        exact .attempt form
  | complete position result =>
      simp only [step] at taken
      split at taken
      · cases taken
      · rename_i inFlight
        cases result with
        | failure message =>
            cases taken
            exact .failed position .login message _ inFlight rfl
        | success email =>
            cases email with
            | none => cases taken
            | some email =>
                cases taken
                exact .signedIn position email inFlight
      · rename_i cover inFlight
        split at taken
        · rename_i signUp verified status there called
          cases result with
          | failure message =>
              cases called
              have shows : s.errorAlert (.signUp cover) = some signUp.toErrorAlert := by
                simp only [State.errorAlert, there, Option.map_some]
              rw [State.finishSignUp_failed] at taken
              cases taken
              exact .failed position (.signUp cover) status _ inFlight shows
          | success email =>
              cases email with
              | none => cases called
              | some email =>
                  cases called
                  rw [State.finishSignUp_verified there] at taken
                  cases taken
                  exact .signedUp position cover status inFlight
        · cases taken
  | dismiss form =>
      simp only [step] at taken
      split at taken
      · rename_i msg shows
        cases taken
        exact .dismissed form msg shows
      · cases taken
  | openSignUp =>
      simp only [step] at taken
      split at taken
      · cases taken
      · rename_i uncovered
        cases taken
        exact .openSignUp (Bool.not_eq_true _ ▸ uncovered)

structure Past where
  /-- The message of each form's last failure, until its alert is dismissed. -/
  standing : Form → Option String
  /-- A sign-up has succeeded since the cover was last opened. -/
  signedUp : Bool

def record (s : State) (a : Action) (past : Past) : Past :=
  match a with
  | .attempt _ => past
  | .complete position result =>
      match s.attempts[position]?, result with
      | some form, .failure message =>
          { past with standing := Function.update past.standing form (some message) }
      | some (.signUp _), .success _ => { past with signedUp := true }
      | _, _ => past
  | .dismiss form => { past with standing := Function.update past.standing form none }
  | .openSignUp => { past with signedUp := false }

/-- Every failure that stands has its message on an alert that is set, and nothing is
    covered once a sign-up has succeeded. -/
structure Presents (past : Past) (s : State) : Prop where
  alerts : ∀ form message, past.standing form = some message →
    s.errorAlert form = some { msg := message, alert := true }
  cover : past.signedUp = true → s.login.show_ = false

/-- A failure finds the alert of its form down, and a success of a sign-up finds the cover
    open. -/
def TogglesRight (s : State) : Action → Prop
  | .complete position (.failure _) =>
      (s.attempts[position]?.bind s.errorAlert).map ErrorAlert.alert ≠ some true
  | .complete position (.success _) =>
      match s.attempts[position]? with
      | some (.signUp _) => s.login.show_ = true
      | _ => True
  | _ => True

instance (s : State) (a : Action) : Decidable (TogglesRight s a) :=
  match a with
  | .complete _ (.failure _) => inferInstanceAs (Decidable (_ ≠ _))
  | .complete position (.success _) =>
      match found : s.attempts[position]? with
      | some (.signUp _) => decidable_of_iff (s.login.show_ = true) (by simp only [TogglesRight, found])
      | some .login | none => isTrue (by simp only [TogglesRight, found])
  | .attempt _ | .dismiss _ | .openSignUp => isTrue trivial

/-- Changing the alert of a form together with what stands there. -/
theorem Presents.setAlert {past : Past} {s : State} {form : Form} {shown changed : ErrorAlert}
    {told : Option String} (presents : Presents past s) (shows : s.errorAlert form = some shown)
    (agree : ∀ message, told = some message → changed = { msg := message, alert := true }) :
    Presents { past with standing := Function.update past.standing form told }
      (s.setAlert form changed) := by
  refine ⟨?_, fun closed => (s.setAlert_show form changed).trans (presents.cover closed)⟩
  intro other message standing
  change Function.update past.standing form told other = some message at standing
  rw [State.errorAlert_setAlert shows]
  by_cases same : other = form
  · subst same
    rw [Function.update_self] at standing ⊢
    rw [agree message standing]
  · rw [Function.update_of_ne same] at standing ⊢
    exact presents.alerts other message standing

theorem step_presents {past : Past} {s t : State} {a : Action} (presents : Presents past s)
    (taken : step s a = some t) : Presents (record s a past) t ↔ TogglesRight s a := by
  obtain ⟨alerts, cover⟩ := id presents
  cases step_inv taken with
  | attempt form => exact iff_of_true ⟨alerts, cover⟩ trivial
  | failed position form message shown inFlight shows =>
      have told : record s (.complete position (.failure message)) past =
          { past with standing := Function.update past.standing form (some message) } := by
        simp only [record, inFlight]
      have found : TogglesRight s (.complete position (.failure message)) ↔ shown.alert = false := by
        simp [TogglesRight, inFlight, shows]
      let erased := { s with attempts := s.attempts.eraseIdx position }
      have before : Presents past erased := ⟨alerts, cover⟩
      have still : erased.errorAlert form = some shown := shows
      rw [told, found]
      constructor
      · intro after
        have toggled := after.alerts form message (Function.update_self ..)
        rw [State.errorAlert_setAlert still, Function.update_self] at toggled
        simpa using congrArg (Option.map ErrorAlert.alert) toggled
      · intro down
        refine before.setAlert still ?_
        rintro _ ⟨⟩
        rw [down, Bool.not_false]
  | signedIn position email inFlight =>
      have told : record s (.complete position (.success (some email))) past = past := by
        simp only [record, inFlight]
      have met : TogglesRight s (.complete position (.success (some email))) := by
        simp only [TogglesRight, inFlight]
      rw [told]
      exact iff_of_true ⟨alerts, cover⟩ met
  | signedUp position cover' email inFlight =>
      have told : record s (.complete position (.success (some email))) past =
          { past with signedUp := true } := by
        simp only [record, inFlight]
      have found : TogglesRight s (.complete position (.success (some email))) ↔
          s.login.show_ = true := by
        simp only [TogglesRight, inFlight]
      rw [told, found]
      constructor
      · intro presents
        simpa [LoginView.signUp] using presents.cover rfl
      · intro covered
        refine ⟨?_, fun _ => ?_⟩
        · intro form message standing
          exact State.errorAlert_present rfl (alerts form message standing)
        · simp [LoginView.signUp, covered]
  | dismissed form msg shows =>
      refine iff_of_true (presents.setAlert shows ?_) trivial
      intro message nothing
      cases nothing
  | openSignUp uncovered =>
      refine iff_of_true ⟨?_, fun never => ?_⟩ trivial
      · intro form message standing
        exact State.errorAlert_present rfl (alerts form message standing)
      · cases never

/-- At every state of a run each standing failure shows, and nothing covers the login screen
    after a successful sign-up, exactly when every failure finds the alert of its form down
    and every successful sign-up finds the cover open. -/
theorem presentation_correct {s t : State} {actions : List Action} (run : Runs step s actions t) :
    Always step record Presents { standing := fun _ => none, signedUp := false } s actions ↔
      Throughout step TogglesRight s actions := by
  refine run.always_iff_throughout Presents ?_ ⟨?_, ?_⟩
  · intro past s a t presents taken
    exact step_presents presents taken
  · intro form message none
    cases none
  · intro never
    cases never

/-- The login screen as it first appears. -/
private def appeared : State where
  login := LoginView.initial
  signUps := []
  attempts := []

/-- A login and a sign-up each fail once, the sign-up while the login is in flight; both
    alerts are dismissed and the second sign-up succeeds. -/
private def oneAtATime : List Action :=
  [.attempt .login, .openSignUp, .attempt (.signUp 0), .complete 1 (.failure "weak password"),
    .complete 0 (.failure "wrong password"), .dismiss (.signUp 0), .dismiss .login,
    .attempt (.signUp 0), .complete 0 (.success (some "first"))]

theorem presentation_correct_one_at_a_time :
    ∃ t, Runs step appeared oneAtATime t ∧
      (Always step record Presents { standing := fun _ => none, signedUp := false } appeared
          oneAtATime ↔ Throughout step TogglesRight appeared oneAtATime) ∧
      Throughout step TogglesRight appeared oneAtATime := by
  have run : Runs step appeared oneAtATime _ := Runs.of_isSome rfl
  exact ⟨_, run, presentation_correct run, by decide⟩

/-- A slow double tap on Login, and both attempts fail. -/
private def loginTwice : List Action :=
  [.attempt .login, .attempt .login, .complete 0 (.failure "wrong password"),
    .complete 0 (.failure "wrong password")]

/-- Two taps on Sign Up, the email changed in between, and both attempts succeed. -/
private def signUpTwice : List Action :=
  [.openSignUp, .attempt (.signUp 0), .attempt (.signUp 0), .complete 0 (.success (some "first")),
    .complete 0 (.success (some "second"))]

/-- The double tap swallows the message; the second sign-up opens the cover again. -/
theorem presentation_toggled_back :
    (∃ t, Runs step appeared loginTwice t ∧ t.login.alert = false ∧
      ¬ Always step record Presents { standing := fun _ => none, signedUp := false } appeared
        loginTwice) ∧
    ∃ t, Runs step appeared signUpTwice t ∧ t.login.show_ = true ∧
      ¬ Always step record Presents { standing := fun _ => none, signedUp := false } appeared
        signUpTwice := by
  constructor
  · have run : Runs step appeared loginTwice _ := Runs.of_isSome rfl
    refine ⟨_, run, rfl, ?_⟩
    intro always
    have shows := (always loginTwice [] _ (List.append_nil _).symm run).alerts .login "wrong password" rfl
    cases shows
  · have run : Runs step appeared signUpTwice _ := Runs.of_isSome rfl
    refine ⟨_, run, rfl, ?_⟩
    intro always
    have closed := (always signUpTwice [] _ (List.append_nil _).symm run).cover rfl
    cases closed

end DogFoodTracker.Presentation
