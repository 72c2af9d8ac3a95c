import DogFoodTracker.EditProfileView
import DogFoodTracker.Transition.History

/-! # Confirmed edits of the profile

"Yes" puts what was typed into the variable that the next evaluation of the same text
overwrites with Auth's value, and Auth is never told. So a confirmed edit shows only if
it confirms what the account already has.
-/

namespace DogFoodTracker.ProfileEdits

open Firestore Transition

/-- What happens while a user is signed in. Each evaluation of a `body` finds whatever user
    GIDSignIn has by then, or the profile has captured. -/
inductive Action where
  | edit (field : Field) (value : String)
  | change (field : Field)
  | confirm (field : Field)
  | cancel (field : Field)
  | render (gidUser : Option GIDGoogleUser)
  | renderProfile (captured : Option GIDGoogleUser)
  /-- The `NavigationLink` leads to a new view. -/
  | reopen
  deriving DecidableEq, Repr

def step (user : AuthUser) (view : EditProfileView) : Action → Option EditProfileView
  | .edit field value => some (view.edit field value)
  | .change field => view.change field
  | .confirm field => view.confirm field
  | .cancel field => view.cancel field
  | .render gidUser =>
      match view.body (some user) gidUser with
      | .ok (_, view) => some view
      | .error _ => none
  | .renderProfile captured =>
      match ProfileView.getName (some user) captured with
      | .ok _ => some view
      | .error _ => none
  | .reopen => some EditProfileView.initial

/-- The last confirmed edit of each field. -/
def record (view : EditProfileView) (a : Action) (confirmed : Details) : Details :=
  match a with
  | .confirm field => confirmed.set field (view.typed field)
  | _ => confirmed

/-- The editor would show the confirmed name and email, the profile the same name, and
    cancelling an edit would not change what the editor shows. -/
structure ShowsConfirmed (user : AuthUser) (confirmed : Details) (view : EditProfileView) : Prop where
  editor : ∀ gidUser, ∃ rendered, view.body (some user) gidUser = .ok (confirmed, rendered)
  profile : ∀ captured, ∃ shown, ProfileView.getName (some user) captured = .ok shown ∧
    shown.value = confirmed.name
  cancelled : ∀ field view', view.cancel field = some view' → ∀ gidUser,
    (view'.body (some user) gidUser).map Prod.fst = (view.body (some user) gidUser).map Prod.fst

/-- An edit is confirmed only where it makes no difference. -/
def ConfirmsAccount (account : Details) (view : EditProfileView) : Action → Prop
  | .confirm field => view.typed field = account.get field
  | _ => True

instance (account : Details) (view : EditProfileView) (a : Action) :
    Decidable (ConfirmsAccount account view a) :=
  match a with
  | .confirm _ => inferInstanceAs (Decidable (_ = _))
  | .edit _ _ | .change _ | .cancel _ | .render _ | .renderProfile _ | .reopen => isTrue trivial

section

variable {user : AuthUser} {account : Details} (named : user.displayName = some account.name)
  (mailed : user.email = some account.email)

include named mailed

/-- Whatever the view holds, only the account's own details count as shown. -/
theorem showsConfirmed_iff {confirmed : Details} {view : EditProfileView} :
    ShowsConfirmed user confirmed view ↔ confirmed = account := by
  constructor
  · rintro ⟨editor, -, -⟩
    obtain ⟨rendered, shown⟩ := editor none
    rw [EditProfileView.body_ofAuth named mailed] at shown
    cases shown
    rfl
  · rintro rfl
    refine ⟨fun gidUser => ⟨_, EditProfileView.body_ofAuth named mailed gidUser view⟩, ?_, ?_⟩
    · exact fun captured => ⟨_, ProfileView.getName_displayName named captured, rfl⟩
    · intro field view' _ gidUser
      rw [EditProfileView.body_ofAuth named mailed, EditProfileView.body_ofAuth named mailed]
      rfl

theorem step_showsConfirmed {confirmed : Details} {view view' : EditProfileView} {a : Action}
    (shows : ShowsConfirmed user confirmed view) :
    ShowsConfirmed user (record view a confirmed) view' ↔ ConfirmsAccount account view a := by
  obtain rfl := (showsConfirmed_iff named mailed).mp shows
  rw [showsConfirmed_iff named mailed]
  cases a with
  | confirm field => exact Details.set_eq_self
  | edit | change | cancel | render | renderProfile | reopen => exact iff_of_true rfl trivial

/-- In a session of a user with a name and an email, the editor and the profile show the last
    confirmed edits, or the account's details where there are none, throughout exactly when
    every edit confirmed is to what the account already has. -/
theorem confirmed_edits_last {view view' : EditProfileView} {actions : List Action}
    (run : Runs (step user) view actions view') :
    Always (step user) record (ShowsConfirmed user) account view actions ↔
      Throughout (step user) (ConfirmsAccount account) view actions := by
  refine run.always_iff_throughout (ShowsConfirmed user) ?_ ((showsConfirmed_iff named mailed).mpr rfl)
  intro confirmed view a view' shows _
  exact step_showsConfirmed named mailed shows

end

private def signedIn : AuthUser :=
  { account := "first", displayName := some "First", email := some "first" }

private def signedInDetails : Details :=
  { name := "First", email := "first" }

private theorem signedIn_named : signedIn.displayName = some signedInDetails.name := rfl

private theorem signedIn_mailed : signedIn.email = some signedInDetails.email := rfl

/-- A cancelled edit of the email, and a confirmed one of the name to what it is. -/
private def cancelEmailKeepName : List Action :=
  [.render none, .edit .email "second", .change .email, .cancel .email, .render none,
    .edit .name "First", .change .name, .confirm .name, .render none, .renderProfile none]

theorem confirmed_edits_last_same_name :
    ∃ view, Runs (step signedIn) .initial cancelEmailKeepName view ∧
      (Always (step signedIn) record (ShowsConfirmed signedIn) signedInDetails .initial
          cancelEmailKeepName ↔
        Throughout (step signedIn) (ConfirmsAccount signedInDetails) .initial cancelEmailKeepName) ∧
      Throughout (step signedIn) (ConfirmsAccount signedInDetails) .initial cancelEmailKeepName := by
  have run : Runs (step signedIn) .initial cancelEmailKeepName _ := Runs.of_isSome rfl
  exact ⟨_, run, confirmed_edits_last signedIn_named signedIn_mailed run, by decide⟩

/-- The edit of the name is confirmed to another one. -/
private def confirmOtherName : List Action :=
  [.render none, .edit .name "Second", .change .name, .confirm .name]

/-- The next evaluation of the text shows the account's name again. -/
theorem confirmed_edit_overwritten :
    ∃ view rendered, Runs (step signedIn) .initial confirmOtherName view ∧
      recorded (step signedIn) record signedInDetails .initial confirmOtherName =
        { signedInDetails with name := "Second" } ∧
      view.name = "Second" ∧
      view.body (some signedIn) none = .ok (signedInDetails, rendered) ∧
      ¬ Always (step signedIn) record (ShowsConfirmed signedIn) signedInDetails .initial
        confirmOtherName := by
  have run : Runs (step signedIn) .initial confirmOtherName _ := Runs.of_isSome rfl
  refine ⟨_, _, run, rfl, rfl, rfl, ?_⟩
  intro always
  have shows := always confirmOtherName [] _ rfl run
  have same := (showsConfirmed_iff signedIn_named signedIn_mailed).mp shows
  exact absurd same (by decide)


end DogFoodTracker.ProfileEdits
