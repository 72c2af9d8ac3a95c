import DogFoodTracker.Session.Steps

/-! # Whose name and picture the profile shows

A Google sign-in sets GIDSignIn's user in its first stage and Auth's in its second. When
the second stage fails, nothing signs GIDSignIn out again, and its user stays behind
for whoever signs in next. As long as the two never know different accounts, everything
on the profile belongs to Auth's current user.
-/

namespace DogFoodTracker.Session

open Firestore Transition

/-- A Google user is of this account, or there is none. -/
def NoOther (account : Account) (user : Option GIDGoogleUser) : Prop :=
  ∀ google, user = some google → google.account = account

/-- Whatever the profile of a signed-in user shows is the user's own or a placeholder. -/
def OwnProfile (load : String → Bool) (s : State) : Prop :=
  s.contentView.body = .tabView → ∀ user, s.currentUser = some user → ∀ shown,
    ProfileView.getName s.currentUser s.profileUser = .ok shown ∨
      ProfileView.picture load s.profileUser = .ok shown → shown.BelongsTo user.account

/-- A sign-in finds no Google user of another account behind, and the Google stage
    finds no other account signed in. -/
def NoOtherLeft (s : State) : Action → Prop
  | .succeed _ user => NoOther user.account s.gidUser ∧ NoOther user.account s.profileUser
  | .didSignInFor google =>
      match s.currentUser with
      | some user => NoOther user.account google
      | none => True
  | _ => True

instance (account : Account) : (user : Option GIDGoogleUser) → Decidable (NoOther account user)
  | none => isTrue fun _ wrong => nomatch wrong
  | some google => decidable_of_iff (google.account = account)
      ⟨fun own _ same => Option.some.inj same ▸ own, fun all => all google rfl⟩

instance (s : State) (a : Action) : Decidable (NoOtherLeft s a) :=
  match a with
  | .succeed _ _ => inferInstanceAs (Decidable (_ ∧ _))
  | .didSignInFor google =>
      match found : s.currentUser with
      | some user =>
          decidable_of_iff (NoOther user.account google) (by simp only [NoOtherLeft, found])
      | none => isTrue (by simp only [NoOtherLeft, found])
  | .request _ | .fail _ | .complete _ | .deliver | .logout | .relaunch | .render => isTrue trivial

/-- Auth and GIDSignIn do not know different accounts, nor does the profile. -/
def Agree (s : State) : Prop :=
  ∀ user, s.currentUser = some user →
    NoOther user.account s.gidUser ∧ NoOther user.account s.profileUser

theorem NoOther.captured {s : State} {account : Account} (none : NoOther account s.gidUser) :
    NoOther account s.captured := by
  apply State.captured_of (NoOther account) none
  intro google found
  cases found

theorem Agree.rendered {s : State} (agree : Agree s) (before : State) :
    Agree (s.rendered before) := by
  intro user current
  obtain ⟨gid, shown⟩ := agree user current
  exact ⟨gid, State.rendered_of (NoOther user.account) shown gid.captured before⟩

theorem step_agree {s t : State} {a : Action} (agree : Agree s) (allowed : NoOtherLeft s a)
    (taken : step s a = some t) : Agree t := by
  cases step_inv taken with
  | request | refused | fail | failed => exact agree
  | didSignInFor google signingIn =>
      intro user current
      simp only [NoOtherLeft] at allowed
      rw [show s.currentUser = some user from current] at allowed
      exact ⟨allowed, (agree user current).2⟩
  | succeed position user signIn inFlight own =>
      rintro _ ⟨⟩
      exact allowed
  | succeeded position signIn user completed queued runs =>
      have raised : Agree completed := by
        rcases completed_flags runs with ⟨writer, -, rfl⟩ | rfl
        · exact agree
        · exact agree
      exact raised.rendered s
  | deliver notifications posted =>
      refine Agree.rendered ?_ s
      exact agree
  | logout =>
      intro user current
      cases current
  | relaunch launched clean =>
      subst clean
      intro user current
      have nobody : NoOther user.account none := fun _ wrong => nomatch wrong
      exact ⟨nobody, NoOther.captured nobody⟩
  | render =>
      exact fun user current => ⟨(agree user current).1, (agree user current).1.captured⟩

private def googleUser : GIDGoogleUser where
  account := "first"
  profile := some { name := some "First", email := some "first", imageURL := some "first.png" }
  authentication := some ("id", "access")

private def emailAccount : AuthUser :=
  { account := "second", displayName := none, email := some "second" }

/-- Both stages succeed for one account. -/
private def googleSignIn : List Action :=
  [.didSignInFor (some googleUser), .succeed 0 { emailAccount with account := "first" },
    .complete 0, .deliver]

/-- The Firebase stage fails for one account, and another one signs in by email. -/
private def googleFailsThenEmail : List Action :=
  [.didSignInFor (some googleUser), .fail 0, .complete 0, .request (.email "second"),
    .succeed 0 emailAccount, .complete 0, .deliver]

end DogFoodTracker.Session
