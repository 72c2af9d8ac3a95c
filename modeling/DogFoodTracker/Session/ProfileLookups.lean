import DogFoodTracker.EditProfileView
import DogFoodTracker.Session.Login

/-! # Looking the profile up while signed in

An account made by email has no display name, and GIDSignIn's user does not survive a
relaunch. Neither matters to `ProfileView`, which has captured a user or none; the editor
asks for the shared user's profile and stops the process when there is none.
-/

namespace DogFoodTracker.Session

open Firestore Transition

/-- While the tab view shows a user, no lookup of the editor or the profile reaches a trap. -/
def EditingSafe (s : State) : Prop :=
  s.contentView.body = .tabView → s.currentUser.isSome = true →
    EditProfileView.Safe s.currentUser s.gidUser ∧
      Returns (ProfileView.getName s.currentUser s.profileUser)

/-- The tab view cannot show before somebody signs in. -/
structure Hidden (s : State) : Prop where
  storedStatus : ContentView.readStatus s.storedStatus = false
  log_status : s.log_status = false
  status : s.status = false
  success : ¬ SuccessQueued s

instance (s : State) : Decidable (Hidden s) :=
  decidable_of_iff (ContentView.readStatus s.storedStatus = false ∧ s.log_status = false ∧
      s.status = false ∧ ¬ SuccessQueued s)
    ⟨fun ⟨stored, raised, shown, queued⟩ => ⟨stored, raised, shown, queued⟩,
      fun hidden => ⟨hidden.1, hidden.2, hidden.3, hidden.4⟩⟩

/-- Whoever signs in, whoever is signed in behind a tab view when Google answers, and whoever
    is signed in when the app starts with the tab view, has a name and an email in Auth or a
    profile in GIDSignIn. -/
def LeavesKnown (s : State) : Action → Prop
  | .succeed _ user =>
      EditProfileView.Known (some user) s.gidUser ∧ ProfileView.Known (some user) s.profileUser
  | .didSignInFor (some google) =>
      ¬ Hidden s → s.currentUser.isSome = true → EditProfileView.Known s.currentUser (some google)
  | .relaunch =>
      ContentView.readStatus s.storedStatus = true ∨ s.log_status = true →
        s.currentUser.isSome = true → EditProfileView.Known s.currentUser none
  | _ => True

instance (s : State) (a : Action) : Decidable (LeavesKnown s a) :=
  match a with
  | .succeed _ _ => inferInstanceAs (Decidable (_ ∧ _))
  | .didSignInFor (some _) => inferInstanceAs (Decidable (_ → _ → _))
  | .relaunch => inferInstanceAs (Decidable (_ → _ → _))
  | .request _ | .didSignInFor none | .fail _ | .complete _ | .deliver | .logout | .render =>
      isTrue trivial

/-- The current user can be looked up, by the editor and by the profile. -/
def LookedUp (s : State) : Prop :=
  s.currentUser.isSome = true →
    EditProfileView.Known s.currentUser s.gidUser ∧ ProfileView.Known s.currentUser s.profileUser

theorem LookedUp.captured {s : State} (lookedUp : LookedUp s) (there : s.currentUser.isSome = true) :
    ProfileView.Known s.currentUser s.captured := by
  apply State.captured_of (ProfileView.Known s.currentUser)
  · exact (lookedUp there).1.captured
  · exact .inr (.inl rfl)

theorem LookedUp.rendered {s : State} (lookedUp : LookedUp s) (before : State) :
    LookedUp (s.rendered before) := by
  intro there
  obtain ⟨editor, profile⟩ := lookedUp there
  exact ⟨editor, State.rendered_of (ProfileView.Known s.currentUser) profile
    (lookedUp.captured there) before⟩

/-- A relaunch forgets GIDSignIn's user and everything on its way, whatever came before. -/
theorem relaunch_lookedUp {s t : State} (allowed : LeavesKnown s .relaunch)
    (taken : step s .relaunch = some t) : LookedUp t ∨ Hidden t := by
  cases taken
  by_cases flag : ContentView.readStatus s.storedStatus = true ∨ s.log_status = true
  · refine .inl fun there => ⟨allowed flag there, .inr (.inl ?_)⟩
    exact State.captured_of (· = none) rfl rfl
  · obtain ⟨stored, raised⟩ := not_or.mp flag
    rw [Bool.not_eq_true] at stored raised
    exact .inr ⟨stored, raised, stored, fun ⟨_, queued, _⟩ => by cases queued⟩

theorem step_lookedUp {s t : State} {a : Action} (lookedUp : LookedUp s) (allowed : LeavesKnown s a)
    (taken : step s a = some t) : LookedUp t ∨ Hidden t := by
  cases step_inv taken with
  | request | refused | fail | failed => exact .inl lookedUp
  | didSignInFor google signingIn =>
      by_cases hidden : Hidden s
      · exact .inr ⟨hidden.storedStatus, hidden.log_status, hidden.status, hidden.success⟩
      · exact .inl fun there => ⟨allowed hidden there, (lookedUp there).2⟩
  | succeed position user signIn inFlight own => exact .inl fun _ => allowed
  | succeeded position signIn user completed queued runs =>
      have raised : LookedUp completed := by
        rcases completed_flags runs with ⟨writer, -, rfl⟩ | rfl
        · exact lookedUp
        · exact lookedUp
      exact .inl (raised.rendered s)
  | deliver notifications posted =>
      refine .inl (LookedUp.rendered ?_ s)
      exact lookedUp
  | logout => exact .inl fun there => absurd there Bool.false_ne_true
  | relaunch => exact relaunch_lookedUp allowed taken
  | render => exact .inl fun there => ⟨(lookedUp there).1, lookedUp.captured there⟩

theorem step_hidden {s t : State} {a : Action} (hidden : Hidden s) (allowed : LeavesKnown s a)
    (taken : step s a = some t) : LookedUp t ∨ Hidden t := by
  obtain ⟨stored, raised, shown, success⟩ := hidden
  cases step_inv taken with
  | request | refused | didSignInFor | render => exact .inr ⟨stored, raised, shown, success⟩
  | fail position signIn inFlight =>
      refine .inr ⟨stored, raised, shown, ?_⟩
      simpa [SuccessQueued, or_and_right, exists_or] using success
  | failed position signIn queued =>
      refine .inr ⟨stored, raised, shown, ?_⟩
      rwa [successQueued_eraseIdx queued rfl]
  | succeed position user signIn inFlight own => exact .inl fun _ => allowed
  | succeeded position signIn user completed queued runs =>
      exact absurd ⟨_, List.mem_of_getElem? queued, rfl⟩ success
  | deliver notifications posted => exact .inr ⟨stored, raised, stored, success⟩
  | logout => exact .inl fun there => absurd there Bool.false_ne_true
  | relaunch => exact relaunch_lookedUp allowed taken

/-- In every run whose sign-ins, Google answers and relaunches leave the current user a name
    and an email in Auth or a profile in GIDSignIn, no lookup of the editor or the profile
    reaches a trap while the tab view shows that user. -/
theorem profile_editing_safe {s t : State} {actions : List Action} (run : Runs step s actions t)
    (start : SignedOut s) (known : Throughout step LeavesKnown s actions) : EditingSafe t := by
  have nobody : LookedUp s := by
    intro there
    rw [start.currentUser] at there
    cases there
  have reached : LookedUp t ∨ Hidden t :=
    run.invariant_throughout (fun s => LookedUp s ∨ Hidden s) (fun _ _ _ reached allowed taken =>
      reached.elim (step_lookedUp · allowed taken) (step_hidden · allowed taken)) known (.inl nobody)
  intro shown there
  rcases reached with lookedUp | hidden
  · obtain ⟨editor, profile⟩ := lookedUp there
    exact ⟨EditProfileView.safe_iff.mpr editor, ProfileView.getName_returns.mpr profile⟩
  · rcases ContentView.body_tabView.mp shown with status | log_status
    · exact absurd (hidden.status.symm.trans status) Bool.false_ne_true
    · exact absurd (hidden.log_status.symm.trans log_status) Bool.false_ne_true

private def googleProfile : GIDGoogleUser where
  account := "first"
  profile := some { name := some "First", email := some "first", imageURL := none }
  authentication := some ("id", "access")

private def namedUser : AuthUser :=
  { account := "first", displayName := some "First", email := some "first" }

private def unnamedUser : AuthUser :=
  { account := "second", displayName := none, email := some "second" }

/-- An email sign-in that fails, one by Google, and a relaunch. -/
private def googleAndRelaunch : List Action :=
  [.request (.email "second"), .fail 0, .complete 0, .didSignInFor (some googleProfile),
    .succeed 0 namedUser, .complete 0, .deliver, .relaunch]

theorem profile_editing_safe_google_relaunch :
    ∃ t, Runs step installed googleAndRelaunch t ∧ t.contentView.body = .tabView ∧
      t.currentUser = some namedUser ∧ t.gidUser = none ∧ EditingSafe t := by
  have run : Runs step installed googleAndRelaunch _ := Runs.of_isSome rfl
  have known : Throughout step LeavesKnown installed googleAndRelaunch := by decide
  exact ⟨_, run, rfl, rfl, rfl, profile_editing_safe run installed_signedOut known⟩

/-- An account made by email: no display name, and no Google user. -/
private def emailSignUp : List Action :=
  [.request (.signUp "second"), .succeed 0 unnamedUser, .complete 0, .deliver]

/-- The profile shows a placeholder; the editor stops the process. -/
theorem profile_editing_unwraps :
    ∃ t, Runs step installed emailSignUp t ∧ t.contentView.body = .tabView ∧
      t.currentUser = some unnamedUser ∧
      ProfileView.getName t.currentUser t.profileUser = .ok (.placeholder "Enter Your Name Here") ∧
      EditProfileView.initial.getName t.currentUser t.gidUser = .error .unwrap ∧
      EditProfileView.initial.updateName t.currentUser t.gidUser = .error .unwrap ∧
      EditProfileView.initial.updateEmail t.currentUser t.gidUser = .error .unwrap ∧
      ¬ EditingSafe t := by
  have run : Runs step installed emailSignUp _ := Runs.of_isSome rfl
  refine ⟨_, run, rfl, rfl, rfl, rfl, rfl, rfl, ?_⟩
  intro safe
  have known := EditProfileView.safe_iff.mp (safe rfl rfl).1
  exact absurd known (by decide)

end DogFoodTracker.Session
