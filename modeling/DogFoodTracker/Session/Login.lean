import DogFoodTracker.Session.Steps

/-! # The tab view and the current user

A sign-in raises `status` or `log_status`; Logout lowers `status` only, and a success
whose completion is still queued raises a flag after the user is gone. A relaunch drops
the queue, and with it the flag of a user who survives. Apart from these, the tab view
shows exactly when there is a current user.
-/

namespace DogFoodTracker.Session

open Transition

/-- Neither a completion nor a notification is pending. -/
def Settled (s : State) : Prop :=
  s.completions = [] ∧ s.notifications = 0

/-- The tab view shows exactly when Auth has a current user. -/
def Consistent (s : State) : Prop :=
  s.contentView.body = .tabView ↔ s.currentUser.isSome = true

/-- The completion of a success is still queued. -/
def SuccessQueued (s : State) : Prop :=
  ∃ completion ∈ s.completions, completion.result.isSome = true

instance (s : State) : Decidable (SuccessQueued s) :=
  inferInstanceAs (Decidable (∃ completion ∈ s.completions, completion.result.isSome = true))

/-- Logout is tapped only when no flag is raised or about to be raised that it does not
    lower, and the app is relaunched only when that loses no flag. -/
def NothingLeftOver (s : State) : Action → Prop
  | .logout => s.log_status = false ∧ ¬ SuccessQueued s
  | .relaunch => SuccessQueued s → ContentView.readStatus s.storedStatus = true ∨ s.log_status = true
  | _ => True

instance (s : State) (a : Action) : Decidable (NothingLeftOver s a) :=
  match a with
  | .logout => inferInstanceAs (Decidable (_ ∧ _))
  | .relaunch => inferInstanceAs (Decidable (_ → _))
  | .request _ | .didSignInFor _ | .succeed _ _ | .fail _ | .complete _ | .deliver | .render =>
      isTrue trivial

/-- A user is there exactly when a stored flag says so or soon will, and an outdated
    copy of the status has a notification ahead of it. -/
structure Aligned (s : State) : Prop where
  user : s.currentUser.isSome = true ↔
    ContentView.readStatus s.storedStatus = true ∨ s.log_status = true ∨ SuccessQueued s
  view : s.status = ContentView.readStatus s.storedStatus ∨ s.notifications ≠ 0

theorem SignedOut.aligned {s : State} (signedOut : SignedOut s) : Aligned s where
  user := by simp [SuccessQueued, signedOut.currentUser, signedOut.storedStatus,
    signedOut.log_status, signedOut.completions]
  view := .inl (signedOut.status.trans signedOut.storedStatus.symm)

/-- Taking a failure out of the queue leaves the successes in it. -/
theorem successQueued_eraseIdx {s t : State} {position : Nat} {signIn : SignIn}
    (queued : s.completions[position]? = some { signIn, result := none })
    (erased : t.completions = s.completions.eraseIdx position) :
    SuccessQueued t ↔ SuccessQueued s := by
  simp only [SuccessQueued, erased, List.mem_eraseIdx_iff_getElem?]
  constructor
  · rintro ⟨completion, ⟨index, -, at_index⟩, success⟩
    exact ⟨completion, List.mem_of_getElem? at_index, success⟩
  · rintro ⟨completion, member, success⟩
    obtain ⟨index, at_index⟩ := List.mem_iff_getElem?.mp member
    refine ⟨completion, ⟨index, fun same => ?_, at_index⟩, success⟩
    rw [same, queued] at at_index
    cases at_index
    cases success

theorem step_aligned {s t : State} {a : Action} (aligned : Aligned s)
    (allowed : NothingLeftOver s a) (taken : step s a = some t) : Aligned t := by
  cases step_inv taken with
  | request | refused | didSignInFor | render => exact ⟨aligned.user, aligned.view⟩
  | succeed position user signIn inFlight own =>
      have queued : SuccessQueued { s with
          currentUser := some user
          signingIn := s.signingIn.eraseIdx position
          completions := s.completions ++ [{ signIn, result := some user }] } :=
        ⟨_, List.mem_append_right _ (List.mem_singleton_self _), rfl⟩
      exact ⟨iff_of_true rfl (.inr (.inr queued)), aligned.view⟩
  | fail position signIn inFlight =>
      refine ⟨aligned.user.trans ?_, aligned.view⟩
      simp [SuccessQueued, or_and_right, exists_or]
  | failed position signIn queued =>
      refine ⟨aligned.user.trans ?_, aligned.view⟩
      rw [← successQueued_eraseIdx (t := { s with completions := s.completions.eraseIdx position })
        queued rfl]
  | succeeded position signIn user completed queued runs =>
      have there : s.currentUser.isSome = true :=
        aligned.user.mpr (.inr (.inr ⟨_, List.mem_of_getElem? queued, rfl⟩))
      rcases completed_flags runs with ⟨writer, raised, rfl⟩ | rfl
      · exact ⟨iff_of_true there (.inl raised), .inr (Nat.succ_ne_zero _)⟩
      · exact ⟨iff_of_true there (.inr (.inl rfl)), aligned.view⟩
  | deliver notifications posted => exact ⟨aligned.user, .inl rfl⟩
  | logout =>
      obtain ⟨lowered, none_queued⟩ := allowed
      refine ⟨iff_of_false Bool.false_ne_true ?_, .inr (Nat.succ_ne_zero _)⟩
      rintro (wrong | raised | queued)
      · cases wrong
      · exact absurd (lowered.symm.trans raised) (by decide)
      · exact none_queued queued
  | relaunch launched clean =>
      subst clean
      refine ⟨aligned.user.trans ⟨?_, ?_⟩, .inl rfl⟩
      · rintro (stored | raised | queued)
        · exact .inl stored
        · exact .inr (.inl raised)
        · exact (allowed queued).imp_right .inl
      · rintro (stored | raised | ⟨_, wrong, -⟩)
        · exact .inl stored
        · exact .inr (.inl raised)
        · cases wrong

theorem Aligned.consistent {s : State} (aligned : Aligned s) (settled : Settled s) :
    Consistent s := by
  have copied : s.status = ContentView.readStatus s.storedStatus := by
    rcases aligned.view with same | pending
    · exact same
    · exact absurd settled.2 pending
  have empty : ¬ SuccessQueued s := by
    rintro ⟨completion, member, -⟩
    rw [settled.1] at member
    cases member
  rw [Consistent, ContentView.body_tabView, aligned.user]
  simp only [State.contentView, copied, empty, or_false]

/-- In every run in which each Logout is tapped with `log_status` down and no success
    queued, and each relaunch drops no success that has not raised a flag, the tab view
    shows exactly when Auth has a current user, whenever nothing is pending. -/
theorem login_consistent {s t : State} {actions : List Action} (run : Runs step s actions t)
    (start : SignedOut s) (clean : Throughout step NothingLeftOver s actions)
    (settled : Settled t) : Consistent t :=
  (run.invariant_throughout Aligned (fun _ _ _ aligned allowed taken =>
    step_aligned aligned allowed taken) clean start.aligned).consistent settled

private def emailUser : AuthUser :=
  { account := "first", displayName := none, email := some "first" }

/-- An email sign-in that fails, one that succeeds, and a Logout. -/
private def signInAndOut : List Action :=
  [.request (.email "first"), .fail 0, .complete 0, .request (.email "first"), .succeed 0 emailUser,
    .complete 0, .deliver, .logout, .deliver]

theorem login_consistent_in_and_out :
    ∃ t, Runs step installed signInAndOut t ∧ Consistent t := by
  have run : Runs step installed signInAndOut _ := Runs.of_isSome rfl
  have clean : Throughout step NothingLeftOver installed signInAndOut := by decide
  exact ⟨_, run, login_consistent run installed_signedOut clean ⟨rfl, rfl⟩⟩

/-- Logout after a sign-in through Apple. -/
private def appleThenLogout : List Action :=
  [.request (.apple "first"), .succeed 0 emailUser, .complete 0, .logout, .deliver]

/-- A double tap on Login; Logout falls between the second success and its completion. -/
private def lateCompletion : List Action :=
  [.request (.email "first"), .request (.email "first"), .succeed 0 emailUser, .complete 0,
    .deliver, .succeed 0 emailUser, .logout, .complete 0, .deliver, .deliver]

/-- Either way the tab view stays on the screen with nobody signed in. -/
theorem login_left_over :
    (∃ t, Runs step installed appleThenLogout t ∧ Settled t ∧ t.contentView.body = .tabView ∧
      t.currentUser = none ∧ ¬ Consistent t) ∧
    ∃ t, Runs step installed lateCompletion t ∧ Settled t ∧ t.contentView.body = .tabView ∧
      t.currentUser = none ∧ ¬ Consistent t := by
  constructor
  · have run : Runs step installed appleThenLogout _ := Runs.of_isSome rfl
    refine ⟨_, run, ⟨rfl, rfl⟩, rfl, rfl, ?_⟩
    intro consistent
    exact absurd (consistent.mp rfl) Bool.false_ne_true
  · have run : Runs step installed lateCompletion _ := Runs.of_isSome rfl
    refine ⟨_, run, ⟨rfl, rfl⟩, rfl, rfl, ?_⟩
    intro consistent
    exact absurd (consistent.mp rfl) Bool.false_ne_true

end DogFoodTracker.Session
