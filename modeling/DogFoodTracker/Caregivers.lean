import DogFoodTracker.AddCareGiverView
import DogFoodTracker.Firestore.Query
import DogFoodTracker.Transition.History

/-! # The caregivers, from the form to the profile

Any number of forms add to the `caregivers` collection, from which nothing is ever
removed, and any number of `CaregiversViewModel`s listen to it. The form asks for an
email only, so every caregiver is stored, and listed, under an empty name.
-/

namespace DogFoodTracker.Caregivers

open Firestore Transition

variable {Reader : Type}

structure State (Reader : Type) where
  /-- Every open form, of whichever client. -/
  forms : Nat → AddCareGiverView
  /-- The IDs of all documents there are. -/
  used : List DocumentID
  caregivers : Collection
  feeds : Feeds.State Reader QuerySnapshot (List CareGiver)

inductive Action (Reader : Type) where
  | edit (form : Nat) (text : String)
  | submit (form : Nat) (id : DocumentID) (canSendMail : Bool)
  | gotIt (form : Nat)
  | snapshot
  | listen (reader : Reader)
  | deliver (reader : Reader) (listener position : Nat)
  | error (reader : Reader) (listener : Nat)

namespace State

/-- A snapshot of the collection as it is. -/
def now (s : State Reader) : QuerySnapshot :=
  s.caregivers.snapshot s.used

def published (s : State Reader) (reader : Reader) : List CareGiver :=
  (s.feeds.readers reader).published

def setForm (s : State Reader) (form : Nat) (view : AddCareGiverView) : State Reader :=
  { s with forms := Function.update s.forms form view }

/-- `addDocument` under a new ID. -/
def addDocument (s : State Reader) (id : DocumentID) (document : Document) : State Reader :=
  { s with caregivers := Function.update s.caregivers id (some document), used := id :: s.used }

end State

/-- No form has been opened, nothing stored, no listener registered. -/
def initial (uuid : Nat → String) : State Reader where
  forms form := AddCareGiverView.initial (uuid form)
  used := []
  caregivers _ := none
  feeds := { history := [], readers := fun _ => { published := [], listeners := [] } }

/-- One tap on Submit: the ID the document got, and the email that was typed. -/
structure Invitation where
  id : DocumentID
  email : String
  deriving DecidableEq, Repr

namespace Invitation

/-- The caregiver a form stores. -/
def document (invitation : Invitation) : Document :=
  CareGiver.encode { id := none, name := "", email := invitation.email }

/-- The row a list has for it. -/
def row (invitation : Invitation) : CareGiver where
  id := some invitation.id
  name := ""
  email := invitation.email

end Invitation

/-- A form never sets the name. -/
structure Nameless (forms : Nat → AddCareGiverView) : Prop where
  name : ∀ form, (forms form).caregiver.name = ""

theorem Nameless.update {forms : Nat → AddCareGiverView} (nameless : Nameless forms) {form : Nat}
    {view : AddCareGiverView} (name : view.caregiver.name = "") :
    Nameless (Function.update forms form view) :=
  ⟨(Function.forall_update_iff forms fun _ view => view.caregiver.name = "").mpr
    ⟨name, fun other _ => nameless.name other⟩⟩

/-- The collection holds one document for every invitation and nothing else; `invited` is
    newest first. -/
structure Holds (invited : List Invitation) (used : List DocumentID) (caregivers : Collection) :
    Prop where
  ids : used = invited.map Invitation.id
  distinct : used.Nodup
  emails : ∀ invitation ∈ invited, invitation.email ≠ ""
  stored : ∀ invitation ∈ invited, caregivers invitation.id = some invitation.document
  only : ∀ id, caregivers id ≠ none → id ∈ used

theorem Holds.add {invited : List Invitation} {used : List DocumentID} {caregivers : Collection}
    (holds : Holds invited used caregivers) {invitation : Invitation}
    (fresh : invitation.id ∉ used) (named : invitation.email ≠ "") :
    Holds (invitation :: invited) (invitation.id :: used)
      (Function.update caregivers invitation.id (some invitation.document)) where
  ids := by rw [holds.ids, List.map_cons]
  distinct := List.nodup_cons.mpr ⟨fresh, holds.distinct⟩
  emails := List.forall_mem_cons.mpr ⟨named, holds.emails⟩
  stored := by
    intro old member
    rcases List.mem_cons.mp member with rfl | member
    · exact Function.update_self ..
    · have other : old.id ≠ invitation.id := by
        intro same
        rw [← same, holds.ids] at fresh
        exact fresh (List.mem_map_of_mem member)
      rw [Function.update_of_ne other, holds.stored old member]
  only id there := by
    by_cases here : id = invitation.id
    · exact here ▸ List.mem_cons_self
    · rw [Function.update_of_ne here] at there
      exact List.mem_cons_of_mem _ (holds.only id there)

theorem decode_row (invitation : Invitation) :
    CareGiver.decode ⟨"caregivers", invitation.id⟩ invitation.document = .ok invitation.row :=
  CareGiver.decode_encode ..

section Holds

variable {invited : List Invitation} {used : List DocumentID} {caregivers : Collection}

/-- A document of the collection is that of an invitation. -/
theorem Holds.invitation (holds : Holds invited used caregivers) {id : DocumentID}
    {document : Document} (found : caregivers id = some document) :
    ∃ invitation ∈ invited, id = invitation.id ∧ document = invitation.document := by
  have there := holds.only id (by simp [found])
  rw [holds.ids] at there
  obtain ⟨invitation, member, rfl⟩ := List.mem_map.mp there
  rw [holds.stored invitation member] at found
  exact ⟨invitation, member, rfl, (Option.some.inj found).symm⟩

/-- Whatever of the collection is listed, the rows are those of invitations. -/
theorem Holds.mem_decoded (holds : Holds invited used caregivers) {ids : List DocumentID}
    {caregiver : CareGiver}
    (row : caregiver ∈ CaregiversViewModel.decoded (caregivers.listing ids)) :
    ∃ invitation ∈ invited, caregiver = invitation.row := by
  obtain ⟨document, listed, decodes⟩ := List.mem_filterMap.mp row
  obtain ⟨-, found⟩ := Collection.mem_listing.mp listed
  obtain ⟨invitation, member, own, same⟩ := holds.invitation found
  rw [own, same, decode_row] at decodes
  exact ⟨invitation, member, (Option.some.inj decodes).symm⟩

/-- A listing of invitations has one row for each. -/
theorem Holds.decoded (holds : Holds invited used caregivers) {listed : List Invitation}
    (among : listed ⊆ invited) :
    CaregiversViewModel.decoded (caregivers.listing (listed.map Invitation.id)) =
      listed.map Invitation.row := by
  induction listed with
  | nil => rfl
  | cons invitation rest ih =>
      have stored := holds.stored invitation (among List.mem_cons_self)
      have later := ih fun _ member => among (List.mem_cons_of_mem _ member)
      simp only [CaregiversViewModel.decoded, Collection.listing, decodable, List.map_cons,
        List.filterMap_cons, stored, Option.map_some, decode_row, Except.toOption] at later ⊢
      rw [later]

/-- The whole collection is listed with one row for each invitation. -/
theorem Holds.decoded_snapshot (holds : Holds invited used caregivers) :
    (CaregiversViewModel.decoded (caregivers.snapshot used).documents).Perm
      (invited.map Invitation.row) := by
  have listing : ((caregivers.snapshot used).documents).Perm (caregivers.listing used) :=
    (Collection.ordered_perm holds.distinct).filterMap _
  rw [← holds.decoded (List.Subset.refl invited), ← holds.ids]
  exact listing.filterMap _

end Holds

/-- Every version lists the whole collection as of some number of invitations, never
    fewer than the version before it. -/
def Staged (used : List DocumentID) (caregivers : Collection) (history : List QuerySnapshot) :
    Prop :=
  ∃ stages : List (List DocumentID), stages.Pairwise (· ⊆ ·) ∧ (∀ stage ∈ stages, stage ⊆ used) ∧
    history.map QuerySnapshot.documents =
      stages.map fun stage => caregivers.listing (Collection.ordered stage)

section Staged

variable {used : List DocumentID} {caregivers : Collection} {history : List QuerySnapshot}

theorem Staged.add (staged : Staged used caregivers history) {id : DocumentID} (fresh : id ∉ used)
    (document : Document) :
    Staged (id :: used) (Function.update caregivers id (some document)) history := by
  obtain ⟨stages, grow, within, listed⟩ := staged
  refine ⟨stages, grow, fun stage member => List.subset_cons_of_subset _ (within stage member), ?_⟩
  rw [listed]
  refine List.map_congr_left fun stage member => Collection.listing_congr fun old listed => ?_
  have other : old ≠ id := by
    rintro rfl
    exact fresh (within stage member (Collection.mem_ordered.mp listed))
  rw [Function.update_of_ne other]

theorem Staged.snapshot (staged : Staged used caregivers history) :
    Staged used caregivers (history ++ [caregivers.snapshot used]) := by
  obtain ⟨stages, grow, within, listed⟩ := staged
  refine ⟨stages ++ [used], ?_, ?_, ?_⟩
  · rw [List.pairwise_append]
    exact ⟨grow, List.pairwise_singleton .., fun stage member last same =>
      List.mem_singleton.mp same ▸ within stage member⟩
  · intro stage member
    rcases List.mem_append.mp member with old | last
    · exact within stage old
    · exact List.mem_singleton.mp last ▸ List.Subset.refl _
  · rw [List.map_append, List.map_append, listed]
    rfl

/-- A later version lists all that an earlier one does, in the same order. -/
theorem Staged.sublist (staged : Staged used caregivers history) {i j : Nat} (before : i ≤ j)
    {version later : QuerySnapshot} (earlierAt : history[i]? = some version)
    (laterAt : history[j]? = some later) :
    (CaregiversViewModel.decoded version.documents).Sublist
      (CaregiversViewModel.decoded later.documents) := by
  obtain ⟨stages, grow, -, listed⟩ := staged
  have stage_of : ∀ {position : Nat} {version : QuerySnapshot}, history[position]? = some version →
      ∃ stage, stages[position]? = some stage ∧
        version.documents = caregivers.listing (Collection.ordered stage) := by
    intro position version recorded
    have there := congrArg (·[position]?) listed
    simp only [List.getElem?_map, recorded, Option.map_some] at there
    obtain ⟨stage, found, same⟩ := Option.map_eq_some_iff.mp there.symm
    exact ⟨stage, found, same.symm⟩
  obtain ⟨stage, foundEarlier, same⟩ := stage_of earlierAt
  obtain ⟨more, foundLater, same'⟩ := stage_of laterAt
  have among : stage ⊆ more := by
    rcases Nat.eq_or_lt_of_le before with rfl | before
    · rw [foundEarlier] at foundLater
      exact Option.some.inj foundLater ▸ List.Subset.refl _
    · obtain ⟨inside, rfl⟩ := List.getElem?_eq_some_iff.mp foundEarlier
      obtain ⟨inside', rfl⟩ := List.getElem?_eq_some_iff.mp foundLater
      exact List.pairwise_iff_getElem.mp grow i j inside inside' before
  rw [same, same']
  exact ((Collection.ordered_sublist among).filterMap _).filterMap _

end Staged

/-- The invariant of the forms, the collection and the lists. -/
structure Inv (invited : List Invitation) (s : State Reader) : Prop where
  nameless : Nameless s.forms
  holds : Holds invited s.used s.caregivers
  staged : Staged s.used s.caregivers s.feeds.history
  current : ∀ reader, Feeds.Current
    (fun version : QuerySnapshot => CaregiversViewModel.decoded version.documents) []
    s.feeds.history (s.feeds.readers reader)

theorem initial_inv (uuid : Nat → String) : Inv [] (initial uuid : State Reader) where
  nameless := ⟨fun _ => rfl⟩
  holds := ⟨rfl, List.nodup_nil, by simp, by simp, fun _ there => absurd rfl there⟩
  staged := ⟨[], List.Pairwise.nil, by simp, rfl⟩
  current _ := .waiting (by simp [initial]) rfl

/-- A list of a view model is made of one of the versions, or empty. -/
theorem Inv.listed {invited : List Invitation} {s : State Reader} (inv : Inv invited s)
    {reader : Reader} {caregiver : CareGiver} (row : caregiver ∈ s.published reader) :
    ∃ invitation ∈ invited, caregiver = invitation.row := by
  cases inv.current reader with
  | waiting _ same =>
      rw [State.published, same] at row
      cases row
  | standing position version _ there same =>
      rw [State.published, same] at row
      obtain ⟨stages, -, -, listed⟩ := inv.staged
      have documents : version.documents ∈ s.feeds.history.map QuerySnapshot.documents :=
        List.mem_map_of_mem (List.mem_of_getElem? there)
      rw [listed] at documents
      obtain ⟨stage, -, same⟩ := List.mem_map.mp documents
      rw [← same] at row
      exact inv.holds.mem_decoded row

/-! ## Steps -/

section Steps

variable [DecidableEq Reader]

def State.feed (s : State Reader) (action : Feeds.Action Reader QuerySnapshot) :
    Option (State Reader) :=
  match Feeds.step CaregiversViewModel.onSnapshot s.feeds action with
  | none => none
  | some feeds => some { s with feeds }

def step (s : State Reader) : Action Reader → Option (State Reader)
  | .edit form text => some (s.setForm form ((s.forms form).edit text))
  | .submit form id canSendMail =>
      if id ∈ s.used then none
      else
        match (s.forms form).submit canSendMail with
        | none => none
        | some (document, _, view) => some ((s.addDocument id document).setForm form view)
  | .gotIt form =>
      match (s.forms form).gotIt with
      | none => none
      | some view => some (s.setForm form view)
  | .snapshot => s.feed (.change s.now)
  | .listen reader => s.feed (.listen reader)
  | .deliver reader listener position => s.feed (.deliver reader listener position)
  | .error reader listener => s.feed (.error reader listener)

/-- The invitations so far, newest first. -/
def invite (s : State Reader) (a : Action Reader) (invited : List Invitation) : List Invitation :=
  match a with
  | .submit form id _ => { id, email := (s.forms form).caregiver.email } :: invited
  | _ => invited

/-- Everything a step can do. -/
inductive Step (s : State Reader) : Action Reader → State Reader → Prop where
  | setForm (a : Action Reader) (same : ∀ invited, invite s a invited = invited) (form : Nat)
      (view : AddCareGiverView) (name : view.caregiver.name = (s.forms form).caregiver.name) :
      Step s a (s.setForm form view)
  | submit (form : Nat) (id : DocumentID) (canSendMail : Bool) (mail : Option Mail)
      (document : Document) (view : AddCareGiverView) (fresh : id ∉ s.used)
      (submitted : (s.forms form).submit canSendMail = some (document, mail, view)) :
      Step s (.submit form id canSendMail) ((s.addDocument id document).setForm form view)
  | feed (a : Action Reader) (same : ∀ invited, invite s a invited = invited)
      (action : Feeds.Action Reader QuerySnapshot)
      (feeds : Feeds.State Reader QuerySnapshot (List CareGiver))
      (now : ∀ version, action = .change version → version = s.now)
      (stepped : Feeds.step CaregiversViewModel.onSnapshot s.feeds action = some feeds) :
      Step s a { s with feeds }

theorem feed_inv {s t : State Reader} {action : Feeds.Action Reader QuerySnapshot}
    (taken : s.feed action = some t) :
    ∃ feeds, Feeds.step CaregiversViewModel.onSnapshot s.feeds action = some feeds ∧
      t = { s with feeds } := by
  simp only [State.feed] at taken
  split at taken <;> cases taken
  exact ⟨_, ‹_›, rfl⟩

theorem step_inv {s t : State Reader} {a : Action Reader} (taken : step s a = some t) :
    Step s a t := by
  unfold step at taken
  cases a with
  | edit form text =>
      cases taken
      exact .setForm _ (fun _ => rfl) form _ rfl
  | submit form id canSendMail =>
      simp only at taken
      split at taken
      · cases taken
      · rename_i fresh
        split at taken
        · cases taken
        · rename_i document mail view submitted
          cases taken
          exact .submit form id canSendMail mail document view fresh submitted
  | gotIt form =>
      simp only at taken
      split at taken <;> cases taken
      exact .setForm _ (fun _ => rfl) form _ (AddCareGiverView.gotIt_name ‹_›)
  | snapshot =>
      obtain ⟨feeds, stepped, rfl⟩ := feed_inv taken
      exact .feed _ (fun _ => rfl) _ feeds
        (fun _ same => (Feeds.Action.change.inj same).symm) stepped
  | listen | deliver | error =>
      obtain ⟨feeds, stepped, rfl⟩ := feed_inv taken
      exact .feed _ (fun _ => rfl) _ feeds (by simp) stepped

theorem step_keeps {invited : List Invitation} {s t : State Reader} {a : Action Reader}
    (inv : Inv invited s) (taken : step s a = some t) : Inv (invite s a invited) t := by
  cases step_inv taken with
  | setForm _ same form view name =>
      rw [same]
      exact { inv with nameless := inv.nameless.update (name.trans (inv.nameless.name form)) }
  | submit form id canSendMail mail document view fresh submitted =>
      obtain ⟨rfl, named, kept⟩ := AddCareGiverView.submit_some submitted
      let invitation : Invitation := { id, email := (s.forms form).caregiver.email }
      have own : (s.forms form).caregiver.encode = invitation.document := by
        simp only [invitation, Invitation.document, CareGiver.encode, Encoder.encodeDocumentID,
          inv.nameless.name form]
      rw [own]
      exact {
        nameless := inv.nameless.update (kept ▸ inv.nameless.name form)
        holds := (inv.holds.add fresh named : Holds (invitation :: invited) _ _)
        staged := inv.staged.add fresh _
        current := inv.current }
  | feed _ same action feeds now stepped =>
      rw [same]
      have staged : Staged s.used s.caregivers feeds.history := by
        rcases Feeds.step_history stepped with kept | ⟨version, changed, added⟩
        · exact kept ▸ inv.staged
        · rw [added, now version changed]
          exact inv.staged.snapshot
      exact { inv with
        staged
        current := Feeds.step_current (fun _ _ => rfl) (fun _ => rfl) inv.current stepped }

/-- The invitations of a run. -/
def invitations (uuid : Nat → String) (actions : List (Action Reader)) : List Invitation :=
  recorded step invite [] (initial uuid) actions

theorem run_inv {uuid : Nat → String} {actions : List (Action Reader)} {s : State Reader}
    (run : Runs step (initial uuid) actions s) : Inv (invitations uuid actions) s :=
  (run.always Inv (fun _ _ _ _ => step_keeps) (initial_inv uuid)).last run

/-- Two invitations from one form. -/
private def twoInvitations : List (Action Unit) :=
  [.listen (), .edit 0 "second@kibble", .submit 0 "b" true, .snapshot, .deliver () 0 0, .gotIt 0,
    .edit 0 "first@kibble", .submit 0 "a" false, .snapshot, .deliver () 0 1]

end Steps

end DogFoodTracker.Caregivers
