import DogFoodTracker.PetViewModel

/-! # Any number of clients on one `pets` collection

The server holds the collection. A client adds a pet through a form, deletes one, or
makes an update call, whose callback and whose write are separate steps. Every
interleaving of these steps is a run. `addDocument` picks an ID that no document has
had, and `updateData` fails on a missing document.
-/

namespace DogFoodTracker

open Firestore Transition

/-- The documents of a collection, by ID. -/
abbrev Collection := DocumentID → Option Document

namespace Collection

/-- `updateData` merges one entry into an existing document. -/
def updateData (pets : Collection) (id : DocumentID) (entry : String × Value) : Collection :=
  match pets id with
  | some document =>
      Function.update pets id (some (Function.update document entry.1 (some entry.2)))
  | none => pets

/-- What `getDocument` and `get` see of one field. -/
def fieldOf (pets : Collection) (id : DocumentID) (field : String) : Option (Option Value) :=
  (pets id).map (· field)

theorem updateData_eq_update (pets : Collection) (id : DocumentID) (entry : String × Value) :
    pets.updateData id entry = Function.update pets id
      ((pets id).map fun document => Function.update document entry.1 (some entry.2)) := by
  cases found : pets id with
  | none =>
      simp only [updateData, found, Option.map_none]
      exact (found ▸ Function.update_eq_self id pets).symm
  | some document => simp only [updateData, found, Option.map_some]

theorem updateData_self {pets : Collection} {id : DocumentID} {entry : String × Value} :
    pets.updateData id entry id =
      (pets id).map fun document => Function.update document entry.1 (some entry.2) := by
  rw [updateData_eq_update, Function.update_self]

theorem updateData_other {pets : Collection} {id other : DocumentID} {entry : String × Value}
    (different : other ≠ id) : pets.updateData id entry other = pets other := by
  rw [updateData_eq_update, Function.update_of_ne different]

/-- `updateData` touches one field of one document. -/
theorem fieldOf_updateData {pets : Collection} {id other : DocumentID} {field : String}
    {entry : String × Value} (different : ¬ (other = id ∧ field = entry.1)) :
    (pets.updateData id entry).fieldOf other field = pets.fieldOf other field := by
  by_cases same : other = id
  · subst same
    have otherField : field ≠ entry.1 := fun h => different ⟨rfl, h⟩
    simp [fieldOf, updateData_self, Function.comp_def, Function.update_of_ne otherField]
  · simp only [fieldOf, updateData_other same]

/-- On its own field `updateData` depends on the document's existence only. -/
theorem fieldOf_updateData_self {pets : Collection} {id : DocumentID} {field : String}
    {entry : String × Value} (own : entry.1 = field) :
    (pets.updateData id entry).fieldOf id field =
      (pets.fieldOf id field).map fun _ => some entry.2 := by
  subst own
  simp [fieldOf, updateData_self, Function.comp_def]

/-- Writes to different fields, or to different documents, commute. -/
theorem updateData_comm {pets : Collection} {id other : DocumentID} {entry entry' : String × Value}
    (different : ¬ (id = other ∧ entry.1 = entry'.1)) :
    (pets.updateData id entry).updateData other entry' =
      (pets.updateData other entry').updateData id entry := by
  funext doc
  by_cases same : id = other
  · subst same
    have fields : entry.1 ≠ entry'.1 := fun h => different ⟨rfl, h⟩
    by_cases here : doc = id
    · subst here
      simp only [updateData_self, Option.map_map, Function.comp_def,
        Function.update_comm fields]
    · simp only [updateData_other here]
  · by_cases here : doc = id
    · subst here
      rw [updateData_other same, updateData_self, updateData_self, updateData_other same]
    · rw [updateData_other here]
      by_cases there : doc = other
      · subst there
        rw [updateData_self, updateData_self, updateData_other here]
      · simp only [updateData_other there, updateData_other here]

end Collection

/-- One update call; tickets tell calls with the same arguments apart. -/
structure Call where
  ticket : Nat
  id : DocumentID
  update : Update
  deriving DecidableEq, Repr

/-- The field of the pet that a call is about. -/
def Call.field (call : Call) : String :=
  call.update.field

/-- The two halves of the update calls. -/
def updates : TwoStep.Halves Collection Call (String × Value) Trap where
  look call pets := call.update.callback (pets call.id)
  put call entry pets := pets.updateData call.id entry

namespace Clients

abbrev Server := TwoStep.State Collection Call (String × Value) Trap

structure State where
  /-- Every open form, of whichever client. -/
  forms : Nat → AddPetView
  /-- The IDs of all documents there are or have been. -/
  used : List DocumentID
  /-- The collection, and where every call stands. -/
  server : Server

def State.pets (s : State) : Collection :=
  s.server.store

def State.calls (s : State) : Call → TwoStep.Phase (String × Value) Trap :=
  s.server.phase

def State.withPets (s : State) (pets : Collection) : State :=
  { s with server := { s.server with store := pets } }

inductive Action where
  | edit (form : Nat) (text : String)
  | submit (form : Nat) (id : DocumentID)
  | gotIt (form : Nat)
  | delete (id : DocumentID)
  | call (action : TwoStep.Action Call)

def step (s : State) : Action → Option State
  | .edit form text =>
      some { s with forms := Function.update s.forms form ((s.forms form).edit text) }
  | .submit form id =>
      if id ∈ s.used then none
      else
        match (s.forms form).submit with
        | none => none
        | some (document, view) =>
            some { s.withPets (Function.update s.pets id (some document)) with
              forms := Function.update s.forms form view
              used := id :: s.used }
  | .gotIt form =>
      match (s.forms form).gotIt with
      | none => none
      | some view => some { s with forms := Function.update s.forms form view }
  | .delete id => some (s.withPets (Function.update s.pets id none))
  | .call action =>
      match TwoStep.step updates s.server action with
      | none => none
      | some server => some { s with server }

@[simp] theorem State.withPets_pets (s : State) (pets : Collection) :
    (s.withPets pets).pets = pets := rfl

/-- A call enters a phase: the rule for what holds of every call's phase. -/
theorem State.forall_become {P : Call → TwoStep.Phase (String × Value) Trap → Prop} {s : State}
    {call : Call} {phase : TwoStep.Phase (String × Value) Trap} (own : P call phase)
    (others : ∀ other, other ≠ call → P other (s.calls other)) :
    ∀ other, P other ({ s with server := s.server.become call phase }.calls other) :=
  TwoStep.State.forall_become own others

/-- No form has been opened, nothing stored, no call made. -/
def initial (uuid : Nat → String) : State where
  forms form := AddPetView.initial (uuid form)
  used := []
  server := { store := fun _ => none, phase := fun _ => .idle }

/-- Every stored document's ID is in use. -/
def Accounted (s : State) : Prop :=
  ∀ id, s.pets id ≠ none → id ∈ s.used

/-- No call has been made yet, and the IDs in use are accounted for. -/
structure Quiet (s : State) : Prop where
  calls : ∀ call, s.calls call = .idle
  used : Accounted s

theorem initial_quiet (uuid : Nat → String) : Quiet (initial uuid) :=
  ⟨fun _ => rfl, fun _ there => absurd rfl there⟩

/-- Everything a step can do: one of the forms changes, a document is added under a
    fresh ID or deleted, or a call takes one of its own steps. -/
theorem step_cases {s t : State} {a : Action} (taken : step s a = some t) :
    (∃ form text, a = .edit form text ∧
      t = { s with forms := Function.update s.forms form ((s.forms form).edit text) }) ∨
    (∃ form id document view, a = .submit form id ∧ id ∉ s.used ∧
      (s.forms form).submit = some (document, view) ∧
      t = { s.withPets (Function.update s.pets id (some document)) with
        forms := Function.update s.forms form view, used := id :: s.used }) ∨
    (∃ form view, a = .gotIt form ∧ (s.forms form).gotIt = some view ∧
      t = { s with forms := Function.update s.forms form view }) ∨
    (∃ id, a = .delete id ∧ t = s.withPets (Function.update s.pets id none)) ∨
    (∃ action server, a = .call action ∧ TwoStep.step updates s.server action = some server ∧
      t = { s with server }) := by
  cases a with
  | edit form text => exact .inl ⟨form, text, rfl, (Option.some.inj taken).symm⟩
  | submit form id =>
      simp only [step] at taken
      split at taken
      · cases taken
      · rename_i fresh
        split at taken
        · cases taken
        · rename_i document view submitted
          exact .inr (.inl ⟨form, id, document, view, rfl, fresh, submitted,
            (Option.some.inj taken).symm⟩)
  | gotIt form =>
      simp only [step] at taken
      split at taken
      · cases taken
      · rename_i view dismissed
        exact .inr (.inr (.inl ⟨form, view, rfl, dismissed, (Option.some.inj taken).symm⟩))
  | delete id => exact .inr (.inr (.inr (.inl ⟨id, rfl, (Option.some.inj taken).symm⟩)))
  | call action =>
      simp only [step] at taken
      split at taken
      · cases taken
      · rename_i server stepped
        exact .inr (.inr (.inr (.inr ⟨action, server, rfl, stepped, (Option.some.inj taken).symm⟩)))

theorem step_call {s : State} {action : TwoStep.Action Call} {server : Server}
    (stepped : TwoStep.step updates s.server action = some server) :
    step s (.call action) = some { s with server } := by
  simp only [step, stepped]

/-- Where the collection comes from. -/
theorem pets_origin {s t : State} {a : Action} (taken : step s a = some t) :
    t.pets = s.pets ∨
    (∃ form id document view, a = .submit form id ∧ id ∉ s.used ∧
      (s.forms form).submit = some (document, view) ∧
      t.pets = Function.update s.pets id (some document)) ∨
    (∃ id, a = .delete id ∧ t.pets = Function.update s.pets id none) ∨
    (∃ call entry, a = .call (.write call) ∧ s.calls call = .writing entry ∧
      t.pets = s.pets.updateData call.id entry) := by
  rcases step_cases taken with ⟨form, text, rfl, rfl⟩ |
      ⟨form, id, document, view, rfl, fresh, submitted, rfl⟩ | ⟨form, view, rfl, _, rfl⟩ |
      ⟨id, rfl, rfl⟩ | ⟨action, server, rfl, stepped, rfl⟩
  · exact .inl rfl
  · exact .inr (.inl ⟨form, id, document, view, rfl, fresh, submitted, rfl⟩)
  · exact .inl rfl
  · exact .inr (.inr (.inl ⟨id, rfl, rfl⟩))
  · rcases TwoStep.store_origin stepped with same | ⟨call, entry, rfl, writing, same⟩
    · exact .inl same
    · exact .inr (.inr (.inr ⟨call, entry, rfl, writing, same⟩))

/-- Where a call's phase comes from. -/
theorem calls_origin {s t : State} {a : Action} (taken : step s a = some t) :
    t.calls = s.calls ∨
    ∃ action server, a = .call action ∧ TwoStep.step updates s.server action = some server ∧
      t.calls = server.phase := by
  rcases step_cases taken with ⟨form, text, rfl, rfl⟩ |
      ⟨form, id, document, view, rfl, fresh, submitted, rfl⟩ | ⟨form, view, rfl, _, rfl⟩ |
      ⟨id, rfl, rfl⟩ | ⟨action, server, rfl, stepped, rfl⟩
  · exact .inl rfl
  · exact .inl rfl
  · exact .inl rfl
  · exact .inl rfl
  · exact .inr ⟨action, server, rfl, stepped, rfl⟩

/-- The rule for what holds of every stored document: it must hold of what a form adds
    and survive the merge of a pending write. -/
theorem step_documents {P : DocumentID → Document → Prop} {s t : State} {a : Action}
    (taken : step s a = some t) (before : ∀ id document, s.pets id = some document → P id document)
    (added : ∀ form id document view, a = .submit form id → id ∉ s.used →
      (s.forms form).submit = some (document, view) → P id document)
    (merged : ∀ call entry document, a = .call (.write call) → s.calls call = .writing entry →
      P call.id document → P call.id (Function.update document entry.1 (some entry.2))) :
    ∀ id document, t.pets id = some document → P id document := by
  have replaced : ∀ id stored, (∀ document, stored = some document → P id document) →
      ∀ other document, Function.update s.pets id stored other = some document → P other document :=
    fun id stored own => (Function.forall_update_iff s.pets fun id stored =>
      ∀ document, stored = some document → P id document).mpr ⟨own, fun other _ => before other⟩
  rcases pets_origin taken with same | ⟨form, new, document, view, rfl, fresh, submitted, same⟩ |
      ⟨deleted, rfl, same⟩ | ⟨call, entry, rfl, writing, same⟩ <;> rw [same]
  · exact before
  · apply replaced
    rintro _ ⟨⟩
    exact added form new document view rfl fresh submitted
  · apply replaced
    intro document wrong
    cases wrong
  · rw [Collection.updateData_eq_update]
    apply replaced
    intro document stored
    -- the document was there before: a missing one makes `updateData` fail
    obtain ⟨earlier, found, rfl⟩ := Option.map_eq_some_iff.mp stored
    exact merged call entry earlier rfl writing (before call.id earlier found)

theorem writing_origin {s t : State} {a : Action} (taken : step s a = some t) {call : Call}
    {entry : String × Value} (writing : t.calls call = .writing entry) :
    s.calls call = .writing entry ∨
      (a = .call (.read call) ∧ call.update.callback (s.pets call.id) = .write entry) := by
  rcases calls_origin taken with same | ⟨action, server, rfl, stepped, same⟩
  · exact .inl (same ▸ writing)
  · rw [same] at writing
    rcases TwoStep.writing_origin stepped writing with before | ⟨rfl, looked⟩
    · exact .inl before
    · exact .inr ⟨rfl, looked⟩

theorem failed_origin {s t : State} {a : Action} (taken : step s a = some t) {call : Call}
    {trap : Trap} (failed : t.calls call = .failed trap) :
    s.calls call = .failed trap ∨
      (a = .call (.read call) ∧ call.update.callback (s.pets call.id) = .fail trap) := by
  rcases calls_origin taken with same | ⟨action, server, rfl, stepped, same⟩
  · exact .inl (same ▸ failed)
  · rw [same] at failed
    rcases TwoStep.failed_origin stepped failed with before | ⟨rfl, looked⟩
    · exact .inl before
    · exact .inr ⟨rfl, looked⟩

/-! ## Calls write their own field -/

/-- What is about to be written is an entry for the call's own field. -/
def OwnField (s : State) : Prop :=
  ∀ call entry, s.calls call = .writing entry → entry.1 = call.field

theorem step_ownField {s t : State} {a : Action} (own : OwnField s)
    (taken : step s a = some t) : OwnField t := by
  intro call entry writing
  rcases writing_origin taken writing with before | ⟨-, looked⟩
  · exact own call entry before
  · exact call.update.callback_field looked

/-- A call enters a phase, with an entry for its own field if it is about to write. -/
theorem OwnField.become {s : State} (own : OwnField s) {call : Call}
    {phase : TwoStep.Phase (String × Value) Trap}
    (entered : ∀ entry, phase = .writing entry → entry.1 = call.field) :
    OwnField { s with server := s.server.become call phase } :=
  State.forall_become (P := fun other phase => ∀ entry, phase = .writing entry →
    entry.1 = other.field) entered fun other _ => own other

theorem Quiet.ownField {s : State} (quiet : Quiet s) : OwnField s := by
  intro call entry writing
  simp [quiet.calls call] at writing

theorem run_ownField {s t : State} {actions : List Action} (quiet : Quiet s)
    (run : Runs step s actions t) : OwnField t :=
  run.invariant OwnField (fun _ _ _ => step_ownField) quiet.ownField

/-! ## Forms only ever edit the name -/

/-- Every open form still has the meals and treats it opened with. -/
def FormsUntouched (s : State) : Prop :=
  ∀ form, (s.forms form).Untouched

theorem step_formsUntouched {s t : State} {a : Action} (untouched : FormsUntouched s)
    (taken : step s a = some t) : FormsUntouched t := by
  intro other
  rcases step_cases taken with ⟨form, text, rfl, rfl⟩ |
      ⟨form, id, document, view, rfl, _, submitted, rfl⟩ | ⟨form, view, rfl, dismissed, rfl⟩ |
      ⟨id, rfl, rfl⟩ | ⟨action, server, rfl, _, rfl⟩
  · by_cases same : other = form
    · subst same
      simpa using (untouched other).edit text
    · simpa only [Function.update_of_ne same] using untouched other
  · by_cases same : other = form
    · subst same
      obtain ⟨-, -, kept⟩ := AddPetView.submit_some submitted
      simpa using (untouched other).of_pet kept
    · simpa only [Function.update_of_ne same] using untouched other
  · by_cases same : other = form
    · subst same
      simpa using (untouched other).gotIt dismissed
    · simpa only [Function.update_of_ne same] using untouched other
  · exact untouched other
  · exact untouched other

theorem initial_formsUntouched (uuid : Nat → String) : FormsUntouched (initial uuid) :=
  fun form => AddPetView.initial_untouched (uuid form)

/-! ## IDs are never used twice -/

theorem step_used {s t : State} {a : Action} (taken : step s a = some t) {id : DocumentID}
    (before : id ∈ s.used) : id ∈ t.used := by
  rcases step_cases taken with ⟨form, text, rfl, rfl⟩ |
      ⟨form, new, document, view, rfl, _, _, rfl⟩ | ⟨form, view, rfl, _, rfl⟩ | ⟨new, rfl, rfl⟩ |
      ⟨action, server, rfl, _, rfl⟩
  · exact before
  · exact List.mem_cons_of_mem _ before
  · exact before
  · exact before
  · exact before

/-- A document comes into existence only under an ID that becomes used with it. -/
theorem stored_origin {s t : State} {a : Action} (taken : step s a = some t) {id : DocumentID}
    (stored : t.pets id ≠ none) : s.pets id ≠ none ∨ (id ∉ s.used ∧ id ∈ t.used) := by
  rcases step_cases taken with ⟨form, text, rfl, rfl⟩ |
      ⟨form, new, document, view, rfl, fresh, _, rfl⟩ | ⟨form, view, rfl, _, rfl⟩ |
      ⟨deleted, rfl, rfl⟩ | ⟨action, server, rfl, stepped, rfl⟩
  · exact .inl stored
  · by_cases here : id = new
    · subst here
      exact .inr ⟨fresh, List.mem_cons_self⟩
    · exact .inl fun missing => stored ((Function.update_of_ne here ..).trans missing)
  · exact .inl stored
  · by_cases here : id = deleted
    · subst here
      exact absurd (Function.update_self ..) stored
    · exact .inl fun missing => stored ((Function.update_of_ne here ..).trans missing)
  · refine .inl fun missing => stored ?_
    change s.server.store id = none at missing
    change server.store id = none
    rcases TwoStep.store_origin stepped with same | ⟨call, entry, rfl, _, same⟩
    · rw [same, missing]
    · rw [same]
      change s.server.store.updateData call.id entry id = none
      by_cases here : id = call.id
      · rw [here, Collection.updateData_self, ← here, missing, Option.map_none]
      · rw [Collection.updateData_other here, missing]

theorem step_accounted {s t : State} {a : Action} (accounted : Accounted s)
    (taken : step s a = some t) : Accounted t := by
  intro id stored
  rcases stored_origin taken stored with before | ⟨-, after⟩
  · exact step_used taken (accounted id before)
  · exact after

/-- A document that is gone stays gone: its ID is in use and is not picked again. -/
theorem step_gone {s t : State} {a : Action} (taken : step s a = some t) {id : DocumentID}
    (used : id ∈ s.used) (gone : s.pets id = none) : t.pets id = none := by
  by_contra stored
  rcases stored_origin taken stored with before | ⟨fresh, -⟩
  · exact before gone
  · exact fresh used

end Clients

end DogFoodTracker
