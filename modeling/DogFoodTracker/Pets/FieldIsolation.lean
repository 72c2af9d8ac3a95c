import DogFoodTracker.Pets.Clients

/-! # Fields of pets do not disturb each other

Fix one field of one pet and erase the reads and writes of every call on another pet
or another field. What is left is still a run, and in it the field goes through the
same values. The simulation relates the two runs by what `getDocument` sees of the
field and by the phases of the calls on it; the other calls may lag behind.
-/

namespace DogFoodTracker.Clients

open Firestore Transition

/-- The call is on this field of this pet. -/
def About (id : DocumentID) (field : String) (call : Call) : Prop :=
  call.id = id ∧ call.field = field

instance (id : DocumentID) (field : String) (call : Call) : Decidable (About id field call) :=
  inferInstanceAs (Decidable (_ ∧ _))

/-- Everything but the reads and writes of calls elsewhere. -/
def keep (id : DocumentID) (field : String) : Action → Bool
  | .call (.read call) | .call (.write call) => About id field call
  | _ => true

/-- What the erased run has in common with the full one. -/
structure SameField (id : DocumentID) (field : String) (s t : State) : Prop where
  forms : s.forms = t.forms
  used : s.used = t.used
  value : s.pets.fieldOf id field = t.pets.fieldOf id field
  calls : ∀ call, About id field call → s.calls call = t.calls call
  idle : ∀ call, s.calls call = .idle ↔ t.calls call = .idle
  own : OwnField s

namespace SameField

variable {id : DocumentID} {field : String} {s t : State}

theorem refl (own : OwnField s) : SameField id field s s :=
  ⟨rfl, rfl, rfl, fun _ _ => rfl, fun _ => .rfl, own⟩

theorem withPets (same : SameField id field s t) {pets pets' : Collection}
    (value : pets.fieldOf id field = pets'.fieldOf id field) :
    SameField id field (s.withPets pets) (t.withPets pets') :=
  { same with value }

/-- Adding a document, or deleting one, on both sides. -/
theorem replace (same : SameField id field s t) (doc : DocumentID) (document : Option Document) :
    SameField id field (s.withPets (Function.update s.pets doc document))
      (t.withPets (Function.update t.pets doc document)) := by
  apply same.withPets
  simp only [Collection.fieldOf]
  by_cases here : id = doc
  · rw [here, Function.update_self, Function.update_self]
  · rw [Function.update_of_ne here, Function.update_of_ne here]
    exact same.value

/-- One call enters the same phase on both sides. -/
theorem become (same : SameField id field s t) {call : Call}
    {phase : TwoStep.Phase (String × Value) Trap}
    (own : ∀ entry, phase = .writing entry → entry.1 = call.field) :
    SameField id field { s with server := s.server.become call phase }
      { t with server := t.server.become call phase } where
  forms := same.forms
  used := same.used
  value := same.value
  calls other about := by
    by_cases here : other = call
    · subst here
      simp only [State.calls, TwoStep.State.become_self]
    · simp only [State.calls, TwoStep.State.become_other _ _ here]
      exact same.calls other about
  idle other := by
    by_cases here : other = call
    · subst here
      simp only [State.calls, TwoStep.State.become_self]
    · simp only [State.calls, TwoStep.State.become_other _ _ here]
      exact same.idle other
  own := same.own.become own

/-- A call elsewhere moves on in the full run only. -/
theorem ahead (same : SameField id field s t) {call : Call}
    {phase : TwoStep.Phase (String × Value) Trap} (elsewhere : ¬ About id field call)
    (started : s.calls call ≠ .idle) (busy : phase ≠ .idle)
    (own : ∀ entry, phase = .writing entry → entry.1 = call.field) :
    SameField id field { s with server := s.server.become call phase } t where
  forms := same.forms
  used := same.used
  value := same.value
  calls other about := by
    have here : other ≠ call := fun h => elsewhere (h ▸ about)
    simp only [State.calls, TwoStep.State.become_other _ _ here]
    exact same.calls other about
  idle := by
    have lagging : t.calls call ≠ .idle := fun h => started ((same.idle call).mpr h)
    exact State.forall_become (P := fun c phase => phase = .idle ↔ t.calls c = .idle)
      (iff_of_false busy lagging) fun other _ => same.idle other
  own := same.own.become own

end SameField

private theorem look_busy (call : Call) (pets : Collection) :
    (updates.look call pets).phase ≠ .idle := by
  cases updates.look call pets <;> simp [TwoStep.Outcome.phase]

private theorem look_own (call : Call) (pets : Collection) (entry : String × Value)
    (writing : (updates.look call pets).phase = .writing entry) : entry.1 = call.field :=
  call.update.callback_field (TwoStep.Outcome.phase_eq_writing.mp writing)

/-- The simulation between the full run and the erased one. -/
theorem fieldErasure (id : DocumentID) (field : String) :
    Erasure step step (keep id field) (SameField id field) where
  kept s t a s' visible same taken := by
    rcases step_cases taken with ⟨form, text, rfl, rfl⟩ |
        ⟨form, new, document, view, rfl, fresh, submitted, rfl⟩ | ⟨form, view, rfl, dismissed, rfl⟩ |
        ⟨deleted, rfl, rfl⟩ | ⟨action, server, rfl, stepped, rfl⟩
    · exact ⟨_, rfl, { same with forms := by rw [same.forms] }⟩
    · rw [same.forms] at submitted
      rw [same.used] at fresh
      refine ⟨_, by simp only [step, fresh, submitted, if_false]; rfl, ?_⟩
      exact { same.replace new (some document) with
        forms := by rw [same.forms]
        used := by rw [same.used] }
    · rw [same.forms] at dismissed
      refine ⟨_, by simp only [step, dismissed]; rfl, ?_⟩
      exact { same with forms := by rw [same.forms] }
    · exact ⟨_, rfl, same.replace deleted none⟩
    · rcases TwoStep.step_cases stepped with ⟨call, rfl, idle, rfl⟩ | ⟨call, rfl, reading, rfl⟩ |
          ⟨call, entry, rfl, writing, rfl⟩
      · exact ⟨_, step_call (TwoStep.step_start ((same.idle call).mp idle)),
          same.become (by simp)⟩
      · have about : About id field call := of_decide_eq_true visible
        have looks : updates.look call s.server.store = updates.look call t.server.store := by
          obtain ⟨rfl, rfl⟩ := about
          exact call.update.callback_congr same.value
        refine ⟨_, step_call (TwoStep.step_read ((same.calls call about).symm.trans reading)), ?_⟩
        rw [← looks]
        exact same.become (look_own call _)
      · have about : About id field call := of_decide_eq_true visible
        refine ⟨_, step_call (TwoStep.step_write ((same.calls call about).symm.trans writing)), ?_⟩
        have wrote : SameField id field { s with server := s.server.become call .done }
            { t with server := t.server.become call .done } := same.become (by simp)
        refine wrote.withPets ?_
        have ownField := same.own call entry writing
        obtain ⟨rfl, rfl⟩ := about
        simp only [updates, Collection.fieldOf_updateData_self ownField]
        exact congrArg (Option.map fun _ => some entry.2) same.value
  erased s t a s' hidden same taken := by
    rcases step_cases taken with ⟨form, text, rfl, rfl⟩ |
        ⟨form, new, document, view, rfl, fresh, submitted, rfl⟩ | ⟨form, view, rfl, dismissed, rfl⟩ |
        ⟨deleted, rfl, rfl⟩ | ⟨action, server, rfl, stepped, rfl⟩
    · cases hidden
    · cases hidden
    · cases hidden
    · cases hidden
    · rcases TwoStep.step_cases stepped with ⟨call, rfl, idle, rfl⟩ | ⟨call, rfl, reading, rfl⟩ |
          ⟨call, entry, rfl, writing, rfl⟩
      · cases hidden
      · have elsewhere : ¬ About id field call := of_decide_eq_false hidden
        exact same.ahead elsewhere (by simp [State.calls, reading]) (look_busy call _)
          (look_own call _)
      · have elsewhere : ¬ About id field call := of_decide_eq_false hidden
        have wrote : SameField id field { s with server := s.server.become call .done } t :=
          same.ahead elsewhere (by simp [State.calls, writing]) (by simp) (by simp)
        have ownField := same.own call entry writing
        refine { wrote with value := ?_ }
        -- the entry written is for another field, or for another pet
        refine (Collection.fieldOf_updateData ?_).trans same.value
        rintro ⟨rfl, rfl⟩
        exact elsewhere ⟨rfl, ownField.symm⟩

/-- Steps of calls on different fields or different pets commute. -/
theorem calls_comm {s t u : State} {a b : TwoStep.Action Call} (own : OwnField s)
    (apart : ¬ About a.call.id a.call.field b.call) (first : step s (.call a) = some t)
    (second : step t (.call b) = some u) :
    ∃ t', step s (.call b) = some t' ∧ step t' (.call a) = some u := by
  simp only [step] at first
  split at first
  · cases first
  rename_i server stepped
  cases first
  simp only [step] at second
  split at second
  · cases second
  rename_i server' stepped'
  cases second
  have different : a.call ≠ b.call := fun same => apart ⟨same ▸ rfl, same ▸ rfl⟩
  obtain ⟨early, begun, ended⟩ := TwoStep.step_comm different
    (fun entry writing => b.call.update.callback_congr (Collection.fieldOf_updateData
      fun same => apart ⟨same.1, same.2.trans (own _ _ writing)⟩))
    (fun entry writing => a.call.update.callback_congr (Collection.fieldOf_updateData
      fun same => apart ⟨same.1.symm, (own _ _ writing).symm.trans same.2.symm⟩))
    (fun entry entry' writing writing' => Collection.updateData_comm
      fun same => apart ⟨same.1.symm, (own _ _ writing').symm.trans
        (same.2.symm.trans (own _ _ writing))⟩)
    stepped stepped'
  exact ⟨_, step_call begun, step_call ended⟩

/-! ## Names stay -/

/-- A pet that was stored under this name still is, unless it is gone. -/
structure NameKept (id : DocumentID) (name : Option Value) (s : State) : Prop where
  used : id ∈ s.used
  name : ∀ document, s.pets id = some document → document "name" = name
  own : OwnField s

theorem field_ne_name (update : Update) : update.field ≠ "name" := by
  cases update <;> decide

theorem step_nameKept {id : DocumentID} {name : Option Value} {s t : State} {a : Action}
    (kept : NameKept id name s) (taken : step s a = some t) : NameKept id name t where
  used := step_used taken kept.used
  own := step_ownField kept.own taken
  name := by
    have all : ∀ other document, t.pets other = some document → other = id →
        document "name" = name := by
      apply step_documents (P := fun other document => other = id → document "name" = name) taken
      · rintro _ document found rfl
        exact kept.name document found
      · rintro form _ document view _ fresh _ rfl
        exact absurd kept.used fresh
      · intro call entry document _ writing before here
        have otherField : "name" ≠ entry.1 :=
          fun h => field_ne_name call.update (h.trans (kept.own call entry writing)).symm
        rw [Function.update_of_ne otherField]
        exact before here
    exact fun document stored => all id document stored rfl

/-- What the collection shows of one field of one pet. -/
def see (id : DocumentID) (field : String) (s : State) : Option (Option Value) :=
  s.pets.fieldOf id field

/-- A field of a pet takes the same sequence of values in the full run and in the run
    without the reads and writes elsewhere; such reads and writes commute with those
    of the field; and a name never changes. -/
theorem field_isolated {s t : State} {actions : List Action} (quiet : Quiet s)
    (run : Runs step s actions t) (id : DocumentID) (field : String) :
    (∃ t', Runs step s (actions.filter (keep id field)) t' ∧ see id field t = see id field t') ∧
    (observed step (see id field) s actions).destutter (· ≠ ·) =
      (observed step (see id field) s (actions.filter (keep id field))).destutter (· ≠ ·) ∧
    (∀ a b : TwoStep.Action Call, ¬ About a.call.id a.call.field b.call → ∀ t₁ u,
      step t (.call a) = some t₁ → step t₁ (.call b) = some u →
        ∃ t₂, step t (.call b) = some t₂ ∧ step t₂ (.call a) = some u) ∧
    ∀ later u document document', Runs step t later u → t.pets id = some document →
      u.pets id = some document' → document' "name" = document "name" := by
  have erasure := fieldErasure id field
  have start : SameField id field s s := .refl quiet.ownField
  have own := run_ownField quiet run
  refine ⟨?_, ?_, ?_, ?_⟩
  · obtain ⟨t', run', same⟩ := erasure.run run start
    exact ⟨t', run', same.value⟩
  · exact erasure.observed_destutter (fun _ _ same => same.value) run start
  · intro a b apart t₁ u first second
    exact calls_comm own apart first second
  · intro later u document document' after stored stored'
    have accounted : Accounted t :=
      run.invariant Accounted (fun _ _ _ => step_accounted) quiet.used
    have kept : NameKept id (document "name") t :=
      ⟨accounted id (by simp [stored]), fun d found => by
        rw [stored] at found
        cases found
        rfl, own⟩
    exact (after.invariant (NameKept id (document "name")) (fun _ _ _ => step_nameKept) kept).name
      document' stored'

/-- A breakfast tap read before, and written after, a treat. -/
private def overlappingTaps : List Action :=
  let breakfast : Call := ⟨0, "koda", .updateBB⟩
  let up : Call := ⟨1, "koda", .updateTreatsUp⟩
  [.edit 0 "Koda", .submit 0 "koda", .call (.start breakfast), .call (.read breakfast),
    .call (.start up), .call (.read up), .call (.write up), .call (.write breakfast)]

theorem field_isolated_overlapping_taps :
    ∃ t, Runs step (initial toString) (overlappingTaps.filter (keep "koda" "treats")) t ∧
      see "koda" "treats" t = some (some (.integer 1)) := by
  have run : Runs step (initial toString) overlappingTaps _ := Runs.of_isSome rfl
  obtain ⟨⟨t, erased, same⟩, -⟩ := field_isolated (initial_quiet toString) run "koda" "treats"
  exact ⟨t, erased, same.symm⟩

end DogFoodTracker.Clients
