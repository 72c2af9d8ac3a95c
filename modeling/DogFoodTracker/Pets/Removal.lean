import DogFoodTracker.HomeView
import DogFoodTracker.Pets.Clients
import DogFoodTracker.PetsViewModel

/-! # Swiping rows away among other clients

The gesture turns the offsets into document IDs on the list it was made on and issues
one delete for each. The deletes commit later, in any order, while snapshots replace
the list and other clients go on. What is deleted was fixed by the gesture, stays
deleted, and nothing else notices.
-/

namespace DogFoodTracker

open Firestore Transition

namespace Clients

/-! ## Clients with and without some documents -/

/-- The second state is the first one but for documents that are gone from the first,
    and for calls that found them gone. -/
structure Without (ids : List DocumentID) (s t : State) : Prop where
  forms : s.forms = t.forms
  used : s.used = t.used
  known : ∀ id ∈ ids, id ∈ s.used
  pets : ∀ id, s.pets id = t.pets id ∨ (id ∈ ids ∧ s.pets id = none)
  calls : ∀ call, s.calls call = t.calls call ∨
    (call.id ∈ ids ∧ s.pets call.id = none ∧ s.calls call = .done)

namespace Without

variable {ids : List DocumentID} {s t : State}

theorem refl (known : ∀ id ∈ ids, id ∈ s.used) : Without ids s s :=
  ⟨rfl, rfl, known, fun _ => .inl rfl, fun _ => .inl rfl⟩

/-- A call that still moves on one side is in the same phase on the other. -/
theorem live (without : Without ids s t) (call : Call) (live : s.calls call ≠ .done) :
    s.calls call = t.calls call := by
  rcases without.calls call with same | ⟨-, -, done⟩
  · exact same
  · exact absurd done live

/-- A document is replaced on each side: by the same one, or by none on the first side. -/
theorem update (without : Without ids s t) {id : DocumentID} {document document' : Option Document}
    (replaced : document = document' ∨ (id ∈ ids ∧ document = none))
    (stays : id ∈ ids → s.pets id = none → document = none) :
    Without ids (s.withPets (Function.update s.pets id document))
      (t.withPets (Function.update t.pets id document')) where
  forms := without.forms
  used := without.used
  known := without.known
  pets other := by
    simp only [State.withPets_pets]
    by_cases here : other = id
    · subst here
      rw [Function.update_self, Function.update_self]
      exact replaced
    · rw [Function.update_of_ne here, Function.update_of_ne here]
      exact without.pets other
  calls call := by
    rcases without.calls call with same | ⟨member, missing, done⟩
    · exact .inl same
    · refine .inr ⟨member, ?_, done⟩
      simp only [State.withPets_pets]
      by_cases here : call.id = id
      · rw [here, Function.update_self]
        exact stays (here ▸ member) (here ▸ missing)
      · rw [Function.update_of_ne here, missing]

theorem delete (without : Without ids s t) (id : DocumentID) :
    Without ids (s.withPets (Function.update s.pets id none))
      (t.withPets (Function.update t.pets id none)) :=
  without.update (.inl rfl) fun _ _ => rfl

/-- A chosen document is deleted on the first side only. -/
theorem remove (without : Without ids s t) {id : DocumentID} (chosen : id ∈ ids) :
    Without ids (s.withPets (Function.update s.pets id none)) t := by
  have removed : Without ids (s.withPets (Function.update s.pets id none))
      (t.withPets (Function.update t.pets id (t.pets id))) :=
    without.update (.inr ⟨chosen, rfl⟩) fun _ _ => rfl
  rw [Function.update_eq_self] at removed
  exact removed

/-- The write of a call that read before the delete fails on the first side. -/
theorem write (without : Without ids s t) (id : DocumentID) (entry : String × Value) :
    Without ids (s.withPets (s.pets.updateData id entry))
      (t.withPets (t.pets.updateData id entry)) := by
  rw [Collection.updateData_eq_update, Collection.updateData_eq_update]
  apply without.update
  · rcases without.pets id with same | ⟨chosen, missing⟩
    · exact .inl (by rw [same])
    · exact .inr ⟨chosen, by rw [missing, Option.map_none]⟩
  · intro _ missing
    rw [missing, Option.map_none]

/-- A call enters a phase on each side: the same one, unless its document is gone and
    it is done on the first side. -/
theorem become (without : Without ids s t) {call : Call}
    {phase phase' : TwoStep.Phase (String × Value) Trap}
    (moved : phase = phase' ∨ (call.id ∈ ids ∧ s.pets call.id = none ∧ phase = .done)) :
    Without ids { s with server := s.server.become call phase }
      { t with server := t.server.become call phase' } where
  forms := without.forms
  used := without.used
  known := without.known
  pets := without.pets
  calls other := by
    by_cases here : other = call
    · subst here
      simp only [State.calls, TwoStep.State.become_self]
      exact moved
    · simp only [State.calls, TwoStep.State.become_other _ _ here]
      exact without.calls other

theorem step (without : Without ids s t) {a : Action} {s' : State}
    (taken : Clients.step s a = some s') :
    ∃ t', Clients.step t a = some t' ∧ Without ids s' t' := by
  rcases step_cases taken with ⟨form, text, rfl, rfl⟩ |
      ⟨form, new, document, view, rfl, fresh, submitted, rfl⟩ | ⟨form, view, rfl, dismissed, rfl⟩ |
      ⟨deleted, rfl, rfl⟩ | ⟨action, server, rfl, stepped, rfl⟩
  · exact ⟨_, rfl, { without with forms := by rw [without.forms] }⟩
  · have added : Without ids (s.withPets (Function.update s.pets new (some document)))
        (t.withPets (Function.update t.pets new (some document))) :=
      without.update (.inl rfl) fun member => absurd (without.known new member) fresh
    have known := fun id member => List.mem_cons_of_mem new (without.known id member)
    rw [without.forms] at submitted
    rw [without.used] at fresh
    refine ⟨_, by simp only [Clients.step, fresh, submitted, if_false]; rfl, ?_⟩
    exact { added with
      forms := by rw [without.forms]
      used := by rw [without.used]
      known }
  · rw [without.forms] at dismissed
    refine ⟨_, by simp only [Clients.step, dismissed]; rfl, ?_⟩
    exact { without with forms := by rw [without.forms] }
  · exact ⟨_, rfl, without.delete deleted⟩
  · rcases TwoStep.step_cases stepped with ⟨call, rfl, idle, rfl⟩ | ⟨call, rfl, reading, rfl⟩ |
        ⟨call, entry, rfl, writing, rfl⟩
    · have same := without.live call (by simp [State.calls, idle])
      exact ⟨_, step_call (TwoStep.step_start (same.symm.trans idle)), without.become (.inl rfl)⟩
    · have same := without.live call (by simp [State.calls, reading])
      refine ⟨_, step_call (TwoStep.step_read (same.symm.trans reading)), without.become ?_⟩
      rcases without.pets call.id with samePet | ⟨chosen, missing⟩
      · exact .inl (congrArg (fun pet => (call.update.callback pet).phase) samePet)
      · -- "Document does not exist"
        refine .inr ⟨chosen, missing, ?_⟩
        change (call.update.callback (s.pets call.id)).phase = .done
        rw [missing, Update.callback_none]
        rfl
    · have same := without.live call (by simp [State.calls, writing])
      refine ⟨_, step_call (TwoStep.step_write (same.symm.trans writing)), ?_⟩
      have wrote : Without ids { s with server := s.server.become call .done }
          { t with server := t.server.become call .done } := without.become (.inl rfl)
      exact wrote.write call.id entry

end Without

end Clients

namespace HomeView

/-! ## The list, the gestures and the deletes under way -/

structure State where
  clients : Clients.State
  /-- The published list. -/
  pets : List Pet
  /-- The gestures made so far; each is known by a ticket. -/
  gestures : List Nat
  /-- The deletes a gesture has issued and that have not committed. -/
  deleting : Nat → List DocumentID

inductive Action where
  | client (action : Clients.Action)
  | snapshot (querySnapshot : Option QuerySnapshot)
  | removeItems (ticket : Nat) (offsets : IndexSet)
  | commit (ticket : Nat) (id : DocumentID)

/-- A snapshot lists documents that there are or have been; an error lists none. -/
def listable (used : List DocumentID) : Option QuerySnapshot → Bool
  | some snapshot => snapshot.documents.all fun document => document.documentID ∈ used
  | none => true

def step (s : State) : Action → Option State
  | .client action =>
      match Clients.step s.clients action with
      | none => none
      | some clients => some { s with clients }
  | .snapshot querySnapshot =>
      if listable s.clients.used querySnapshot then
        some { s with pets := PetsViewModel.onSnapshot querySnapshot s.pets }
      else none
  | .removeItems ticket offsets =>
      if ticket ∈ s.gestures then none
      else
        match removeItems s.pets offsets with
        -- the process has stopped
        | (_, some _) => none
        | (ids, none) =>
            some { s with
              gestures := ticket :: s.gestures
              deleting := Function.update s.deleting ticket ids }
  | .commit ticket id =>
      if id ∈ s.deleting ticket then
        some { s with
          clients := s.clients.withPets (Function.update s.clients.pets id none)
          deleting := Function.update s.deleting ticket ((s.deleting ticket).erase id) }
      else none

def initial (uuid : Nat → String) : State where
  clients := Clients.initial uuid
  pets := []
  gestures := []
  deleting _ := []

/-- Everything a step can do. -/
theorem step_cases {s t : State} {a : Action} (taken : step s a = some t) :
    (∃ action clients, a = .client action ∧ Clients.step s.clients action = some clients ∧
      t = { s with clients }) ∨
    (∃ querySnapshot, a = .snapshot querySnapshot ∧ listable s.clients.used querySnapshot ∧
      t = { s with pets := PetsViewModel.onSnapshot querySnapshot s.pets }) ∨
    (∃ ticket offsets ids, a = .removeItems ticket offsets ∧ ticket ∉ s.gestures ∧
      removeItems s.pets offsets = (ids, none) ∧
      t = { s with
        gestures := ticket :: s.gestures, deleting := Function.update s.deleting ticket ids }) ∨
    (∃ ticket id, a = .commit ticket id ∧ id ∈ s.deleting ticket ∧
      t = { s with
        clients := s.clients.withPets (Function.update s.clients.pets id none)
        deleting := Function.update s.deleting ticket ((s.deleting ticket).erase id) }) := by
  cases a with
  | client action =>
      simp only [step] at taken
      split at taken
      · cases taken
      · rename_i clients stepped
        exact .inl ⟨action, clients, rfl, stepped, (Option.some.inj taken).symm⟩
  | snapshot querySnapshot =>
      simp only [step] at taken
      split at taken
      · rename_i may
        exact .inr (.inl ⟨querySnapshot, rfl, may, (Option.some.inj taken).symm⟩)
      · cases taken
  | removeItems ticket offsets =>
      simp only [step] at taken
      split at taken
      · cases taken
      · rename_i fresh
        split at taken
        · cases taken
        · rename_i ids removed
          exact .inr (.inr (.inl ⟨ticket, offsets, ids, rfl, fresh, removed,
            (Option.some.inj taken).symm⟩))
  | commit ticket id =>
      simp only [step] at taken
      split at taken
      · rename_i pending
        exact .inr (.inr (.inr ⟨ticket, id, rfl, pending, (Option.some.inj taken).symm⟩))
      · cases taken

/-- Every row shown has the ID of a document there is or has been. -/
def Shown (s : State) : Prop :=
  ∀ pet ∈ s.pets, ∃ id ∈ s.clients.used, pet.id = some id

theorem decoded_id {documents : List QueryDocumentSnapshot} {pet : Pet}
    (row : pet ∈ PetsViewModel.decoded documents) :
    ∃ document ∈ documents, pet.id = some document.documentID := by
  have listed := (decodable_ids (fun _ _ _ => Pet.decode_documentID) documents).subset
    (List.mem_map_of_mem row)
  obtain ⟨document, member, same⟩ := List.mem_map.mp listed
  exact ⟨document, member, same.symm⟩

theorem step_shown {s t : State} {a : Action} (shown : Shown s) (taken : step s a = some t) :
    Shown t := by
  rcases step_cases taken with ⟨action, clients, rfl, stepped, rfl⟩ | ⟨querySnapshot, rfl, may, rfl⟩ |
      ⟨ticket, offsets, ids, rfl, fresh, removed, rfl⟩ | ⟨ticket, id, rfl, pending, rfl⟩
  · intro pet row
    obtain ⟨id, used, named⟩ := shown pet row
    exact ⟨id, Clients.step_used stepped used, named⟩
  · cases querySnapshot with
    | none => exact shown
    | some snapshot =>
        intro pet row
        obtain ⟨document, member, named⟩ := decoded_id row
        exact ⟨_, of_decide_eq_true (List.all_eq_true.mp may document member), named⟩
  · exact shown
  · exact shown

/-- The gesture's loop deletes IDs of rows shown, and it runs to its end. -/
theorem Shown.removeItems {s : State} (shown : Shown s) {offsets : IndexSet}
    (valid : ∀ index ∈ offsets.indices, index < s.pets.length) :
    ∃ ids, removeItems s.pets offsets = (ids, none) ∧
      ids.map some = (offsets.indices.map fun index => s.pets[index]?.bind Pet.id) ∧
      ∀ id ∈ ids, id ∈ s.clients.used := by
  have identified : Identified s.pets := by
    intro pet row
    obtain ⟨id, -, named⟩ := shown pet row
    rw [named]
    rfl
  obtain ⟨finished, deleted⟩ := removeIndices_ok identified valid
  refine ⟨(removeIndices s.pets offsets.indices).1, ?_, deleted, ?_⟩
  · rw [← finished]
    rfl
  · intro id member
    have chosen : some id ∈ offsets.indices.map fun index => s.pets[index]?.bind Pet.id :=
      deleted ▸ List.mem_map_of_mem member
    obtain ⟨index, -, at_index⟩ := List.mem_map.mp chosen
    obtain ⟨pet, row, named⟩ := Option.bind_eq_some_iff.mp at_index
    obtain ⟨id', used, named'⟩ := shown pet (List.mem_of_getElem? row)
    obtain rfl : id' = id := Option.some.inj (named'.symm.trans named)
    exact used

/-! ## The gesture's own deletes -/

/-- What is left of a gesture: each chosen document is gone or about to be deleted. -/
structure Underway (ticket : Nat) (ids : List DocumentID) (s : State) : Prop where
  made : ticket ∈ s.gestures
  known : ∀ id ∈ ids, id ∈ s.clients.used
  chosen : ∀ id ∈ s.deleting ticket, id ∈ ids
  rest : ∀ id ∈ ids, id ∈ s.deleting ticket ∨ s.clients.pets id = none

theorem step_gone {s t : State} {a : Action} (taken : step s a = some t) {id : DocumentID}
    (used : id ∈ s.clients.used) (gone : s.clients.pets id = none) :
    id ∈ t.clients.used ∧ t.clients.pets id = none := by
  rcases step_cases taken with ⟨action, clients, rfl, stepped, rfl⟩ | ⟨querySnapshot, rfl, may, rfl⟩ |
      ⟨ticket, offsets, ids, rfl, fresh, removed, rfl⟩ | ⟨ticket, deleted, rfl, pending, rfl⟩
  · exact ⟨Clients.step_used stepped used, Clients.step_gone stepped used gone⟩
  · exact ⟨used, gone⟩
  · exact ⟨used, gone⟩
  · refine ⟨used, ?_⟩
    change Function.update s.clients.pets deleted none id = none
    by_cases here : id = deleted
    · rw [here, Function.update_self]
    · rw [Function.update_of_ne here, gone]

theorem run_gone {s t : State} {actions : List Action} (run : Runs step s actions t)
    {id : DocumentID} (used : id ∈ s.clients.used) (gone : s.clients.pets id = none) :
    t.clients.pets id = none :=
  (run.invariant (fun s => id ∈ s.clients.used ∧ s.clients.pets id = none)
    (fun _ _ _ before taken => step_gone taken before.1 before.2) ⟨used, gone⟩).2

theorem step_underway {ticket : Nat} {ids : List DocumentID} {s t : State} {a : Action}
    (underway : Underway ticket ids s) (taken : step s a = some t) : Underway ticket ids t := by
  have stays : ∀ id ∈ ids, s.clients.pets id = none → t.clients.pets id = none :=
    fun id member gone => (step_gone taken (underway.known id member) gone).2
  rcases step_cases taken with ⟨action, clients, rfl, stepped, rfl⟩ | ⟨querySnapshot, rfl, may, rfl⟩ |
      ⟨other, offsets, ids', rfl, fresh, removed, rfl⟩ | ⟨other, id, rfl, pending, rfl⟩
  · exact {
      made := underway.made
      known := fun id member => Clients.step_used stepped (underway.known id member)
      chosen := underway.chosen
      rest := fun id member => (underway.rest id member).imp_right (stays id member) }
  · exact { underway with }
  · have different : ticket ≠ other := fun h => fresh (h ▸ underway.made)
    exact {
      made := List.mem_cons_of_mem _ underway.made
      known := underway.known
      chosen := by
        simp only [Function.update_of_ne different]
        exact underway.chosen
      rest := by
        simp only [Function.update_of_ne different]
        exact underway.rest }
  · by_cases own : ticket = other
    · subst own
      exact {
        made := underway.made
        known := underway.known
        chosen := by
          simp only [Function.update_self]
          exact fun id' member => underway.chosen id' (List.mem_of_mem_erase member)
        rest := by
          simp only [Function.update_self]
          intro id' member
          by_cases here : id' = id
          · exact .inr (by rw [here]; exact Function.update_self ..)
          · rcases underway.rest id' member with waiting | gone
            · exact .inl ((List.mem_erase_of_ne here).mpr waiting)
            · exact .inr (stays id' member gone) }
    · exact {
        made := underway.made
        known := underway.known
        chosen := by
          simp only [Function.update_of_ne own]
          exact underway.chosen
        rest := by
          simp only [Function.update_of_ne own]
          exact fun id' member => (underway.rest id' member).imp_right (stays id' member) }

/-! ## The same run without the gesture -/

/-- Everything but the commits of one gesture. -/
def otherThan (ticket : Nat) : Action → Bool
  | .commit other _ => other ≠ ticket
  | _ => true

/-- The second state is the first one, had the gesture not been made. -/
structure Unmade (ticket : Nat) (ids : List DocumentID) (s t : State) : Prop where
  clients : Clients.Without ids s.clients t.clients
  pets : s.pets = t.pets
  made : ticket ∈ s.gestures
  gestures : ∀ other, other ∈ t.gestures → other ∈ s.gestures
  deleting : ∀ other, other ≠ ticket → s.deleting other = t.deleting other
  chosen : ∀ id ∈ s.deleting ticket, id ∈ ids

theorem gestureErasure (ticket : Nat) (ids : List DocumentID) :
    Erasure step step (otherThan ticket) (Unmade ticket ids) where
  kept s t a s' visible unmade taken := by
    rcases step_cases taken with ⟨action, clients, rfl, stepped, rfl⟩ |
        ⟨querySnapshot, rfl, may, rfl⟩ | ⟨other, offsets, ids', rfl, fresh, removed, rfl⟩ |
        ⟨other, id, rfl, pending, rfl⟩
    · obtain ⟨clients', stepped', without⟩ := unmade.clients.step stepped
      refine ⟨{ t with clients := clients' }, by simp only [step, stepped'], ?_⟩
      exact { unmade with clients := without }
    · rw [unmade.clients.used] at may
      refine ⟨_, by simp only [step, may, if_true]; rfl, ?_⟩
      exact { unmade with pets := by rw [unmade.pets] }
    · have different : ticket ≠ other := fun h => fresh (h ▸ unmade.made)
      have fresh' : other ∉ t.gestures := fun member => fresh (unmade.gestures other member)
      rw [unmade.pets] at removed
      refine ⟨_, by simp only [step, fresh', removed, if_false]; rfl, ?_⟩
      exact { unmade with
        made := List.mem_cons_of_mem _ unmade.made
        gestures := fun gesture member => by
          rcases List.mem_cons.mp member with rfl | before
          · exact List.mem_cons_self
          · exact List.mem_cons_of_mem _ (unmade.gestures gesture before)
        deleting := fun gesture unlike => by
          by_cases here : gesture = other
          · simp only [here, Function.update_self]
          · simp only [Function.update_of_ne here]
            exact unmade.deleting gesture unlike
        chosen := by
          simp only [Function.update_of_ne different]
          exact unmade.chosen }
    · have different : other ≠ ticket := of_decide_eq_true visible
      have pending' : id ∈ t.deleting other := unmade.deleting other different ▸ pending
      refine ⟨_, by simp only [step, pending', if_true]; rfl, ?_⟩
      exact { unmade with
        clients := unmade.clients.delete id
        deleting := fun gesture unlike => by
          by_cases here : gesture = other
          · simp only [here, Function.update_self, unmade.deleting other different]
          · simp only [Function.update_of_ne here]
            exact unmade.deleting gesture unlike
        chosen := by
          simp only [Function.update_of_ne (Ne.symm different)]
          exact unmade.chosen }
  erased s t a s' hidden unmade taken := by
    rcases step_cases taken with ⟨action, clients, rfl, stepped, rfl⟩ |
        ⟨querySnapshot, rfl, may, rfl⟩ | ⟨other, offsets, ids', rfl, fresh, removed, rfl⟩ |
        ⟨other, id, rfl, pending, rfl⟩
    · cases hidden
    · cases hidden
    · cases hidden
    · obtain rfl : other = ticket := by simpa [otherThan] using hidden
      exact { unmade with
        clients := unmade.clients.remove (unmade.chosen id pending)
        deleting := fun gesture unlike => by
          simp only [Function.update_of_ne unlike]
          exact unmade.deleting gesture unlike
        chosen := by
          simp only [Function.update_self]
          exact fun id' member => unmade.chosen id' (List.mem_of_mem_erase member) }

/-- A gesture on valid offsets issues the deletes of the documents shown at these
    offsets. Whatever happens afterwards, it deletes nothing else; each of them is gone
    for good once its delete has committed; and every other document is what it would
    be without the gesture. -/
theorem removeItems_exact {uuid : Nat → String} {before : List Action} {s : State}
    {ticket : Nat} {offsets : IndexSet} (run : Runs step (initial uuid) before s)
    (fresh : ticket ∉ s.gestures) (valid : ∀ index ∈ offsets.indices, index < s.pets.length) :
    ∃ ids t, step s (.removeItems ticket offsets) = some t ∧ t.deleting ticket = ids ∧
      ids.map some = (offsets.indices.map fun index => s.pets[index]?.bind Pet.id) ∧
      ∀ after u, Runs step t after u →
        (∀ id, .commit ticket id ∈ after → id ∈ ids ∧ u.clients.pets id = none) ∧
        (u.deleting ticket = [] → ∀ id ∈ ids, u.clients.pets id = none) ∧
        ∃ u', Runs step s (after.filter (otherThan ticket)) u' ∧
          ∀ id, id ∉ ids → u.clients.pets id = u'.clients.pets id := by
  have shown : Shown s :=
    run.invariant Shown (fun _ _ _ => step_shown) fun _ row => absurd row List.not_mem_nil
  obtain ⟨ids, removed, deleted, known⟩ := shown.removeItems valid
  refine ⟨ids, _, by simp only [step, fresh, removed, if_false]; rfl, Function.update_self ..,
    deleted, ?_⟩
  intro after u later
  have underway : Underway ticket ids { s with
      gestures := ticket :: s.gestures, deleting := Function.update s.deleting ticket ids } := {
    made := List.mem_cons_self
    known
    chosen := by simp only [Function.update_self, imp_self, implies_true]
    rest := by simp only [Function.update_self]; exact fun id member => .inl member }
  have start : Unmade ticket ids { s with
      gestures := ticket :: s.gestures, deleting := Function.update s.deleting ticket ids } s := {
    clients := .refl known
    pets := rfl
    made := List.mem_cons_self
    gestures := fun _ member => List.mem_cons_of_mem _ member
    deleting := fun _ unlike => Function.update_of_ne unlike ..
    chosen := underway.chosen }
  refine ⟨?_, ?_, ?_⟩
  · intro id committed
    obtain ⟨pre, post, rfl⟩ := List.append_of_mem committed
    obtain ⟨v, first, second⟩ := later.split
    have midway : Underway ticket ids v :=
      first.invariant (Underway ticket ids) (fun _ _ _ => step_underway) underway
    cases second with
    | next taken rest =>
        rcases step_cases taken with ⟨_, _, wrong, -⟩ | ⟨_, wrong, -⟩ | ⟨_, _, _, wrong, -⟩ |
            ⟨_, _, same, pending, rfl⟩
        · cases wrong
        · cases wrong
        · cases wrong
        · cases same
          have member := midway.chosen id pending
          exact ⟨member, run_gone rest (midway.known id member) (Function.update_self ..)⟩
  · intro none_left id member
    have final : Underway ticket ids u :=
      later.invariant (Underway ticket ids) (fun _ _ _ => step_underway) underway
    rcases final.rest id member with waiting | gone
    · rw [none_left] at waiting
      cases waiting
    · exact gone
  · obtain ⟨u', erased, unmade⟩ := (gestureErasure ticket ids).run later start
    refine ⟨u', erased, fun id unchosen => ?_⟩
    rcases unmade.clients.pets id with same | ⟨member, -⟩
    · exact same
    · exact absurd member unchosen

private def row (id name : String) : QueryDocumentSnapshot where
  documentID := id
  data := Pet.encode { id := none, name, breakfast := false, dinner := false, treats := 0 }

/-- Three pets are added and listed. -/
private def threeListed : List Action :=
  [.client (.edit 0 "Koda"), .client (.submit 0 "koda"), .client (.edit 1 "Teddy"),
    .client (.submit 1 "teddy"), .client (.edit 2 "Biscuit"), .client (.submit 2 "biscuit"),
    .snapshot (some ⟨[row "biscuit" "Biscuit", row "koda" "Koda", row "teddy" "Teddy"], by decide⟩)]

private def firstAndLast : IndexSet := ⟨[0, 2], by decide⟩

/-- The deletes of the first and the last row commit around a snapshot and around a
    treat for the last one that was already under way. -/
private def committed : List Action :=
  let up : Call := ⟨0, "teddy", .updateTreatsUp⟩
  [.client (.call (.start up)), .client (.call (.read up)), .commit 7 "biscuit",
    .snapshot (some ⟨[row "koda" "Koda", row "teddy" "Teddy"], by decide⟩), .commit 7 "teddy",
    .client (.call (.write up))]

private def listed : State :=
  (replay step (initial toString) threeListed).get rfl

private def swiped : State :=
  (step listed (.removeItems 7 firstAndLast)).get rfl

theorem removeItems_exact_first_and_last :
    Runs step (initial toString) threeListed listed ∧
      step listed (.removeItems 7 firstAndLast) = some swiped ∧
      ∃ u, Runs step swiped committed u ∧
        (∀ id ∈ ["biscuit", "teddy"], u.clients.pets id = none) ∧ u.clients.pets "koda" ≠ none := by
  have run : Runs step (initial toString) threeListed listed := Runs.of_isSome rfl
  have fresh : 7 ∉ listed.gestures := List.not_mem_nil
  have valid : ∀ index ∈ firstAndLast.indices, index < listed.pets.length := by decide
  obtain ⟨ids, t, taken, pending, -, rest⟩ := removeItems_exact run fresh valid
  obtain rfl : swiped = t := Option.some.inj ((Option.some_get rfl).trans taken)
  subst pending
  have later : Runs step swiped committed _ := Runs.of_isSome rfl
  exact ⟨run, taken, _, later, (rest committed _ later).2.1 rfl, by decide⟩

end HomeView

end DogFoodTracker
