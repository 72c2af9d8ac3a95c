import DogFoodTracker.Firestore.Query
import DogFoodTracker.Pets.Cards
import DogFoodTracker.Pets.Roster
import DogFoodTracker.Pets.TreatsBounds
import DogFoodTracker.Transition.Projection

/-! # All screens on one collection

The collection changes under any number of clients; snapshots of it are made now and
then; the listeners of every view model are given them at their own pace; a view is
rendered some time after its view model's list has changed; and a tap goes to the row
that is on the screen by then. A screen may thus be several changes behind. Still each
row is about a pet that really was in the collection, under the name it has for as long
as it exists.
-/

namespace DogFoodTracker.Screens

open Firestore Transition

variable {Reader : Type}

structure State (Reader : Type) where
  /-- The collection, its clients, and the writes they have issued. -/
  server : Clients.Stale.State
  /-- The snapshots, and what every view model publishes. -/
  feeds : Feeds.State Reader QuerySnapshot (List Pet)
  /-- The rows on the screen of every view model's view. -/
  rows : Reader → KeyedRows.State Pet Pet Pet

inductive Action (Reader : Type) where
  | client (action : Clients.Action)
  | snapshot
  | listen (reader : Reader)
  | deliver (reader : Reader) (listener position : Nat)
  | error (reader : Reader) (listener : Nat)
  | render (reader : Reader)
  | onTapGesture (reader : Reader) (position : Nat) (update : Update) (ticket : Nat)

namespace State

def pets (s : State Reader) : Collection :=
  s.server.clients.pets

/-- A snapshot of the collection as it is. -/
def now (s : State Reader) : QuerySnapshot :=
  s.pets.snapshot s.server.clients.used

def published (s : State Reader) (reader : Reader) : List Pet :=
  (s.feeds.readers reader).published

def client (s : State Reader) (action : Clients.Action) : Option (State Reader) :=
  match Clients.Stale.step s.server (.act action) with
  | none => none
  | some server => some { s with server }

end State

/-- Nothing stored, no listener registered, and empty screens. -/
def initial (uuid : Nat → String) : State Reader where
  server := Clients.Stale.initial uuid
  feeds := { history := [], readers := fun _ => { published := [], listeners := [] } }
  rows _ := KeyedRows.empty

theorem client_inv {s t : State Reader} {action : Clients.Action}
    (taken : s.client action = some t) :
    ∃ server, Clients.Stale.step s.server (.act action) = some server ∧ t = { s with server } := by
  simp only [State.client] at taken
  split at taken <;> cases taken
  exact ⟨_, ‹_›, rfl⟩

/-! ## What the server knows of a listed document -/

/-- The document is a whole pet; its ID is taken for good; if it is still there it has
    the same name; and its treats are within the up-taps there have been. -/
structure Known (server : Clients.Stale.State) (document : QueryDocumentSnapshot) : Prop where
  whole : Clients.PetDocument document.data
  used : document.documentID ∈ server.clients.used
  name : ∀ stored, server.clients.pets document.documentID = some stored →
    stored "name" = document.data "name"
  treats : ∃ value, document.data "treats" = some value ∧
    Clients.Stale.Within (Clients.Stale.ups document.documentID server.issued) value

theorem stale_act {server server' : Clients.Stale.State} {action : Clients.Action}
    (taken : Clients.Stale.step server (.act action) = some server') :
    Clients.step server.clients action = some server'.clients ∧
      server'.issued = Clients.Stale.issuedBy server.clients action ++ server.issued := by
  simp only [Clients.Stale.step] at taken
  split at taken <;> cases taken
  exact ⟨‹_›, rfl⟩

/-- A name stays with its ID. -/
theorem Known.act {server server' : Clients.Stale.State} {action : Clients.Action}
    {document : QueryDocumentSnapshot} (schema : Clients.Schema server.clients)
    (known : Known server document)
    (taken : Clients.Stale.step server (.act action) = some server') : Known server' document := by
  obtain ⟨stepped, issued⟩ := stale_act taken
  refine ⟨known.whole, Clients.step_used stepped known.used, ?_, ?_⟩
  · intro stored found
    have kept : ∀ id stored, server'.clients.pets id = some stored →
        id = document.documentID → stored "name" = document.data "name" := by
      apply Clients.step_documents
        (P := fun id stored => id = document.documentID → stored "name" = document.data "name") stepped
      · rintro id stored found rfl
        exact known.name stored found
      · rintro form id added view rfl fresh submitted rfl
        exact absurd known.used fresh
      · rintro call entry stored rfl writing before same
        have other : "name" ≠ entry.1 := by
          cases schema.pending call entry writing <;> simp
        rw [Function.update_of_ne other]
        exact before same
    exact kept _ stored found rfl
  · obtain ⟨value, has, within⟩ := known.treats
    rw [issued]
    exact ⟨value, has, within.mono (Clients.Stale.ups_le_append _ _ _)⟩

/-- What the server has now, it knows. -/
theorem known_now {server : Clients.Stale.State} (schema : Clients.Schema server.clients)
    (bounded : Clients.Stale.Bounded server) {document : QueryDocumentSnapshot}
    (member : document ∈ (server.clients.pets.snapshot server.clients.used).documents) :
    Known server document := by
  obtain ⟨used, stored⟩ := Collection.mem_snapshot.mp member
  refine ⟨schema.documents _ _ stored, used, ?_, bounded.stored _ _ stored⟩
  intro again found
  rw [stored] at found
  rw [Option.some.inj found]

/-! ## The invariant of all screens -/

/-- A list made of one of the snapshots, or of none yet. -/
def Listed (history : List QuerySnapshot) (pets : List Pet) : Prop :=
  pets = [] ∨ ∃ version ∈ history, pets = PetsViewModel.decoded version.documents

theorem Listed.grow {history later : List QuerySnapshot} {pets : List Pet}
    (listed : Listed history pets) (grown : history ⊆ later) : Listed later pets := by
  rcases listed with none | ⟨version, member, same⟩
  · exact .inl none
  · exact .inr ⟨version, grown member, same⟩

/-- What a view model publishes comes from one of its versions. -/
theorem listed_of_current {history : List QuerySnapshot} {reading : Feeds.Reading (List Pet)}
    (current : Feeds.Current (fun version : QuerySnapshot => PetsViewModel.decoded version.documents)
      [] history reading) : Listed history reading.published := by
  cases current with
  | waiting nothing same => exact .inl same
  | standing position version stands recorded same =>
      exact .inr ⟨version, List.mem_of_getElem? recorded, same⟩

structure Inv (s : State Reader) : Prop where
  schema : Clients.Schema s.server.clients
  accounted : Clients.Accounted s.server.clients
  bounded : Clients.Stale.Bounded s.server
  known : ∀ version ∈ s.feeds.history, ∀ document ∈ version.documents, Known s.server document
  current : ∀ reader, Feeds.Current
    (fun version : QuerySnapshot => PetsViewModel.decoded version.documents) [] s.feeds.history
    (s.feeds.readers reader)
  listed : ∀ reader, Listed s.feeds.history (s.rows reader).elements
  fresh : ∀ reader, KeyedRows.Fresh HomeView.forEach (s.rows reader)

theorem initial_inv (uuid : Nat → String) : Inv (initial uuid : State Reader) where
  schema := Clients.initial_schema uuid
  accounted := (Clients.initial_quiet uuid).used
  bounded := Clients.Stale.initial_bounded uuid
  known _ member := nomatch member
  current _ := .waiting (by simp [initial]) rfl
  listed _ := .inl rfl
  fresh _ := KeyedRows.empty_fresh

/-- A step of the clients. -/
theorem Inv.client {s : State Reader} (inv : Inv s) {action : Clients.Action}
    {server : Clients.Stale.State}
    (stepped : Clients.Stale.step s.server (.act action) = some server) :
    Inv { s with server } := by
  have onClients := (stale_act stepped).1
  exact { inv with
    schema := Clients.step_schema inv.schema onClients
    accounted := Clients.step_accounted inv.accounted onClients
    bounded := Clients.Stale.step_bounded inv.bounded stepped
    known := fun version member document listed =>
      (inv.known version member document listed).act inv.schema stepped }

/-! ## A row and its pet -/

/-- What a row is about. -/
structure About (s : State Reader) (pet : Pet) (id : DocumentID) : Prop where
  own : pet.id = some id
  used : id ∈ s.server.clients.used
  named : pet.name ≠ ""
  name : ∀ stored, s.pets id = some stored → stored "name" = some (.string pet.name)
  treats : 0 ≤ pet.treats.toInt ∧ pet.treats.toInt ≤ Clients.Stale.ups id s.server.issued

theorem Known.about {s : State Reader} {document : QueryDocumentSnapshot} {pet : Pet}
    (known : Known s.server document) (row : Clients.RowOf document pet) :
    About s pet document.documentID where
  own := row.id
  used := known.used
  named := by
    obtain ⟨name, has, named⟩ := known.whole.name
    have same : name = pet.name := by simpa using has.symm.trans row.name
    exact same ▸ named
  name stored found := (known.name stored found).trans row.name
  treats := by
    obtain ⟨value, has, treats, rfl, lower, upper⟩ := known.treats
    have same : treats = pet.treats := by simpa using has.symm.trans row.treats
    subst same
    exact ⟨lower, upper⟩

/-- The pets of a list made of a snapshot are about documents the server knows. -/
theorem Inv.documented {s : State Reader} (inv : Inv s) {pets : List Pet}
    (listed : Listed s.feeds.history pets) {pet : Pet} (member : pet ∈ pets) :
    ∃ document, Known s.server document ∧ Clients.RowOf document pet := by
  rcases listed with rfl | ⟨version, recorded, rfl⟩
  · cases member
  · have rows := Clients.decoded_rows fun document listed =>
      (inv.known version recorded document listed).whole
    obtain ⟨position, inside, rfl⟩ := List.getElem_of_mem member
    have inside' : position < version.documents.length := rows.length_eq ▸ inside
    exact ⟨version.documents[position],
      inv.known version recorded _ (List.getElem_mem inside'), rows.get inside' inside⟩

theorem row_element {s : State Reader} (inv : Inv s) {reader : Reader} {position : Nat}
    {row : KeyedRows.Row Pet Pet} (shown : (s.rows reader).rows[position]? = some row) :
    row.state ∈ (s.rows reader).elements := by
  rw [inv.fresh reader, List.getElem?_map, Option.map_eq_some_iff] at shown
  obtain ⟨pet, found, rfl⟩ := shown
  exact List.mem_of_getElem? found

/-! ## Steps -/

section Steps

variable [DecidableEq Reader]

namespace State

def feed (s : State Reader) (action : Feeds.Action Reader QuerySnapshot) : Option (State Reader) :=
  match Feeds.step PetsViewModel.onSnapshot s.feeds action with
  | none => none
  | some feeds => some { s with feeds }

def setRows (s : State Reader) (reader : Reader) (action : KeyedRows.Action Pet Update) :
    Option (State Reader) :=
  match KeyedRows.step HomeView.forEach (s.rows reader) action with
  | none => none
  | some rows => some { s with rows := Function.update s.rows reader rows }

end State

def step (s : State Reader) : Action Reader → Option (State Reader)
  | .client action => s.client action
  | .snapshot => s.feed (.change s.now)
  | .listen reader => s.feed (.listen reader)
  | .deliver reader listener position => s.feed (.deliver reader listener position)
  | .error reader listener => s.feed (.error reader listener)
  | .render reader => s.setRows reader (.deliver (s.published reader))
  | .onTapGesture reader position update ticket =>
      match (s.rows reader).rows[position]? with
      | none => none
      | some row =>
          match (CardView.onTapGesture update row.state).2 with
          -- the process has stopped
          | .error _ => none
          | .ok id =>
              match s.setRows reader (.act position update) with
              | none => none
              | some s => s.client (.call (.start { ticket, id, update }))

/-- Everything a step can do. -/
inductive Step (s : State Reader) : Action Reader → State Reader → Prop where
  | client (action : Clients.Action) (server : Clients.Stale.State)
      (stepped : Clients.Stale.step s.server (.act action) = some server) :
      Step s (.client action) { s with server }
  | feed (a : Action Reader) (other : ∀ action, a ≠ .client action)
      (action : Feeds.Action Reader QuerySnapshot)
      (feeds : Feeds.State Reader QuerySnapshot (List Pet))
      (now : ∀ version, action = .change version → version = s.now)
      (stepped : Feeds.step PetsViewModel.onSnapshot s.feeds action = some feeds) :
      Step s a { s with feeds }
  | render (reader : Reader) (rows : KeyedRows.State Pet Pet Pet)
      (stepped : KeyedRows.step HomeView.forEach (s.rows reader)
        (.deliver (s.published reader)) = some rows) :
      Step s (.render reader) { s with rows := Function.update s.rows reader rows }
  | onTapGesture (reader : Reader) (position ticket : Nat) (update : Update)
      (rows : KeyedRows.State Pet Pet Pet) (call : Call) (server : Clients.Stale.State)
      (tapped : KeyedRows.step HomeView.forEach (s.rows reader) (.act position update) = some rows)
      (started : Clients.Stale.step s.server (.act (.call (.start call))) = some server) :
      Step s (.onTapGesture reader position update ticket)
        { s with server, rows := Function.update s.rows reader rows }

theorem feed_inv {s t : State Reader} {action : Feeds.Action Reader QuerySnapshot}
    (taken : s.feed action = some t) :
    ∃ feeds, Feeds.step PetsViewModel.onSnapshot s.feeds action = some feeds ∧
      t = { s with feeds } := by
  simp only [State.feed] at taken
  split at taken <;> cases taken
  exact ⟨_, ‹_›, rfl⟩

theorem setRows_inv {s t : State Reader} {reader : Reader} {action : KeyedRows.Action Pet Update}
    (taken : s.setRows reader action = some t) :
    ∃ rows, KeyedRows.step HomeView.forEach (s.rows reader) action = some rows ∧
      t = { s with rows := Function.update s.rows reader rows } := by
  simp only [State.setRows] at taken
  split at taken <;> cases taken
  exact ⟨_, ‹_›, rfl⟩

theorem step_inv {s t : State Reader} {a : Action Reader} (taken : step s a = some t) :
    Step s a t := by
  unfold step at taken
  cases a with
  | client action =>
      obtain ⟨server, stepped, rfl⟩ := client_inv taken
      exact .client action server stepped
  | snapshot =>
      obtain ⟨feeds, stepped, rfl⟩ := feed_inv taken
      exact .feed _ (by simp) _ feeds (fun _ same => (Feeds.Action.change.inj same).symm) stepped
  | listen | deliver | error =>
      obtain ⟨feeds, stepped, rfl⟩ := feed_inv taken
      exact .feed _ (by simp) _ feeds (by simp) stepped
  | render reader =>
      obtain ⟨rows, stepped, rfl⟩ := setRows_inv taken
      exact .render reader rows stepped
  | onTapGesture reader position update ticket =>
      simp only at taken
      split at taken
      · cases taken
      · split at taken
        · cases taken
        · split at taken
          · cases taken
          · rename_i rendered
            obtain ⟨rows, tapped, rfl⟩ := setRows_inv rendered
            obtain ⟨server, started, rfl⟩ := client_inv taken
            exact .onTapGesture reader position ticket update rows _ server tapped started

/-- A step of the feeds, whose new version is a snapshot of now. -/
theorem Inv.feed {s : State Reader} (inv : Inv s) {action : Feeds.Action Reader QuerySnapshot}
    {feeds : Feeds.State Reader QuerySnapshot (List Pet)}
    (now : ∀ version, action = .change version → version = s.now)
    (stepped : Feeds.step PetsViewModel.onSnapshot s.feeds action = some feeds) :
    Inv { s with feeds } := by
  have grown : s.feeds.history ⊆ feeds.history := by
    rcases Feeds.step_history stepped with same | ⟨version, -, same⟩ <;> rw [same]
    · exact List.Subset.refl _
    · exact List.subset_append_left _ _
  refine { inv with known := ?_, current := ?_, listed := fun reader => (inv.listed reader).grow grown }
  · intro version member document listed
    rcases Feeds.step_history stepped with same | ⟨new, changed, same⟩ <;> rw [same] at member
    · exact inv.known version member document listed
    · rcases List.mem_append.mp member with old | last
      · exact inv.known version old document listed
      · obtain rfl := List.mem_singleton.mp last
        rw [now version changed] at listed
        exact known_now inv.schema inv.bounded listed
  · exact Feeds.step_current (fun _ _ => rfl) (fun _ => rfl) inv.current stepped

/-- A view is rendered, or one of its rows handles a tap. -/
theorem Inv.setRows {s : State Reader} (inv : Inv s) {reader : Reader}
    {action : KeyedRows.Action Pet Update} {rows : KeyedRows.State Pet Pet Pet}
    (delivered : ∀ pets, action = .deliver pets → Listed s.feeds.history pets)
    (stepped : KeyedRows.step HomeView.forEach (s.rows reader) action = some rows) :
    Inv { s with rows := Function.update s.rows reader rows } := by
  have listed : Listed s.feeds.history rows.elements := by
    cases action with
    | deliver pets =>
        cases stepped
        exact delivered pets rfl
    | act position update =>
        simp only [KeyedRows.step] at stepped
        split at stepped <;> cases stepped
        exact inv.listed reader
  exact { inv with
    listed := (Function.forall_update_iff s.rows fun _ rows =>
      Listed s.feeds.history rows.elements).mpr ⟨listed, fun other _ => inv.listed other⟩
    fresh := (Function.forall_update_iff s.rows fun _ rows =>
      KeyedRows.Fresh HomeView.forEach rows).mpr
        ⟨KeyedRows.step_fresh HomeView.forEach_pure (inv.fresh reader) stepped,
          fun other _ => inv.fresh other⟩ }

theorem step_keeps {s t : State Reader} {a : Action Reader} (inv : Inv s)
    (taken : step s a = some t) : Inv t := by
  cases step_inv taken with
  | client action server stepped => exact inv.client stepped
  | feed _ other action feeds now stepped => exact inv.feed now stepped
  | render reader rows stepped =>
      apply inv.setRows _ stepped
      rintro _ ⟨⟩
      exact listed_of_current (inv.current reader)
  | onTapGesture reader position ticket update rows call server tapped started =>
      exact (inv.setRows (by simp) tapped).client started

theorem run_inv {uuid : Nat → String} {actions : List (Action Reader)} {s : State Reader}
    (run : Runs step (initial uuid) actions s) : Inv s :=
  run.invariant Inv (fun _ _ _ => step_keeps) (initial_inv uuid)

/-- The server keeps knowing what it knows. -/
theorem run_known {s t : State Reader} {actions : List (Action Reader)} (inv : Inv s)
    (run : Runs step s actions t) {document : QueryDocumentSnapshot}
    (known : Known s.server document) : Known t.server document := by
  have both : Inv t ∧ Known t.server document := by
    refine run.invariant (fun s => Inv s ∧ Known s.server document) ?_ ⟨inv, known⟩
    rintro s a t ⟨inv, known⟩ taken
    refine ⟨step_keeps inv taken, ?_⟩
    cases step_inv taken with
    | client action server stepped => exact known.act inv.schema stepped
    | feed | render => exact known
    | onTapGesture reader position ticket update rows call server tapped started =>
        exact known.act inv.schema started
  exact both.2

/-- A tap leaves the rows as they are and starts its call. -/
theorem step_tap {s : State Reader} {reader : Reader} {position ticket : Nat}
    {row : KeyedRows.Row Pet Pet} {update : Update} {id : DocumentID}
    (shown : (s.rows reader).rows[position]? = some row) (own : row.state.unwrapID = .ok id)
    (idle : s.server.clients.calls { ticket, id, update } = .idle) :
    step s (.onTapGesture reader position update ticket) = some { s with
      server := { s.server with
        clients := { s.server.clients with
          server := s.server.clients.server.become { ticket, id, update } .reading } } } := by
  have inside : position < (s.rows reader).rows.length := (List.getElem?_eq_some_iff.mp shown).1
  have same : s.setRows reader (.act position update) = some s := by
    simp only [State.setRows, KeyedRows.step_act HomeView.forEach_pure inside,
      Function.update_eq_self]
  have started : TwoStep.step updates s.server.clients.server (.start { ticket, id, update }) =
      some (s.server.clients.server.become { ticket, id, update } .reading) := by
    have phase : s.server.clients.server.phase { ticket, id, update } = .idle := idle
    simp only [TwoStep.step, phase]
  simp only [step, shown, CardView.onTapGesture, own, same, State.client, Clients.Stale.step,
    Clients.step_call started, Clients.Stale.issuedBy, List.nil_append]

/-- However far a screen is behind, each of its rows is about one pet: now and ever after,
    what is stored under the row's ID has the row's name; the treats shown are between
    zero and the pet's up-taps; and a tap on the row starts its update under that ID,
    changing nothing that is stored or shown. -/
theorem rows_about {uuid : Nat → String} {actions : List (Action Reader)} {s : State Reader}
    (run : Runs step (initial uuid) actions s) (reader : Reader) (position : Nat)
    {row : KeyedRows.Row Pet Pet} (shown : (s.rows reader).rows[position]? = some row) :
    ∃ id, (∀ later t, Runs step s later t → About t row.state id) ∧
      ∀ update ticket, s.server.clients.calls { ticket, id, update } = .idle →
        ∃ t, step s (.onTapGesture reader position update ticket) = some t ∧
          t.server.clients.calls { ticket, id, update } = .reading ∧
          t.pets = s.pets ∧ t.rows = s.rows := by
  have inv := run_inv run
  obtain ⟨document, known, rowOf⟩ := inv.documented (inv.listed reader) (row_element inv shown)
  refine ⟨document.documentID, ?_, ?_⟩
  · intro later t onward
    exact (run_known inv onward known).about rowOf
  · intro update ticket idle
    have unwrapped : row.state.unwrapID = .ok document.documentID := by
      simp only [Pet.unwrapID, rowOf.id]
    refine ⟨_, step_tap shown unwrapped idle, ?_, rfl, rfl⟩
    exact TwoStep.State.become_self ..

/-- Koda is on the screen with no treat while another client has just given one. -/
private def treatBehindTheScreen : List (Action Unit) :=
  let up : Call := ⟨0, "koda", .updateTreatsUp⟩
  [.client (.edit 0 "Koda"), .client (.submit 0 "koda"), .listen (), .snapshot, .deliver () 0 0,
    .render (), .client (.call (.start up)), .client (.call (.read up)),
    .client (.call (.write up))]

theorem rows_about_treat_behind :
    ∃ s row, Runs step (initial toString) treatBehindTheScreen s ∧
      (s.rows ()).rows[0]? = some row ∧ row.state.treats = 0 ∧
      (s.pets "koda").map (· "treats") = some (some (.integer 1)) ∧
      ∃ id, About s row.state id := by
  have run : Runs step (initial toString) treatBehindTheScreen _ := Runs.of_isSome rfl
  obtain ⟨id, about, -⟩ := rows_about run () 0 rfl
  exact ⟨_, _, run, rfl, rfl, rfl, id, about [] _ .done⟩

end Steps

end DogFoodTracker.Screens
