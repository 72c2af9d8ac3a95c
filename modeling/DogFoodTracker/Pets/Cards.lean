import DogFoodTracker.Pets.Schema
import DogFoodTracker.Transition.KeyedRows

/-! # Cards are never stale

`CardView` copies its pet into `@State` once, when its row is made. The rows are known
by the whole pet, so a pet that changes gets a new row, and the tap handlers leave the
copy alone. Every card therefore shows the pet that stands at its position.
-/

namespace DogFoodTracker.HomeView

open Firestore Transition

/-- `ForEach(petViewModel.pets, id: \.self) { pet in CardView(pet: pet) }`. -/
def forEach : KeyedRows.View Pet Pet Pet Update where
  identity pet := pet
  initial pet := pet
  handle update pet := (CardView.onTapGesture update pet).1

/-- What is on the screen, from top to bottom. -/
def cards (s : KeyedRows.State Pet Pet Pet) : List CardView.Card :=
  s.rows.map fun row => CardView.body row.state

/-- A card shows what its document stores. -/
structure Displays (document : QueryDocumentSnapshot) (card : CardView.Card) : Prop where
  name : document.data "name" = some (.string card.name)
  breakfast : ∀ checked, document.data "breakfast" = some (.boolean checked) ↔
    card.breakfast = CardView.checkmark checked
  dinner : ∀ checked, document.data "dinner" = some (.boolean checked) ↔
    card.dinner = CardView.checkmark checked
  treats : ∃ treats, document.data "treats" = some (.integer treats) ∧
    card.treats = toString treats

theorem forEach_pure : forEach.Pure where
  handle _ _ := rfl
  initial _ _ same := same

theorem checkmark_stored {value : Option Value} {checked : Bool}
    (stored : value = some (.boolean checked)) (other : Bool) :
    value = some (.boolean other) ↔ CardView.checkmark checked = CardView.checkmark other := by
  rw [stored]
  constructor
  · intro same
    cases same
    rfl
  · intro same
    rw [CardView.checkmark_injective same]

theorem displays_body {document : QueryDocumentSnapshot} {pet : Pet}
    (row : Clients.RowOf document pet) : Displays document (CardView.body pet) where
  name := row.name
  breakfast := checkmark_stored row.breakfast
  dinner := checkmark_stored row.dinner
  treats := ⟨pet.treats, row.treats, rfl⟩

/-- After any sequence of lists and taps, the cards are those of the pets listed last,
    in order; no two rows share an identity; and where the list was decoded from whole
    pet documents, each card shows the document at its position. -/
theorem cards_fresh {events : List (KeyedRows.Action Pet Update)}
    {t : KeyedRows.State Pet Pet Pet} (run : Runs (KeyedRows.step forEach) KeyedRows.empty events t)
    (distinct : ∀ pets, .deliver pets ∈ events → (pets.map Pet.id).Nodup) :
    cards t = t.elements.map CardView.body ∧
    (t.rows.map KeyedRows.Row.identity).Nodup ∧
    ∀ documents, (∀ document ∈ documents, Clients.PetDocument document.data) →
      t.elements = PetsViewModel.decoded documents → List.Forall₂ Displays documents (cards t) := by
  have fresh : t.rows = t.elements.map fun pet => { identity := pet, state := pet } :=
    KeyedRows.run_fresh forEach_pure run
  have shown : cards t = t.elements.map CardView.body := by
    rw [cards, fresh, List.map_map]
    rfl
  refine ⟨shown, ?_, ?_⟩
  · have ids : (t.elements.map Pet.id).Nodup :=
      KeyedRows.run_elements (fun pets => (pets.map Pet.id).Nodup) run List.nodup_nil distinct
    have identities : t.rows.map KeyedRows.Row.identity = t.elements := by
      rw [fresh, List.map_map]
      exact List.map_id' _
    rw [identities]
    exact ids.of_map
  · intro documents whole decoded
    rw [shown, decoded, List.forall₂_map_right_iff]
    exact (Clients.decoded_rows whole).imp fun _ _ => displays_body

/-- Koda gets a treat, and the two rows change places. -/
private def treatAndReorder : List (KeyedRows.Action Pet Update) :=
  let koda : Pet := ⟨some "koda", "Koda", false, false, 0⟩
  let teddy : Pet := ⟨some "teddy", "Teddy", true, false, 2⟩
  [.deliver [koda, teddy], .act 0 .updateTreatsUp, .deliver [teddy, { koda with treats := 1 }]]

theorem cards_fresh_treat_and_reorder :
    ∃ t, Runs (KeyedRows.step forEach) KeyedRows.empty treatAndReorder t ∧
      (cards t).map CardView.Card.treats = ["2", "1"] := by
  have run : Runs (KeyedRows.step forEach) KeyedRows.empty treatAndReorder _ := Runs.of_isSome rfl
  have distinct : ∀ pets, KeyedRows.Action.deliver pets ∈ treatAndReorder →
      (pets.map Pet.id).Nodup := by
    intro pets member
    simp only [treatAndReorder, List.mem_cons, List.not_mem_nil, or_false, reduceCtorEq, false_or,
      KeyedRows.Action.deliver.injEq] at member
    rcases member with rfl | rfl <;> decide
  obtain ⟨shown, -, -⟩ := cards_fresh run distinct
  exact ⟨_, run, shown ▸ rfl⟩

end DogFoodTracker.HomeView
