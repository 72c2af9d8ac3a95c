import DogFoodTracker.Pets.FieldIsolation
import Mathlib.Data.List.Count
import Mathlib.Logic.Function.Iterate

/-! # Lost updates

Nothing makes the callback and the write of an update atomic. Two taps on the same
field whose callbacks both run before either write count once. Where no callback reads
a field that another call is about to write, the calls behave as if made one at a time.
-/

namespace DogFoodTracker.Clients

open Firestore Transition

/-- Two calls contend for one field of one pet. -/
def Contend (call other : Call) : Prop :=
  About call.id call.field other

theorem updates_independent : TwoStep.Independent updates Contend where
  symm _ _ contend := ⟨contend.1.symm, contend.2.symm⟩
  look call other entry pets apart writes := by
    have own : entry.1 = other.field := other.update.callback_field writes
    apply call.update.callback_congr
    apply Collection.fieldOf_updateData
    rintro ⟨samePet, sameField⟩
    exact apart ⟨samePet.symm, (sameField.trans own).symm⟩

/-- A schedule of calls is a run of the server alone. -/
theorem calls_run {s t : State} {schedule : List (TwoStep.Action Call)}
    (run : Runs step s (schedule.map .call) t) :
    Runs (TwoStep.step updates) s.server schedule t.server := by
  induction schedule generalizing s with
  | nil =>
      cases run
      exact .done
  | cons action rest ih =>
      cases run with
      | next taken later =>
          rcases step_cases taken with ⟨_, _, wrong, -⟩ | ⟨_, _, _, _, wrong, -⟩ | ⟨_, _, wrong, -⟩ |
              ⟨_, wrong, -⟩ | ⟨_, server, same, stepped, rfl⟩
          · cases wrong
          · cases wrong
          · cases wrong
          · cases wrong
          · cases same
            exact .next stepped (ih later)

/-! ## One call at a time -/

/-- A call made alone leaves the other fields and the other pets as they are. -/
theorem atomic_elsewhere {pets pets' : Collection} {call : Call} {id : DocumentID} {field : String}
    (elsewhere : ¬ About id field call) (alone : TwoStep.atomic updates pets call = some pets') :
    pets'.fieldOf id field = pets.fieldOf id field := by
  simp only [TwoStep.atomic] at alone
  split at alone
  · cases alone
    rfl
  · rename_i entry writes
    cases alone
    have own : entry.1 = call.field := call.update.callback_field writes
    apply Collection.fieldOf_updateData
    rintro ⟨samePet, sameField⟩
    exact elsewhere ⟨samePet.symm, (sameField.trans own).symm⟩
  · cases alone

/-- A call made alone on a stored value writes what its update computes from it. -/
theorem atomic_about {α : Type} {pets pets' : Collection} {call : Call} {id : DocumentID}
    {field : String} {cast : Option Value → Except Trap α} {compute : α → Except Trap α}
    {pack : α → Value} {value : Value} {curr : α}
    (update : call.update.callback =
      PetViewModel.update field cast compute fun curr => (field, pack curr))
    (here : call.id = id) (stored : pets.fieldOf id field = some (some value))
    (casted : cast (some value) = .ok curr)
    (alone : TwoStep.atomic updates pets call = some pets') :
    ∃ next, compute curr = .ok next ∧ pets'.fieldOf id field = some (some (pack next)) := by
  obtain ⟨document, found, holds⟩ := Option.map_eq_some_iff.mp stored
  have looked : updates.look call pets =
      PetViewModel.update field cast compute (fun curr => (field, pack curr)) (some document) := by
    rw [← found, ← here, ← update]
    rfl
  cases computed : compute curr with
  | error trap =>
      simp [TwoStep.atomic, looked, PetViewModel.update, holds, casted, computed] at alone
  | ok next =>
      have writes : updates.look call pets = .write (field, pack next) := by
        rw [looked]
        exact PetViewModel.update_ok (by rw [holds, casted]) computed
      simp only [TwoStep.atomic, writes, Option.some.injEq] at alone
      refine ⟨next, rfl, ?_⟩
      rw [← alone, ← here]
      change (pets.updateData call.id (field, pack next)).fieldOf call.id field = _
      rw [Collection.fieldOf_updateData_self rfl, here, stored, Option.map_some]

/-- The breakfast taps among some calls on one pet. -/
def breakfasts (id : DocumentID) (calls : List Call) : Nat :=
  calls.countP (About id "breakfast")

/-- The treats given among some calls on one pet. -/
def treatsUp (id : DocumentID) (calls : List Call) : Nat :=
  calls.countP fun call => call.id = id ∧ call.update = .updateTreatsUp

theorem treatsUp_cons (id : DocumentID) (call : Call) (rest : List Call) :
    treatsUp id (call :: rest) =
      treatsUp id rest + if call.id = id ∧ call.update = .updateTreatsUp then 1 else 0 := by
  simp [treatsUp, List.countP_cons]

theorem breakfasts_cons (id : DocumentID) (call : Call) (rest : List Call) :
    breakfasts id (call :: rest) =
      breakfasts id rest + if About id "breakfast" call then 1 else 0 := by
  simp [breakfasts, List.countP_cons]

/-- One at a time, up-taps add up. -/
theorem serial_treats {pets pets' : Collection} {order : List Call} {id : DocumentID} {n : Int64}
    (serial : Runs (TwoStep.atomic updates) pets order pets')
    (onlyUp : ∀ call ∈ order, call.id = id → call.update ≠ .updateTreatsDown)
    (stored : pets.fieldOf id "treats" = some (some (.integer n))) :
    ∃ n' : Int64, pets'.fieldOf id "treats" = some (some (.integer n')) ∧
      n'.toInt = n.toInt + treatsUp id order := by
  induction serial generalizing n with
  | done => exact ⟨n, stored, by simp [treatsUp]⟩
  | @next pets call pets₁ rest pets' alone _ ih =>
      have later : ∀ call ∈ rest, call.id = id → call.update ≠ .updateTreatsDown :=
        fun c member => onlyUp c (List.mem_cons_of_mem _ member)
      by_cases up : call.id = id ∧ call.update = .updateTreatsUp
      · have update : call.update.callback = PetViewModel.update "treats" asInt
            (fun curr => checked (curr.toInt + 1)) fun curr => ("treats", .integer curr) := by
          rw [up.2]
          rfl
        obtain ⟨next, computed, stored₁⟩ := atomic_about update up.1 stored rfl alone
        obtain ⟨n', stored', sum⟩ := ih later stored₁
        have one := checked_ok computed
        refine ⟨n', stored', ?_⟩
        rw [sum, one, treatsUp_cons, if_pos up]
        omega
      · have elsewhere : ¬ About id "treats" call := by
          rintro ⟨here, onTreats⟩
          have notDown := onlyUp call (by simp) here
          change call.update.field = "treats" at onTreats
          cases update : call.update with
          | updateBB | updateDB => simp [update, Update.field] at onTreats
          | updateTreatsUp => exact up ⟨here, update⟩
          | updateTreatsDown => exact notDown update
        obtain ⟨n', stored', sum⟩ := ih later ((atomic_elsewhere elsewhere alone).trans stored)
        refine ⟨n', stored', ?_⟩
        rw [sum, treatsUp_cons, if_neg up, Nat.add_zero]

/-- One at a time, breakfast taps flip breakfast once each. -/
theorem serial_breakfast {pets pets' : Collection} {order : List Call} {id : DocumentID} {b : Bool}
    (serial : Runs (TwoStep.atomic updates) pets order pets')
    (stored : pets.fieldOf id "breakfast" = some (some (.boolean b))) :
    pets'.fieldOf id "breakfast" = some (some (.boolean (not^[breakfasts id order] b))) := by
  induction serial generalizing b with
  | done => exact stored
  | @next pets call pets₁ rest pets' alone _ ih =>
      by_cases tap : About id "breakfast" call
      · have update : call.update.callback = PetViewModel.update "breakfast" asBool
            (fun curr => .ok !curr) fun curr => ("breakfast", .boolean curr) := by
          have onBreakfast : call.update.field = "breakfast" := tap.2
          cases update : call.update <;> simp [update, Update.field] at onBreakfast
          rfl
        obtain ⟨next, computed, stored₁⟩ := atomic_about update tap.1 stored rfl alone
        obtain rfl : (!b) = next := Except.ok.inj computed
        rw [ih stored₁, breakfasts_cons, if_pos tap, Function.iterate_succ_apply]
      · rw [ih ((atomic_elsewhere tap alone).trans stored), breakfasts_cons, if_neg tap,
          Nat.add_zero]

/-- In every run in which no callback reads a field that another call is about to write,
    the collection ends as if the calls had been made one at a time: treats grow by the
    up-taps, and breakfast is flipped by every tap on it. -/
theorem no_lost_update {s t : State} {schedule : List (TwoStep.Action Call)}
    (run : Runs step s (schedule.map .call) t) (quiet : ∀ call, s.calls call = .idle)
    (finished : ∀ call ∈ TwoStep.started schedule, t.calls call = .done)
    (alone : Throughout (TwoStep.step updates) (TwoStep.ReadsAlone Contend) s.server schedule) :
    (∃ order, order.Perm (TwoStep.started schedule) ∧
      Runs (TwoStep.atomic updates) s.pets order t.pets) ∧
    (∀ id n, see id "treats" s = some (some (.integer n)) →
      (∀ call ∈ TwoStep.started schedule, call.id = id → call.update ≠ .updateTreatsDown) →
      ∃ n' : Int64, see id "treats" t = some (some (.integer n')) ∧
        n'.toInt = n.toInt + treatsUp id (TwoStep.started schedule)) ∧
    ∀ id b, see id "breakfast" s = some (some (.boolean b)) →
      see id "breakfast" t =
        some (some (.boolean (not^[breakfasts id (TwoStep.started schedule)] b))) := by
  obtain ⟨order, perm, serial⟩ :=
    TwoStep.serializable updates_independent (calls_run run) quiet finished alone
  refine ⟨⟨order, perm, serial⟩, ?_, ?_⟩
  · intro id n stored onlyUp
    obtain ⟨n', stored', sum⟩ :=
      serial_treats serial (fun call member => onlyUp call (perm.subset member)) stored
    refine ⟨n', stored', ?_⟩
    rw [sum, treatsUp, treatsUp, perm.countP_eq]
  · intro id b stored
    have flipped := serial_breakfast serial stored
    rwa [breakfasts, perm.countP_eq] at flipped

/-- A pet with no treats yet. -/
private def oneSubmitted : List Action :=
  [.edit 0 "Koda", .submit 0 "koda"]

private def oneStored : State :=
  (replay step (initial toString) oneSubmitted).get rfl

private theorem stored_run : Runs step (initial toString) oneSubmitted oneStored :=
  .of_isSome rfl

private def firstUp : Call := ⟨0, "koda", .updateTreatsUp⟩

private def secondUp : Call := ⟨1, "koda", .updateTreatsUp⟩

/-- The second treat is given after the first one has been written. -/
private def oneByOne : List (TwoStep.Action Call) :=
  [.start firstUp, .read firstUp, .write firstUp, .start secondUp, .read secondUp, .write secondUp]

theorem no_lost_update_one_by_one :
    ∃ t, Runs step oneStored (oneByOne.map .call) t ∧
      ∃ n : Int64, see "koda" "treats" t = some (some (.integer n)) ∧ n.toInt = 2 := by
  have run : Runs step oneStored (oneByOne.map .call) _ := Runs.of_isSome rfl
  have alone : Throughout (TwoStep.step updates) (TwoStep.ReadsAlone Contend) oneStored.server
      oneByOne := by
    refine .cons trivial rfl (.cons ?_ rfl (.cons trivial rfl (.cons trivial rfl
      (.cons ?_ rfl (.cons trivial rfl trivial)))))
    · intro other entry writing
      by_cases here : other = firstUp
      · subst here
        cases writing
      · rw [TwoStep.State.become_other _ _ here] at writing
        cases writing
    · intro other entry writing
      by_cases second : other = secondUp
      · subst second
        cases writing
      · rw [TwoStep.State.become_other _ _ second] at writing
        by_cases first : other = firstUp
        · subst first
          cases writing
        · simp only [TwoStep.State.become, Function.update_of_ne first] at writing
          cases writing
  have quiet : ∀ call, oneStored.calls call = .idle := fun _ => rfl
  obtain ⟨-, sums, -⟩ := no_lost_update run quiet (by decide) alone
  obtain ⟨n, stored, sum⟩ := sums "koda" 0 rfl (by decide)
  exact ⟨_, run, n, stored, sum⟩

/-- Both callbacks run before either write. -/
private def doubleTap : List (TwoStep.Action Call) :=
  [.start firstUp, .start secondUp, .read firstUp, .read secondUp, .write firstUp, .write secondUp]

/-- Two treats given at once count as one, whichever call is taken to be the first. -/
theorem lost_update :
    ∃ s t, Runs step (initial toString) oneSubmitted s ∧ Runs step s (doubleTap.map .call) t ∧
      (∀ call, s.calls call = .idle) ∧
      (∀ call ∈ TwoStep.started doubleTap, t.calls call = .done) ∧
      see "koda" "treats" t = some (some (.integer 1)) ∧
      ¬ ∃ order, order.Perm (TwoStep.started doubleTap) ∧
        Runs (TwoStep.atomic updates) s.pets order t.pets := by
  have tapped : Runs step oneStored (doubleTap.map .call) _ := Runs.of_isSome rfl
  refine ⟨_, _, stored_run, tapped, fun _ => rfl, by decide, rfl, ?_⟩
  rintro ⟨order, perm, serial⟩
  have onlyUp : ∀ call ∈ TwoStep.started doubleTap, call.id = "koda" →
      call.update ≠ .updateTreatsDown := by decide
  have none_yet : oneStored.pets.fieldOf "koda" "treats" = some (some (.integer 0)) := rfl
  obtain ⟨n, stored, sum⟩ :=
    serial_treats serial (fun call member => onlyUp call (perm.subset member)) none_yet
  rw [treatsUp, perm.countP_eq] at sum
  cases stored
  exact absurd sum (by decide)

end DogFoodTracker.Clients
