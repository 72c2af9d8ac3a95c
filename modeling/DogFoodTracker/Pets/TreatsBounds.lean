import DogFoodTracker.Pets.Clients

/-! # Treats stay within the up-taps under stale reads

Here `getDocument` may hand a callback any value that an issued write has given the
field since the pet was created, not only the current one. `updateTreatsDown` guards
against zero on the value it read, so what it writes is below what it read; and what
an up-tap writes exceeds what it read by one, while its own write is counted. Every
value ever written is therefore at least zero and at most the number of up-taps.
-/

namespace DogFoodTracker.Clients.Stale

open Firestore Transition

/-- A write as a client issues it, whether or not the server accepts it. -/
inductive Write where
  | addDocument (id : DocumentID) (document : Document)
  | updateData (call : Call) (entry : String × Value)

/-- The value a write gives to the treats of one pet. -/
def Write.treats (id : DocumentID) : Write → Option Value
  | .addDocument added document => if added = id then document "treats" else none
  | .updateData call entry => if call.id = id ∧ entry.1 = "treats" then some entry.2 else none

/-- The write is an `updateTreatsUp` of one pet. -/
def Write.isUp (id : DocumentID) : Write → Bool
  | .addDocument _ _ => false
  | .updateData call _ => call.id = id ∧ call.update = .updateTreatsUp

def held (id : DocumentID) (issued : List Write) : List Value :=
  issued.filterMap (Write.treats id)

def ups (id : DocumentID) (issued : List Write) : Nat :=
  issued.countP (Write.isUp id)

/-- The clients, and every write issued so far, newest first. -/
structure State where
  clients : Clients.State
  issued : List Write

inductive Action where
  | act (action : Clients.Action)
  | readStale (call : Call) (seen : Option Document)

/-- The writes that a step of the clients issues. -/
def issuedBy (s : Clients.State) : Clients.Action → List Write
  | .submit form id =>
      match (s.forms form).submit with
      | some (document, _) => [.addDocument id document]
      | none => []
  | .call (.write call) =>
      match s.calls call with
      | .writing entry => [.updateData call entry]
      | _ => []
  | _ => []

/-- A snapshot whose treats are a value the field has held, or no snapshot at all. -/
def mayRead (issued : List Write) (id : DocumentID) : Option Document → Bool
  | none => true
  | some document => (document "treats").any (· ∈ held id issued)

def step (s : State) : Action → Option State
  | .act action =>
      match Clients.step s.clients action with
      | none => none
      | some clients => some { clients, issued := issuedBy s.clients action ++ s.issued }
  | .readStale call seen =>
      match s.clients.calls call with
      | .reading =>
          if mayRead s.issued call.id seen then
            let server := s.clients.server.become call (call.update.callback seen).phase
            some { s with clients := { s.clients with server } }
          else none
      | _ => none

def initial (uuid : Nat → String) : State where
  clients := Clients.initial uuid
  issued := []

/-- An integer between zero and a bound. -/
def Within (bound : Nat) (value : Value) : Prop :=
  ∃ treats : Int64, value = .integer treats ∧ 0 ≤ treats.toInt ∧ treats.toInt ≤ bound

theorem Within.mono {bound bound' : Nat} {value : Value} (within : Within bound value)
    (le : bound ≤ bound') : Within bound' value := by
  obtain ⟨treats, same, lower, upper⟩ := within
  exact ⟨treats, same, lower, by omega⟩

theorem ups_append (id : DocumentID) (new issued : List Write) :
    ups id (new ++ issued) = ups id new + ups id issued :=
  List.countP_append

theorem ups_le_append (id : DocumentID) (new issued : List Write) :
    ups id issued ≤ ups id (new ++ issued) := by
  rw [ups_append]
  omega

/-- What an update may add to the bound: one for an up-tap. -/
def allowance : Update → Nat
  | .updateTreatsUp => 1
  | _ => 0

/-- An update of the treats keeps to what its computation does with the treats read. -/
theorem update_within {compute : Int64 → Except Trap Int64} {document : Document} {treats : Int64}
    {bound bound' : Nat} (casted : asInt (document "treats") = .ok treats)
    (computes : ∀ next, compute treats = .ok next → 0 ≤ next.toInt ∧ next.toInt ≤ bound')
    (overflows : compute treats = .error .overflow → 2 ^ 63 - 1 ≤ bound) :
    (∀ entry, PetViewModel.update "treats" asInt compute (fun curr => ("treats", .integer curr))
        (some document) = .write entry → Within bound' entry.2) ∧
      (PetViewModel.update "treats" asInt compute (fun curr => ("treats", .integer curr))
        (some document) = .fail .overflow → 2 ^ 63 - 1 ≤ bound) := by
  constructor
  · intro entry writes
    obtain ⟨_, curr, next, found, read, computed, rfl⟩ := PetViewModel.update_write writes
    cases found
    obtain rfl : treats = curr := Except.ok.inj (casted.symm.trans read)
    obtain ⟨lower, upper⟩ := computes next computed
    exact ⟨next, rfl, lower, upper⟩
  · intro fails
    obtain ⟨_, found, wrong | ⟨curr, read, overflow⟩⟩ := PetViewModel.update_fail fails
    · cases found
      cases casted.symm.trans wrong
    · cases found
      obtain rfl : treats = curr := Except.ok.inj (casted.symm.trans read)
      exact overflows overflow

/-- From a document within the bound, an update writes treats within the bound and its
    allowance, and can only overflow once the bound has reached the largest `Int`. -/
theorem callback_within {document : Document} {value : Value} {bound : Nat}
    (stored : document "treats" = some value) (within : Within bound value) (update : Update) :
    (∀ entry, update.callback (some document) = .write entry → entry.1 = "treats" →
      Within (bound + allowance update) entry.2) ∧
    (update.callback (some document) = .fail .overflow → 2 ^ 63 - 1 ≤ bound) := by
  obtain ⟨treats, rfl, lower, upper⟩ := within
  have casted : asInt (document "treats") = .ok treats := by rw [stored]; rfl
  have small := treats.toInt_lt
  cases update with
  | updateBB | updateDB =>
      constructor
      · intro entry writes onTreats
        simp only [Update.callback, PetViewModel.updateBB, PetViewModel.updateDB] at writes
        obtain ⟨_, _, _, _, _, _, rfl⟩ := PetViewModel.update_write writes
        exact absurd onTreats (by simp)
      · intro fails
        simp only [Update.callback, PetViewModel.updateBB, PetViewModel.updateDB] at fails
        obtain ⟨_, _, wrong | ⟨_, _, wrong⟩⟩ := PetViewModel.update_fail fails
        · cases asBool_error wrong
        · cases wrong
  | updateTreatsUp =>
      have up : (∀ entry, PetViewModel.updateTreatsUp (some document) = .write entry →
            Within (bound + 1) entry.2) ∧
          (PetViewModel.updateTreatsUp (some document) = .fail .overflow → 2 ^ 63 - 1 ≤ bound) := by
        apply update_within casted
        · intro next computed
          have sum := checked_ok computed
          omega
        · intro overflow
          obtain ⟨-, outside⟩ := checked_error overflow
          omega
      exact ⟨fun entry writes _ => up.1 entry writes, up.2⟩
  | updateTreatsDown =>
      have down : (∀ entry, PetViewModel.updateTreatsDown (some document) = .write entry →
            Within bound entry.2) ∧
          (PetViewModel.updateTreatsDown (some document) = .fail .overflow → 2 ^ 63 - 1 ≤ bound) := by
        apply update_within casted
        · intro next computed
          split at computed
          · rename_i nonzero
            have difference := checked_ok computed
            -- the guard makes the value read at least one
            have positive : treats.toInt ≠ 0 := fun zero => nonzero (Int64.toInt_inj.mp zero)
            omega
          · cases computed
            omega
        · intro overflow
          split at overflow
          · rename_i nonzero
            have positive : treats.toInt ≠ 0 := fun zero => nonzero (Int64.toInt_inj.mp zero)
            obtain ⟨-, outside⟩ := checked_error overflow
            omega
          · cases overflow
      exact ⟨fun entry writes _ => down.1 entry writes, down.2⟩

/-- The invariant over the stored treats, everything issued and every pending write. -/
structure Bounded (s : State) : Prop where
  issued : ∀ w older, (w :: older) <:+ s.issued → ∀ id value, w.treats id = some value →
    Within (ups id (w :: older)) value
  stored : ∀ id document, s.clients.pets id = some document →
    ∃ value, document "treats" = some value ∧ Within (ups id s.issued) value
  pending : ∀ call entry, s.clients.calls call = .writing entry → entry.1 = "treats" →
    Within (ups call.id s.issued + allowance call.update) entry.2
  overflow : ∀ call, s.clients.calls call = .failed .overflow → 2 ^ 63 - 1 ≤ ups call.id s.issued
  forms : FormsUntouched s.clients
  own : OwnField s.clients

theorem initial_bounded (uuid : Nat → String) : Bounded (initial uuid) where
  issued _ _ issued := nomatch List.suffix_nil.mp issued
  stored _ _ stored := nomatch stored
  pending _ _ writing := nomatch writing
  overflow _ failed := nomatch failed
  forms := initial_formsUntouched uuid
  own := (initial_quiet uuid).ownField

/-- Every value the field has held is within the up-taps of the pet. -/
theorem Bounded.held {s : State} (bounded : Bounded s) {id : DocumentID} {value : Value}
    (member : value ∈ held id s.issued) : Within (ups id s.issued) value := by
  obtain ⟨w, written, gives⟩ := List.mem_filterMap.mp member
  obtain ⟨newer, older, split⟩ := List.append_of_mem written
  have within := bounded.issued w older ⟨newer, split.symm⟩ id value gives
  rw [split]
  exact within.mono (ups_le_append id newer (w :: older))

/-- A callback run on a document whose treats are within the up-taps keeps the bounds
    of its own call. -/
theorem Bounded.look {s : State} {call : Call} {seen : Option Document}
    (possible : ∀ document, seen = some document →
      ∃ value, document "treats" = some value ∧ Within (ups call.id s.issued) value) :
    (∀ entry, call.update.callback seen = .write entry → entry.1 = "treats" →
      Within (ups call.id s.issued + allowance call.update) entry.2) ∧
    (call.update.callback seen = .fail .overflow → 2 ^ 63 - 1 ≤ ups call.id s.issued) := by
  cases seen with
  | none =>
      rw [Update.callback_none]
      exact ⟨fun _ writes => (nomatch writes), fun fails => (nomatch fails)⟩
  | some document =>
      obtain ⟨value, stored, within⟩ := possible document rfl
      exact callback_within stored within call.update

/-- Whatever the snapshot, reading moves one call and issues nothing. -/
theorem Bounded.readStale {s : State} (bounded : Bounded s) {call : Call} {seen : Option Document}
    (may : mayRead s.issued call.id seen = true) :
    Bounded { s with clients := { s.clients with
      server := s.clients.server.become call (call.update.callback seen).phase } } := by
  have possible : ∀ document, seen = some document →
      ∃ value, document "treats" = some value ∧ Within (ups call.id s.issued) value := by
    rintro document rfl
    obtain ⟨value, stored, member⟩ := (Option.any_eq_true _ _).mp may
    exact ⟨value, stored, bounded.held (of_decide_eq_true member)⟩
  obtain ⟨writes, overflows⟩ := Bounded.look possible
  exact {
    issued := bounded.issued
    stored := bounded.stored
    pending := State.forall_become
      (P := fun c phase => ∀ entry, phase = .writing entry → entry.1 = "treats" →
        Within (ups c.id s.issued + allowance c.update) entry.2)
      (fun entry writing => writes entry (TwoStep.Outcome.phase_eq_writing.mp writing))
      (fun c _ => bounded.pending c)
    overflow := State.forall_become
      (P := fun c phase => phase = .failed .overflow → 2 ^ 63 - 1 ≤ ups c.id s.issued)
      (fun failed => overflows (TwoStep.Outcome.phase_eq_failed.mp failed))
      (fun c _ => bounded.overflow c)
    forms := bounded.forms
    own := bounded.own.become fun _ writing =>
      call.update.callback_field (TwoStep.Outcome.phase_eq_writing.mp writing) }

/-- What a step issues: nothing, the document of a form, or what a call had pending. -/
theorem issuedBy_cases (s : Clients.State) (a : Clients.Action) :
    issuedBy s a = [] ∨
    (∃ form id document view, (s.forms form).submit = some (document, view) ∧
      issuedBy s a = [.addDocument id document]) ∨
    (∃ call entry, s.calls call = .writing entry ∧ issuedBy s a = [.updateData call entry]) := by
  unfold issuedBy
  split
  · rename_i form id
    split
    · rename_i document view submitted
      exact .inr (.inl ⟨form, id, document, view, submitted, rfl⟩)
    · exact .inl rfl
  · rename_i call
    split
    · rename_i entry writing
      exact .inr (.inr ⟨call, entry, writing, rfl⟩)
    · exact .inl rfl
  · exact .inl rfl

/-- The document of an untouched form has zero treats, which is within any bound. -/
theorem submitted_within {s : State} (bounded : Bounded s) {form : Nat} {document : Document}
    {view : AddPetView} (submitted : (s.clients.forms form).submit = some (document, view))
    (bound : Nat) : ∃ value, document "treats" = some value ∧ Within bound value := by
  obtain ⟨rfl, -, -⟩ := AddPetView.submit_some submitted
  refine ⟨_, Pet.encode_treats _, 0, ?_, by decide, ?_⟩
  · rw [(bounded.forms form).treats]
  · simp

/-- An up-tap pays for its own allowance when it is issued. -/
theorem ups_updateData (call : Call) (entry : String × Value) (issued : List Write) :
    ups call.id ([.updateData call entry] ++ issued) = ups call.id issued + allowance call.update := by
  have own : ups call.id [.updateData call entry] = allowance call.update := by
    cases call with
    | mk ticket id update => cases update <;> simp [ups, Write.isUp, allowance]
  rw [ups_append, own, Nat.add_comm]

theorem Bounded.issue {s : State} (bounded : Bounded s) (a : Clients.Action) :
    ∀ w older, (w :: older) <:+ issuedBy s.clients a ++ s.issued → ∀ id value,
      w.treats id = some value → Within (ups id (w :: older)) value := by
  intro w older suffix id value gives
  rcases issuedBy_cases s.clients a with same | ⟨form, new, document, view, submitted, same⟩ |
      ⟨call, entry, writing, same⟩
  · rw [same] at suffix
    exact bounded.issued w older suffix id value gives
  · rw [same, List.singleton_append, List.suffix_cons_iff] at suffix
    rcases suffix with now | before
    · cases now
      simp only [Write.treats] at gives
      split at gives
      · obtain ⟨zero, stored, within⟩ := submitted_within bounded submitted
          (ups id (.addDocument new document :: s.issued))
        obtain rfl := Option.some.inj (stored.symm.trans gives)
        exact within
      · cases gives
    · exact bounded.issued w older before id value gives
  · rw [same, List.singleton_append, List.suffix_cons_iff] at suffix
    rcases suffix with now | before
    · cases now
      simp only [Write.treats] at gives
      split at gives
      · rename_i own
        obtain ⟨rfl, onTreats⟩ := own
        obtain rfl := Option.some.inj gives
        have counted := ups_updateData call entry s.issued
        rw [List.singleton_append] at counted
        rw [counted]
        exact bounded.pending call entry writing onTreats
      · cases gives
    · exact bounded.issued w older before id value gives

/-- A step of the clients keeps the bounds: a form adds zero, and a write makes stored
    what was pending, its own up-tap now counted. -/
theorem Bounded.act {s : State} (bounded : Bounded s) {a : Clients.Action}
    {clients : Clients.State} (taken : Clients.step s.clients a = some clients) :
    Bounded { clients, issued := issuedBy s.clients a ++ s.issued } where
  issued := bounded.issue a
  stored := by
    apply step_documents (P := fun id document => ∃ value, document "treats" = some value ∧
      Within (ups id (issuedBy s.clients a ++ s.issued)) value) taken
    · intro id document found
      obtain ⟨value, has, within⟩ := bounded.stored id document found
      exact ⟨value, has, within.mono (ups_le_append id _ _)⟩
    · intro form id document view _ _ submitted
      exact submitted_within bounded submitted _
    · rintro call entry document rfl writing ⟨value, has, within⟩
      by_cases onTreats : entry.1 = "treats"
      · have issues : issuedBy s.clients (.call (.write call)) = [.updateData call entry] := by
          simp only [issuedBy, writing]
        refine ⟨entry.2, by rw [onTreats, Function.update_self], ?_⟩
        rw [issues, ups_updateData]
        exact bounded.pending call entry writing onTreats
      · exact ⟨value, by rw [Function.update_of_ne (Ne.symm onTreats), has], within⟩
  pending call entry writing onTreats := by
    have grown := ups_le_append call.id (issuedBy s.clients a) s.issued
    rcases writing_origin taken writing with before | ⟨-, looked⟩
    · exact (bounded.pending call entry before onTreats).mono (Nat.add_le_add_right grown _)
    · obtain ⟨writes, -⟩ := Bounded.look (bounded.stored call.id)
      exact (writes entry looked onTreats).mono (Nat.add_le_add_right grown _)
  overflow call failed := by
    have grown := ups_le_append call.id (issuedBy s.clients a) s.issued
    rcases failed_origin taken failed with before | ⟨-, looked⟩
    · exact (bounded.overflow call before).trans grown
    · obtain ⟨-, overflows⟩ := Bounded.look (bounded.stored call.id)
      exact (overflows looked).trans grown
  forms := step_formsUntouched bounded.forms taken
  own := step_ownField bounded.own taken

theorem step_bounded {s t : State} {a : Action} (bounded : Bounded s) (taken : step s a = some t) :
    Bounded t := by
  cases a with
  | act action =>
      simp only [step] at taken
      split at taken
      · cases taken
      · rename_i clients stepped
        cases taken
        exact bounded.act stepped
  | readStale call seen =>
      simp only [step] at taken
      split at taken
      · split at taken
        · rename_i may
          cases taken
          exact bounded.readStale may
        · cases taken
      · cases taken

theorem run_bounded {uuid : Nat → String} {actions : List Action} {s : State}
    (run : Runs step (initial uuid) actions s) : Bounded s :=
  run.invariant Bounded (fun _ _ _ => step_bounded) (initial_bounded uuid)

/-- Whatever values of the past the callbacks are given, every treats value ever issued
    is between zero and the up-taps of its pet issued until then, itself included; so
    is what is stored; and an up-tap overflows only after `2 ^ 63 - 1` of them. -/
theorem treats_bounded {uuid : Nat → String} {actions : List Action} {s : State}
    (run : Runs step (initial uuid) actions s) :
    (∀ w older, (w :: older) <:+ s.issued → ∀ id value, w.treats id = some value →
      Within (ups id (w :: older)) value) ∧
    (∀ id document, s.clients.pets id = some document →
      ∃ value, document "treats" = some value ∧ Within (ups id s.issued) value) ∧
    ∀ call, s.clients.calls call = .failed .overflow → 2 ^ 63 - 1 ≤ ups call.id s.issued := by
  have bounded := run_bounded run
  exact ⟨bounded.issued, bounded.stored, bounded.overflow⟩

/-- One treat given and two taken back, the second on a snapshot from before the first. -/
private def staleDown : List Action :=
  let up : Call := ⟨0, "koda", .updateTreatsUp⟩
  let down : Call := ⟨1, "koda", .updateTreatsDown⟩
  let again : Call := ⟨2, "koda", .updateTreatsDown⟩
  let one : Document := fun field => if field = "treats" then some (.integer 1) else none
  [.act (.edit 0 "Koda"), .act (.submit 0 "koda"), .act (.call (.start up)),
    .act (.call (.read up)), .act (.call (.write up)), .act (.call (.start down)),
    .act (.call (.read down)), .act (.call (.write down)), .act (.call (.start again)),
    .readStale again (some one), .act (.call (.write again))]

theorem treats_bounded_stale_down :
    ∃ s, Runs step (initial toString) staleDown s ∧
      ∃ document, s.clients.pets "koda" = some document ∧
        ∃ value, document "treats" = some value ∧ Within (ups "koda" s.issued) value := by
  have run : Runs step (initial toString) staleDown _ := Runs.of_isSome rfl
  obtain ⟨-, stored, -⟩ := treats_bounded run
  exact ⟨_, run, _, rfl, stored "koda" _ rfl⟩

end DogFoodTracker.Clients.Stale
