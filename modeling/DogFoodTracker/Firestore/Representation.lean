import DogFoodTracker.Firestore.FirestoreEncoder

/-! # What the encoder produces

The same `encode(to:)` read as building a tree, with no stack, path or memory, and the
proof that the encoder comes to exactly that: the same value, the same error or the same
trap, with its storage and its path as they were before.
-/

namespace DogFoodTracker.Firestore.FirestoreEncoder

open Containers Outcome

/-- The container that a request finds, by what has been encoded so far. -/
def request (kind : Kind) : Option Represented → Option Represented
  | none => some (Tree.fresh kind)
  | some tree => if tree.kind = some kind then some tree else none

mutual

def Encodable.represent (value : Encodable) : Outcome EncodingError Unit (Option Represented) :=
  match value with
  | .native object => .ok (some (.leaf (.native object))) ()
  | .url absoluteString => .ok (some (.leaf (.plain (.string absoluteString)))) ()
  | .documentID =>
      .thrown
        (.encodingIsNotSupported "DocumentID values can only be encoded with Firestore.Encoder") ()
  | .custom body =>
      match body.represent none with
      | .ok _ tree => .ok tree ()
      | .thrown error _ => .thrown error ()
      | .trap => .trap

/-- From what was encoded so far to what is after the body. -/
def Body.represent (body : Body) (sofar : Option Represented) :
    Outcome EncodingError (Option Represented) Unit :=
  match body with
  | .done => .ok () sofar
  | .throws error => .thrown error sofar
  | .container kind calls rest =>
      match request kind sofar with
      | some tree =>
          ((calls.represent tree).leave fun tree => some (some tree)).bind fun _ sofar =>
            rest.represent sofar
      | none => .trap
  | .boxed value rest =>
      match sofar with
      | none => rest.represent (some (.leaf (.plain value)))
      | some _ => .trap
  | .single value rest =>
      match sofar with
      | none =>
          (value.represent.leave fun _ => some none).bind fun tree _ =>
            rest.represent (some (tree.getD .empty))
      | some _ => .trap
  | .attempt first rest => (first.represent sofar).recover fun sofar => rest.represent sofar

def Calls.represent {kind : Kind} (calls : Calls kind) (tree : Represented) :
    Outcome EncodingError Represented Unit :=
  match calls with
  | .done => .ok () tree
  | .throws error => .thrown error tree
  | .boxed slot value rest => rest.represent (tree.put slot (.leaf (.plain value)))
  | .encode slot value rest =>
      if value.ignored slot then rest.represent tree
      else
        (value.represent.leave fun _ => some tree).bind fun child tree =>
          rest.represent (tree.put slot (child.getD .empty))
  | @Calls.nested _ slot inner calls rest =>
      ((calls.represent (Tree.fresh inner)).leave fun child => some (tree.put slot child)).bind
        fun _ tree => rest.represent tree
  | .superEncoder slot body rest =>
      ((body.represent none).leave fun child => some (tree.put slot (child.getD .empty))).bind
        fun _ tree => rest.represent tree
  | .attempt first rest => (first.represent tree).recover fun tree => rest.represent tree

end

/-! ## What the encoder keeps -/

/-- The same stack and path, and no older container touched. -/
structure Restored (s s' : State) : Prop where
  containers : s'.containers = s.containers
  codingPath : s'.codingPath = s.codingPath
  inherited : s'.inherited = s.inherited
  heap : Keeps (fun _ => True) s.heap s'.heap

/-- The same stack and path, and no older container touched but one, which has become `tree`. -/
structure Written (address : Nat) (s s' : State) (tree : Represented) : Prop where
  containers : s'.containers = s.containers
  codingPath : s'.codingPath = s.codingPath
  inherited : s'.inherited = s.inherited
  heap : Keeps (· ≠ address) s.heap s'.heap
  reads : Reads s'.heap address (.reference address) tree

/-- At a level of the path: the containers below it, and on top what it encoded so far, all
    of it at `low` or above. -/
structure Holds (low : Nat) (base : List (Object Leaf)) (s : State) (sofar : Option Represented) :
    Prop where
  within : base.length + s.inherited = s.codingPath.length
  above : low ≤ s.heap.length
  top : match sofar with
    | none => s.containers = base
    | some tree => ∃ object, s.containers = object :: base ∧ Reads s.heap low object tree

/-- The same level later, with no container below `low` touched. -/
structure Kept (low : Nat) (base : List (Object Leaf)) (s s' : State) (sofar : Option Represented) :
    Prop where
  holds : Holds low base s' sofar
  codingPath : s'.codingPath = s.codingPath
  inherited : s'.inherited = s.inherited
  heap : Keeps (· < low) s.heap s'.heap

theorem Written.trans {address : Nat} {s s' s'' : State} {tree tree' : Represented}
    (first : Written address s s' tree) (second : Written address s' s'' tree') :
    Written address s s'' tree' where
  containers := second.containers.trans first.containers
  codingPath := second.codingPath.trans first.codingPath
  inherited := second.inherited.trans first.inherited
  heap := first.heap.trans second.heap
  reads := second.reads

theorem Kept.trans {low : Nat} {base : List (Object Leaf)} {s s' s'' : State}
    {sofar sofar' : Option Represented} (first : Kept low base s s' sofar)
    (second : Kept low base s' s'' sofar') : Kept low base s s'' sofar' where
  holds := second.holds
  codingPath := second.codingPath.trans first.codingPath
  inherited := second.inherited.trans first.inherited
  heap := first.heap.trans second.heap

theorem Kept.refl {low : Nat} {base : List (Object Leaf)} {s : State} {sofar : Option Represented}
    (holds : Holds low base s sofar) : Kept low base s s sofar :=
  ⟨holds, rfl, rfl, .refl _ _⟩

theorem Written.refl {address : Nat} {s : State} {tree : Represented}
    (reads : Reads s.heap address (.reference address) tree) : Written address s s tree :=
  ⟨rfl, rfl, rfl, .refl _ _, reads⟩

theorem Holds.allocates {low : Nat} {base : List (Object Leaf)} {s : State}
    {sofar : Option Represented} (holds : Holds low base s sofar) :
    s.shouldAllocateNewContainer = sofar.isNone := by
  have within := holds.within
  have top := holds.top
  cases sofar with
  | none =>
      simp only [State.shouldAllocateNewContainer, top, Option.isNone_none, decide_eq_true_eq]
      omega
  | some tree =>
      obtain ⟨object, containers, -⟩ := top
      simp only [State.shouldAllocateNewContainer, containers, List.length_cons, Option.isNone_some,
        decide_eq_false_iff_not]
      omega

/-- Writing an object that reads as `child` makes a container's tree the one with `child`. -/
theorem Written.put {address : Nat} {s s' : State} {tree child : Represented} {kind : Kind}
    (slot : Slot String kind) {object : Object Leaf}
    (reads : Reads s.heap address (.reference address) tree) (restored : Restored s s')
    (fresh : Reads s'.heap s.heap.length object child) :
    Written address s (s'.write address slot object) (tree.put slot child) := by
  obtain ⟨cell, there, -⟩ := reads.cell
  have inside : address < s.heap.length := (List.getElem?_eq_some_iff.mp there).1
  have modified := Keeps.modify s'.heap address (·.put slot object)
  have keeps : Keeps (· ≠ address) s.heap (s'.heap.modify address (·.put slot object)) :=
    (restored.heap.mono fun _ _ _ => trivial).trans modified
  have written : (s'.heap.modify address (·.put slot object))[address]? =
      s.heap[address]?.map (·.put slot object) := by
    simp [restored.heap.same address inside trivial]
  have added : Reads (s'.heap.modify address (·.put slot object)) (address + 1) object child :=
    (fresh.keeps (modified.mono fun other _ above => by omega)).lower (by omega)
  exact ⟨restored.containers, restored.codingPath, restored.inherited, keeps,
    reads.put slot (keeps.mono fun other _ above => by omega) written added⟩

theorem Written.restored {address : Nat} {s s' : State} {tree : Represented}
    (reads : Reads s.heap address (.reference address) tree) (restored : Restored s s') :
    Written address s s' tree :=
  ⟨restored.containers, restored.codingPath, restored.inherited,
    restored.heap.mono fun _ _ _ => trivial, reads.keeps (restored.heap.mono fun _ _ _ => trivial)⟩

/-- A container made inside another one is filled by reference. -/
theorem Written.nested {address : Nat} {s s' : State} {tree child : Represented} {kind : Kind}
    (slot : Slot String kind) (inner : Kind) (reads : Reads s.heap address (.reference address) tree)
    (filled : Written s.heap.length
      ({ s with heap := s.heap ++ [Cell.fresh inner] }.write address slot (.reference s.heap.length))
      s' child) :
    Written address s s' (tree.put slot child) := by
  obtain ⟨cell, there, -⟩ := reads.cell
  have inside : address < s.heap.length := (List.getElem?_eq_some_iff.mp there).1
  have placed : Keeps (· ≠ address) s.heap
      ((s.heap ++ [Cell.fresh inner]).modify address (·.put slot (.reference s.heap.length))) :=
    (Keeps.append _ _ _).trans (.modify _ _ _)
  have older : Keeps (· < s.heap.length)
      ((s.heap ++ [Cell.fresh inner]).modify address (·.put slot (.reference s.heap.length)))
      s'.heap :=
    filled.heap.mono fun other _ below => Nat.ne_of_lt below
  have keeps : Keeps (· ≠ address) s.heap s'.heap :=
    ⟨Nat.le_trans placed.grows older.grows, fun other within apart =>
      (older.same other (Nat.lt_of_lt_of_le within placed.grows) within).trans
        (placed.same other within apart)⟩
  have written : s'.heap[address]? =
      s.heap[address]?.map (·.put slot (.reference s.heap.length)) := by
    have stays : (s.heap ++ [Cell.fresh inner])[address]? = s.heap[address]? :=
      List.getElem?_append_left inside
    rw [older.same address (Nat.lt_of_lt_of_le inside placed.grows) inside]
    simp [stays]
  exact ⟨filled.containers, filled.codingPath, filled.inherited, keeps,
    reads.put slot (keeps.mono fun other _ above => by omega) written
      (filled.reads.lower (by omega))⟩

theorem nested_starts {address : Nat} {s : State} {tree : Represented} {kind : Kind}
    (slot : Slot String kind) (inner : Kind) (reads : Reads s.heap address (.reference address) tree) :
    Reads ({ s with heap := s.heap ++ [Cell.fresh inner] }.write address slot
      (.reference s.heap.length)).heap s.heap.length (.reference s.heap.length)
        (Tree.fresh inner) := by
  obtain ⟨cell, there, -⟩ := reads.cell
  have inside : address < s.heap.length := (List.getElem?_eq_some_iff.mp there).1
  exact (Reads.fresh s.heap inner []).keeps
    ((Keeps.modify _ address _).mono fun other _ above => by omega)

/-- At the end of an array, an insertion is an addition. -/
theorem writeBack_count {address : Nat} {s : State} {kind : Kind} (slot : Slot String kind)
    (value : Object Leaf) :
    s.writeBack address slot (s.count address) value = s.write address slot value := by
  cases slot with
  | key key => rfl
  | next =>
      have same : s.heap.modify address (·.insert (s.count address) value) =
          s.heap.modify address (·.put .next value) := by
        apply List.ext_getElem?
        intro other
        by_cases here : address = other
        · subst here
          cases there : s.heap[address]? <;>
            simp [there, State.count, Cell.insert_count]
        · simp [here]
      simp only [State.writeBack, State.write, same]

/-- What a referencing encoder encoded is put where it was made for: nothing came between
    its index and the end of the array. -/
theorem Written.finalize {address : Nat} {s s' : State} {tree : Represented} {kind : Kind}
    (slot : Slot String kind) {sofar : Option Represented}
    (reads : Reads s.heap address (.reference address) tree)
    (keeps : Keeps (· < s.heap.length) s.heap s'.heap)
    (holds : Holds s.heap.length [] s' sofar) :
    ∃ s'', s.finalize address slot (s.count address) s' = some s'' ∧
      Written address s s'' (tree.put slot (sofar.getD .empty)) := by
  obtain ⟨cell, there, -⟩ := reads.cell
  have inside : address < s.heap.length := (List.getElem?_eq_some_iff.mp there).1
  have restored : Restored s { s with heap := s'.heap } :=
    ⟨rfl, rfl, rfl, keeps.grows, fun other within _ => keeps.same other within within⟩
  have ended : s.count address = { s with heap := s'.heap }.count address := by
    simp only [State.count, keeps.same address inside inside]
  have top := holds.top
  cases sofar with
  | none =>
      simp only [State.finalize, top, ended, writeBack_count]
      exact ⟨_, rfl, .put slot reads restored (.empty _)⟩
  | some child =>
      obtain ⟨object, containers, readsChild⟩ := top
      simp only [State.finalize, containers, ended, writeBack_count]
      exact ⟨_, rfl, .put slot reads restored readsChild⟩

theorem Holds.push {low : Nat} {base : List (Object Leaf)} {s s' : State}
    (holds : Holds low base s none) (restored : Restored s s') {object : Object Leaf}
    {tree : Represented} (fresh : Reads s'.heap s.heap.length object tree) :
    Kept low base s (s'.push object) (some tree) where
  holds :=
    { within := by
        simp only [State.push, restored.codingPath, restored.inherited]
        exact holds.within
      above := Nat.le_trans holds.above restored.heap.grows
      top := ⟨object, by simp only [State.push, restored.containers, holds.top],
        fresh.lower holds.above⟩ }
  codingPath := restored.codingPath
  inherited := restored.inherited
  heap := restored.heap.mono fun _ _ _ => trivial

theorem Holds.restored {low : Nat} {base : List (Object Leaf)} {s s' : State}
    (holds : Holds low base s none) (restored : Restored s s') : Kept low base s s' none where
  holds :=
    { within := by
        rw [restored.codingPath, restored.inherited]
        exact holds.within
      above := Nat.le_trans holds.above restored.heap.grows
      top := restored.containers.trans holds.top }
  codingPath := restored.codingPath
  inherited := restored.inherited
  heap := restored.heap.mono fun _ _ _ => trivial

/-- A request is answered in the encoder exactly when it is for the tree. -/
theorem Holds.container {low : Nat} {base : List (Object Leaf)} {s : State}
    {sofar : Option Represented} (holds : Holds low base s sofar) (kind : Kind) :
    (s.container kind = none ∧ request kind sofar = none) ∨
      ∃ address s' tree, s.container kind = some (address, s') ∧ request kind sofar = some tree ∧
        s'.containers = .reference address :: base ∧ low ≤ address ∧
        Reads s'.heap address (.reference address) tree ∧ Kept low base s s' (some tree) := by
  have allocates := holds.allocates
  have top := holds.top
  cases sofar with
  | none =>
      have reads : Reads (s.heap ++ [Cell.fresh kind]) s.heap.length (.reference s.heap.length)
          (Tree.fresh kind) := .fresh s.heap kind []
      refine .inr ⟨s.heap.length, s.pushContainer kind, Tree.fresh kind, ?_, rfl, ?_, holds.above,
        reads, ?_⟩
      · simp [State.container, allocates]
      · simp only [State.pushContainer, top]
      · exact
          { holds :=
              { within := holds.within
                above := by
                  have above := holds.above
                  simp only [State.pushContainer, List.length_append]
                  omega
                top := ⟨_, by simp only [State.pushContainer, top], reads.lower holds.above⟩ }
            codingPath := rfl
            inherited := rfl
            heap := .append _ _ _ }
  | some tree =>
      obtain ⟨object, containers, reads⟩ := top
      cases object with
      | leaf value =>
          cases reads
          simp [State.container, allocates, containers, request, Tree.kind]
      | empty =>
          cases reads
          simp [State.container, allocates, containers, request, Tree.kind]
      | reference address =>
          obtain ⟨cell, there, above, sameKind, -, here⟩ := reads.cell
          by_cases asked : cell.kind = kind
          · refine .inr ⟨address, s, tree, ?_, ?_, containers, above, here, .refl holds⟩
            · simp [State.container, allocates, containers, there, asked]
            · simp [request, sameKind, asked]
          · simp [State.container, allocates, containers, there, asked, request, sameKind]

/-! ## The simulation -/

/-- A boxed value: an object that reads as the tree, made of new containers only. -/
structure Boxed (s : State) (object : Option (Object Leaf)) (s' : State)
    (tree : Option Represented) : Prop where
  restored : Restored s s'
  represents : match object, tree with
    | some object, some tree => Reads s'.heap s.heap.length object tree
    | none, none => True
    | _, _ => False

theorem Boxed.object {s s' : State} {object : Option (Object Leaf)} {tree : Option Represented}
    (boxed : Boxed s object s' tree) :
    Reads s'.heap s.heap.length (object.getD .empty) (tree.getD .empty) := by
  have represents := boxed.represents
  cases object <;> cases tree <;> first | exact represents | exact represents.elim | exact .empty _

theorem Holds.start {s : State} (within : s.containers.length + s.inherited = s.codingPath.length) :
    Holds s.heap.length s.containers s none :=
  ⟨within, Nat.le_refl _, rfl⟩

/-- Popping at most one container ends the level. -/
theorem Kept.popAbove {s s' : State} {sofar : Option Represented}
    (kept : Kept s.heap.length s.containers s s' sofar) :
    Boxed s (s'.popAbove s.containers.length).1 (s'.popAbove s.containers.length).2 sofar := by
  have top := kept.holds.top
  have restored (containers : List (Object Leaf)) (same : containers = s.containers) :
      Restored s { s' with containers } :=
    ⟨same, kept.codingPath, kept.inherited, kept.heap.mono fun _ inside _ => inside⟩
  cases sofar with
  | none =>
      have popped : s'.popAbove s.containers.length = (none, s') := by
        cases containers : s'.containers with
        | nil => simp [State.popAbove, containers]
        | cons first rest =>
            have longer : ¬ s.containers.length < s'.containers.length := by simp [top]
            simp [State.popAbove, containers, ← top]
      rw [popped]
      exact ⟨restored s'.containers top, trivial⟩
  | some tree =>
      obtain ⟨object, containers, reads⟩ := top
      have popped : s'.popAbove s.containers.length =
          (some object, { s' with containers := s.containers }) := by
        simp [State.popAbove, containers]
      rw [popped]
      exact ⟨restored s.containers rfl, reads⟩

theorem Restored.left_key {s s' : State} {key : String} (restored : Restored (s.enter key) s') :
    Restored s s'.leave where
  containers := restored.containers
  codingPath := by simp [State.leave, restored.codingPath, State.enter]
  inherited := restored.inherited
  heap := restored.heap

theorem Boxed.left_key {s s' : State} {key : String} {object : Option (Object Leaf)}
    {tree : Option Represented} (boxed : Boxed (s.enter key) object s' tree) :
    Boxed s object s'.leave tree :=
  ⟨boxed.restored.left_key, boxed.represents⟩

theorem Kept.next {low : Nat} {base : List (Object Leaf)} {s s' : State}
    {sofar : Option Represented} {left : Result Unit}
    {right : Outcome EncodingError (Option Represented) Unit} (kept : Kept low base s s' sofar)
    (rest : Matches (fun _ s'' _ => Kept low base s' s'') (Kept low base s') left right) :
    Matches (fun _ s'' _ => Kept low base s s'') (Kept low base s) left right :=
  rest.mono (fun _ _ _ _ => kept.trans) fun _ _ => kept.trans

theorem Written.next {address : Nat} {s s' : State} {tree : Represented} {left : Result Unit}
    {right : Outcome EncodingError Represented Unit} (written : Written address s s' tree)
    (rest : Matches (fun _ s'' _ => Written address s' s'') (Written address s') left right) :
    Matches (fun _ s'' _ => Written address s s'') (Written address s) left right :=
  rest.mono (fun _ _ _ _ => written.trans) fun _ _ => written.trans

theorem Written.within {address : Nat} {s s' : State} {tree : Represented}
    (written : Written address s s' tree)
    (within : s.containers.length + s.inherited = s.codingPath.length + 1) :
    s'.containers.length + s'.inherited = s'.codingPath.length + 1 := by
  rw [written.containers, written.codingPath, written.inherited]
  exact within

mutual

theorem Encodable.box_matches (value : Encodable) {s : State}
    (within : s.containers.length + s.inherited = s.codingPath.length) :
    Matches (fun object s' tree _ => Boxed s object s' tree) (fun s' _ => Restored s s')
      (value.box_ s) value.represent := by
  have unchanged : Restored s s := ⟨rfl, rfl, rfl, .refl _ _⟩
  cases value with
  | native object => exact .ok ⟨unchanged, .leaf _ _⟩
  | url absoluteString => exact .ok ⟨unchanged, .leaf _ _⟩
  | documentID => exact .thrown _ unchanged
  | custom body =>
      have matched := body.run_matches (Holds.start within)
      simp only [Encodable.box_, Encodable.represent]
      cases left : body.run s <;> cases right : body.represent none <;>
        simp only [left, right] at matched <;> cases matched
      case ok.ok.ok kept => exact .ok kept.popAbove
      case thrown.thrown.thrown kept => exact .thrown _ kept.popAbove.restored
      case trap.trap.trap => exact .trap

theorem Body.run_matches (body : Body) {low : Nat} {base : List (Object Leaf)} {s : State}
    {sofar : Option Represented} (holds : Holds low base s sofar) :
    Matches (fun _ s' _ => Kept low base s s') (Kept low base s) (body.run s)
      (body.represent sofar) := by
  cases body with
  | done => exact .ok (.refl holds)
  | throws error => exact .thrown _ (.refl holds)
  | container kind calls rest =>
      simp only [Body.run, Body.represent]
      rcases holds.container kind with
        ⟨left, right⟩ | ⟨address, opened, tree, left, right, containers, above, reads, start⟩
      · rw [left, right]
        exact .trap
      · rw [left, right]
        have within : opened.containers.length + opened.inherited = opened.codingPath.length + 1 := by
          have level := start.holds.within
          simp only [containers, List.length_cons]
          omega
        have filled (s' : State) (tree' : Represented) (written : Written address opened s' tree') :
            Kept low base s s' (some tree') :=
          start.trans
            { holds :=
                { within := by rw [written.codingPath, written.inherited]; exact start.holds.within
                  above := Nat.le_trans start.holds.above written.heap.grows
                  top := ⟨_, written.containers.trans containers, written.reads.lower above⟩ }
              codingPath := written.codingPath
              inherited := written.inherited
              heap := written.heap.mono fun other _ below => by omega }
        have used : Matches (fun _ s' _ => Kept low base s s') (Kept low base s)
            (calls.run address opened) ((calls.represent tree).leave fun tree => some (some tree)) :=
          (calls.run_matches reads within).leave_right
            (fun _ s' _ tree' written => ⟨some tree', rfl, filled s' tree' written⟩)
            (fun s' tree' written => ⟨some tree', rfl, filled s' tree' written⟩)
        apply used.bind fun _ _ kept => kept
        intro _ s' _ sofar' kept
        exact kept.next (rest.run_matches kept.holds)
  | boxed value rest =>
      simp only [Body.run, Body.represent, holds.allocates]
      cases sofar with
      | some tree => exact .trap
      | none =>
          have pushed : Kept low base s (s.push (.leaf (.plain value)))
              (some (.leaf (.plain value))) :=
            holds.push ⟨rfl, rfl, rfl, .refl _ _⟩ (.leaf _ _)
          exact pushed.next (rest.run_matches pushed.holds)
  | single value rest =>
      simp only [Body.run, Body.represent, holds.allocates]
      cases sofar with
      | some tree => exact .trap
      | none =>
          have within : s.containers.length + s.inherited = s.codingPath.length := by
            rw [show s.containers = base from holds.top]
            exact holds.within
          have boxed : Matches (fun object s' tree _ => Boxed s object s' tree)
              (Kept low base s) (value.box_ s) (value.represent.leave fun _ => some none) :=
            (value.box_matches within).leave_right (fun _ _ _ _ boxed => ⟨none, rfl, boxed⟩)
              (fun _ _ restored => ⟨none, rfl, holds.restored restored⟩)
          apply boxed.bind fun _ _ kept => kept
          intro object s' tree _ boxed
          have pushed := holds.push boxed.restored boxed.object
          exact pushed.next (rest.run_matches pushed.holds)
  | attempt first rest =>
      simp only [Body.run, Body.represent]
      apply (first.run_matches holds).recover
      · intro s' sofar' kept
        exact kept.next (rest.run_matches kept.holds)
      · intro s' sofar' kept
        exact kept.next (rest.run_matches kept.holds)

theorem Calls.run_matches {kind : Kind} (calls : Calls kind) {address : Nat} {s : State}
    {tree : Represented} (reads : Reads s.heap address (.reference address) tree)
    (within : s.containers.length + s.inherited = s.codingPath.length + 1) :
    Matches (fun _ s' _ => Written address s s') (Written address s) (calls.run address s)
      (calls.represent tree) := by
  match calls with
  | .done => exact .ok (.refl reads)
  | .throws error => exact .thrown _ (.refl reads)
  | .boxed slot value rest =>
      have written : Written address s (s.write address slot (.leaf (.plain value)))
          (tree.put slot (.leaf (.plain value))) :=
        .put slot reads ⟨rfl, rfl, rfl, .refl _ _⟩ (.leaf _ _)
      exact written.next (rest.run_matches written.reads (written.within within))
  | .encode slot value rest =>
      simp only [Calls.run, Calls.represent]
      split
      · exact rest.run_matches reads within
      · let entered := s.enter (State.codingKey (s.count address) slot)
        have level : entered.containers.length + entered.inherited = entered.codingPath.length := by
          simpa [entered, State.enter] using within
        have boxed : Matches
            (fun object s' child tree' => tree' = tree ∧ Boxed s object s' child)
            (Written address s)
            ((value.box_ entered).leave fun s => some s.leave)
            (value.represent.leave fun _ => some tree) := by
          apply (value.box_matches level).leave
          · exact fun object s' child _ boxed => ⟨_, _, rfl, rfl, rfl, boxed.left_key⟩
          · exact fun s' _ restored =>
              ⟨_, _, rfl, rfl, .restored reads restored.left_key⟩
        apply boxed.bind fun _ _ written => written
        intro object s' child tree' ⟨same, encoded⟩
        have written := Written.put slot reads encoded.restored encoded.object
        rw [same]
        exact written.next (rest.run_matches written.reads (written.within within))
  | @Calls.nested _ slot inner calls rest =>
      simp only [Calls.run, Calls.represent]
      have filled : Matches (fun _ s' _ => Written address s s') (Written address s)
          (calls.run s.heap.length
            ({ s with heap := s.heap ++ [Cell.fresh inner] }.write address slot
              (.reference s.heap.length)))
          ((calls.represent (Tree.fresh inner)).leave fun child => some (tree.put slot child)) :=
        (calls.run_matches (nested_starts slot inner reads) within).leave_right
          (fun _ _ _ _ filled => ⟨_, rfl, .nested slot inner reads filled⟩)
          (fun _ _ filled => ⟨_, rfl, .nested slot inner reads filled⟩)
      apply filled.bind fun _ _ written => written
      intro _ s' _ tree' written
      exact written.next (rest.run_matches written.reads (written.within within))
  | .superEncoder slot body rest =>
      simp only [Calls.run, Calls.represent]
      have start : Holds s.heap.length []
          (s.referencing (State.codingKey (s.count address) slot)) none :=
        ⟨by simp [State.referencing], Nat.le_refl _, rfl⟩
      have encoded : Matches (fun _ s' _ => Written address s s') (Written address s)
          ((body.run (s.referencing (State.codingKey (s.count address) slot))).leave
            (s.finalize address slot (s.count address)))
          ((body.represent none).leave fun child => some (tree.put slot (child.getD .empty))) := by
        apply (body.run_matches start).leave
        · intro _ s' _ sofar kept
          obtain ⟨s'', finalized, written⟩ := Written.finalize slot reads kept.heap kept.holds
          exact ⟨s'', _, finalized, rfl, written⟩
        · intro s' sofar kept
          obtain ⟨s'', finalized, written⟩ := Written.finalize slot reads kept.heap kept.holds
          exact ⟨s'', _, finalized, rfl, written⟩
      apply encoded.bind fun _ _ written => written
      intro _ s' _ tree' written
      exact written.next (rest.run_matches written.reads (written.within within))
  | .attempt first rest =>
      simp only [Calls.run, Calls.represent]
      apply (first.run_matches reads within).recover
      · intro s' tree' written
        exact written.next (rest.run_matches written.reads (written.within within))
      · intro s' tree' written
        exact written.next (rest.run_matches written.reads (written.within within))

end

/-- The document a value stands for. -/
def document (type : String) (value : Encodable) :
    Outcome EncodingError Unit (List (String × Represented)) :=
  if value.allowed then
    value.represent.bind fun tree _ =>
      match tree with
      | none => .thrown (invalidValue type " did not encode any values.") ()
      | some (.dictionary entries) => .ok entries ()
      | some .empty => .ok [] ()
      | some _ => .thrown (invalidValue type " encoded not as dictionary.") ()
  else .thrown (invalidValue type " is not allowed.") ()

/-- With all its stacks and shared containers the encoder computes the document of a value. -/
theorem encode_document (type : String) (value : Encodable) :
    encode type value = document type value := by
  have matched := value.box_matches (show State.initial.containers.length +
    State.initial.inherited = State.initial.codingPath.length from rfl)
  unfold encode document
  split
  · cases left : value.box_ .initial <;> cases right : value.represent <;>
      simp only [left, right] at matched <;> cases matched
    case ok.ok.ok object s tree _ boxed =>
      have represents := boxed.represents
      cases object <;> cases tree
      case none.none => rfl
      case none.some => exact represents.elim
      case some.none => exact represents.elim
      case some.some object tree =>
        have reads : read s.heap s.heap.length object = some tree :=
          represents.read (Nat.le_add_left _ _)
        simp only [reads, Outcome.bind]
        cases tree <;> rfl
    case thrown.thrown.thrown => rfl
    case trap.trap.trap => rfl
  · rfl

/-- Whatever an `encode(to:)` does, throwing included, `box_` leaves the storage and the
    path as they were and no container that was there changed. It fails a precondition
    only where the value has no representation. -/
theorem box_restores (value : Encodable) {s : State}
    (within : s.containers.length + s.inherited = s.codingPath.length) :
    match value.box_ s with
    | .ok _ s' | .thrown _ s' => Restored s s'
    | .trap => value.represent = .trap := by
  have matched := value.box_matches within
  cases left : value.box_ s <;> cases right : value.represent <;>
    simp only [left, right] at matched <;> cases matched
  case ok.ok.ok boxed => exact boxed.restored
  case thrown.thrown.thrown restored => exact restored
  case trap.trap.trap => rfl

/-- A value that has filled half a dictionary when it throws, inside another dictionary. -/
theorem box_restores_thrown :
    ∃ s', (Encodable.custom (.container .keyed
        (.boxed (.key "name") (.string "Koda") (.throws (.other "full"))) .done)).box_
          ((State.initial.pushContainer .keyed).enter "pet") = .thrown (.other "full") s' ∧
      Restored ((State.initial.pushContainer .keyed).enter "pet") s' := by
  have restored := box_restores (.custom (.container .keyed
    (.boxed (.key "name") (.string "Koda") (.throws (.other "full"))) .done))
    (s := (State.initial.pushContainer .keyed).enter "pet") rfl
  exact ⟨_, rfl, restored⟩

end DogFoodTracker.Firestore.FirestoreEncoder
