import Mathlib.Data.List.Basic

/-! # Mutable containers by reference, and the trees they hold

A heap of dictionaries and arrays that refer to each other by address. A container only
ever comes to hold containers younger than itself, so an object can be read as a tree,
and a write to one container, or anything that happens to younger ones, changes just
the part of the tree that hangs below it.
-/

namespace Containers

variable {Key Leaf α : Type*}

inductive Kind where
  | keyed
  | unkeyed
  deriving DecidableEq, Repr

/-- Where a container is written: under a key, or after its last element. -/
inductive Slot (Key : Type*) : Kind → Type _ where
  | key (key : Key) : Slot Key .keyed
  | next : Slot Key .unkeyed

/-- What a container holds; `empty` is a dictionary that nothing can be added to. -/
inductive Object (Leaf : Type*) where
  | leaf (value : Leaf)
  | empty
  | reference (address : Nat)
  deriving DecidableEq, Repr

inductive Cell (Key Leaf : Type*) where
  | dictionary (entries : List (Key × Object Leaf))
  | array (elements : List (Object Leaf))
  deriving DecidableEq, Repr

abbrev Heap (Key Leaf : Type*) := List (Cell Key Leaf)

inductive Tree (Key Leaf : Type*) where
  | leaf (value : Leaf)
  | empty
  | dictionary (entries : List (Key × Tree Key Leaf))
  | array (elements : List (Tree Key Leaf))

/-! ## Entries -/

section Entries

variable [DecidableEq Key]

/-- Set the value of a key, in its place if it has one. -/
def setEntry (key : Key) (value : α) : List (Key × α) → List (Key × α)
  | [] => [(key, value)]
  | entry :: rest => if entry.1 = key then (key, value) :: rest else entry :: setEntry key value rest

theorem lookup_entry (key other : Key) (value : α) (rest : List (Key × α)) :
    List.lookup other ((key, value) :: rest) =
      if other = key then some value else rest.lookup other := by
  by_cases same : other = key
  · rw [List.lookup_cons, beq_iff_eq.mpr same, if_pos same]
  · rw [List.lookup_cons, beq_eq_false_iff_ne.mpr same, if_neg same]

theorem setEntry_new {key : Key} {entries : List (Key × α)} (new : key ∉ entries.map Prod.fst)
    (value : α) : setEntry key value entries = entries ++ [(key, value)] := by
  induction entries with
  | nil => rfl
  | cons entry rest ih =>
      simp only [List.map_cons, List.mem_cons, not_or] at new
      simp only [setEntry, if_neg (Ne.symm new.1), ih new.2, List.cons_append]

end Entries

/-! ## Cells and trees -/

namespace Cell

def fresh : Kind → Cell Key Leaf
  | .keyed => .dictionary []
  | .unkeyed => .array []

def kind : Cell Key Leaf → Kind
  | .dictionary _ => .keyed
  | .array _ => .unkeyed

def count : Cell Key Leaf → Nat
  | .dictionary entries => entries.length
  | .array elements => elements.length

variable [DecidableEq Key]

/-- A slot of the other kind writes nothing. -/
def put (cell : Cell Key Leaf) {kind : Kind} (slot : Slot Key kind) (object : Object Leaf) :
    Cell Key Leaf :=
  match cell, slot with
  | .dictionary entries, .key key => .dictionary (setEntry key object entries)
  | .array elements, .next => .array (elements ++ [object])
  | cell, _ => cell

/-- Insert an element before the one at an index. -/
def insert (index : Nat) (object : Object Leaf) : Cell Key Leaf → Cell Key Leaf
  | .array elements => .array (elements.insertIdx index object)
  | .dictionary entries => .dictionary entries

/-- At the end of an array, inserting is adding. -/
theorem insert_count (cell : Cell Key Leaf) (object : Object Leaf) :
    cell.insert cell.count object = cell.put .next object := by
  cases cell with
  | dictionary entries => rfl
  | array elements => simp [insert, count, put, List.insertIdx_length_self]

end Cell

namespace Tree

def fresh : Kind → Tree Key Leaf
  | .keyed => .dictionary []
  | .unkeyed => .array []

/-- The kind of a container that can be written to. -/
def kind : Tree Key Leaf → Option Kind
  | .dictionary _ => some .keyed
  | .array _ => some .unkeyed
  | .leaf _ | .empty => none

def count : Tree Key Leaf → Nat
  | .dictionary entries => entries.length
  | .array elements => elements.length
  | .leaf _ | .empty => 0

variable [DecidableEq Key]

def put (tree : Tree Key Leaf) {kind : Kind} (slot : Slot Key kind) (child : Tree Key Leaf) :
    Tree Key Leaf :=
  match tree, slot with
  | .dictionary entries, .key key => .dictionary (setEntry key child entries)
  | .array elements, .next => .array (elements ++ [child])
  | tree, _ => tree

end Tree

/-! ## Reading a heap -/

mutual

/-- The object stands for the tree; it and what it refers to are at `low` or above. -/
inductive Reads (heap : Heap Key Leaf) : Nat → Object Leaf → Tree Key Leaf → Prop where
  | leaf (low : Nat) (value : Leaf) : Reads heap low (.leaf value) (.leaf value)
  | empty (low : Nat) : Reads heap low .empty .empty
  | dictionary (low address : Nat) (entries : List (Key × Object Leaf))
      (children : List (Key × Tree Key Leaf)) (above : low ≤ address)
      (cell : heap[address]? = some (.dictionary entries))
      (contents : ReadsEntries heap (address + 1) entries children) :
      Reads heap low (.reference address) (.dictionary children)
  | array (low address : Nat) (elements : List (Object Leaf)) (children : List (Tree Key Leaf))
      (above : low ≤ address) (cell : heap[address]? = some (.array elements))
      (contents : ReadsElements heap (address + 1) elements children) :
      Reads heap low (.reference address) (.array children)

inductive ReadsEntries (heap : Heap Key Leaf) :
    Nat → List (Key × Object Leaf) → List (Key × Tree Key Leaf) → Prop where
  | nil (low : Nat) : ReadsEntries heap low [] []
  | cons (low : Nat) (key : Key) (object : Object Leaf) (child : Tree Key Leaf)
      (entries : List (Key × Object Leaf)) (children : List (Key × Tree Key Leaf))
      (first : Reads heap low object child) (rest : ReadsEntries heap low entries children) :
      ReadsEntries heap low ((key, object) :: entries) ((key, child) :: children)

inductive ReadsElements (heap : Heap Key Leaf) :
    Nat → List (Object Leaf) → List (Tree Key Leaf) → Prop where
  | nil (low : Nat) : ReadsElements heap low [] []
  | cons (low : Nat) (object : Object Leaf) (child : Tree Key Leaf)
      (elements : List (Object Leaf)) (children : List (Tree Key Leaf))
      (first : Reads heap low object child) (rest : ReadsElements heap low elements children) :
      ReadsElements heap low (object :: elements) (child :: children)

end

/-- The second heap has the cells of the first, those of `kept` unchanged, and maybe more. -/
structure Keeps (kept : Nat → Prop) (heap heap' : Heap Key Leaf) : Prop where
  grows : heap.length ≤ heap'.length
  same : ∀ address, address < heap.length → kept address → heap'[address]? = heap[address]?

namespace Keeps

variable {kept kept' : Nat → Prop} {heap heap' heap'' : Heap Key Leaf}

theorem refl (kept : Nat → Prop) (heap : Heap Key Leaf) : Keeps kept heap heap :=
  ⟨Nat.le_refl _, fun _ _ _ => rfl⟩

theorem trans (first : Keeps kept heap heap') (second : Keeps kept heap' heap'') :
    Keeps kept heap heap'' where
  grows := Nat.le_trans first.grows second.grows
  same address inside held :=
    (second.same address (Nat.lt_of_lt_of_le inside first.grows) held).trans
      (first.same address inside held)

theorem mono (keeps : Keeps kept heap heap')
    (fewer : ∀ address, address < heap.length → kept' address → kept address) :
    Keeps kept' heap heap' :=
  ⟨keeps.grows, fun address inside held => keeps.same address inside (fewer address inside held)⟩

theorem append (kept : Nat → Prop) (heap more : Heap Key Leaf) : Keeps kept heap (heap ++ more) where
  grows := by simp
  same _ inside _ := List.getElem?_append_left inside

theorem modify (heap : Heap Key Leaf) (address : Nat) (change : Cell Key Leaf → Cell Key Leaf) :
    Keeps (· ≠ address) heap (heap.modify address change) where
  grows := by simp
  same other _ apart := by simp [Ne.symm apart]

theorem cell (keeps : Keeps kept heap heap') {address : Nat} {cell : Cell Key Leaf}
    (held : kept address) (there : heap[address]? = some cell) : heap'[address]? = some cell :=
  (keeps.same address (List.getElem?_eq_some_iff.mp there).1 held).trans there

end Keeps

mutual

/-- What an object reads as depends on the cells at `low` and above only. -/
theorem Reads.keeps {low : Nat} {heap heap' : Heap Key Leaf} {object : Object Leaf}
    {tree : Tree Key Leaf} (reads : Reads heap low object tree) (keeps : Keeps (low ≤ ·) heap heap') :
    Reads heap' low object tree := by
  cases reads with
  | leaf _ value => exact .leaf _ value
  | empty => exact .empty _
  | dictionary _ address entries children above cell contents =>
      exact .dictionary _ address entries children above (keeps.cell above cell)
        (contents.keeps (keeps.mono (by omega)))
  | array _ address elements children above cell contents =>
      exact .array _ address elements children above (keeps.cell above cell)
        (contents.keeps (keeps.mono (by omega)))

theorem ReadsEntries.keeps {low : Nat} {heap heap' : Heap Key Leaf}
    {entries : List (Key × Object Leaf)} {children : List (Key × Tree Key Leaf)}
    (reads : ReadsEntries heap low entries children) (keeps : Keeps (low ≤ ·) heap heap') :
    ReadsEntries heap' low entries children := by
  cases reads with
  | nil => exact .nil _
  | cons _ key object child entries children first rest =>
      exact .cons _ key object child entries children (first.keeps keeps) (rest.keeps keeps)

theorem ReadsElements.keeps {low : Nat} {heap heap' : Heap Key Leaf}
    {elements : List (Object Leaf)} {children : List (Tree Key Leaf)}
    (reads : ReadsElements heap low elements children) (keeps : Keeps (low ≤ ·) heap heap') :
    ReadsElements heap' low elements children := by
  cases reads with
  | nil => exact .nil _
  | cons _ object child elements children first rest =>
      exact .cons _ object child elements children (first.keeps keeps) (rest.keeps keeps)

end

theorem ReadsEntries.length {low : Nat} {heap : Heap Key Leaf} {entries : List (Key × Object Leaf)}
    {children : List (Key × Tree Key Leaf)} (reads : ReadsEntries heap low entries children) :
    children.length = entries.length := by
  induction entries generalizing children with
  | nil =>
      cases reads
      rfl
  | cons entry entries ih =>
      cases reads with
      | cons _ key object child _ children first rest => simp [ih rest]

theorem ReadsElements.length {low : Nat} {heap : Heap Key Leaf} {elements : List (Object Leaf)}
    {children : List (Tree Key Leaf)} (reads : ReadsElements heap low elements children) :
    children.length = elements.length := by
  induction elements generalizing children with
  | nil =>
      cases reads
      rfl
  | cons element elements ih =>
      cases reads with
      | cons _ object child _ children first rest => simp [ih rest]

theorem Reads.lower {low low' : Nat} {heap : Heap Key Leaf} {object : Object Leaf}
    {tree : Tree Key Leaf} (reads : Reads heap low object tree) (le : low' ≤ low) :
    Reads heap low' object tree := by
  cases reads with
  | leaf _ value => exact .leaf _ value
  | empty => exact .empty _
  | dictionary _ address entries children above cell contents =>
      exact .dictionary _ address entries children (Nat.le_trans le above) cell contents
  | array _ address elements children above cell contents =>
      exact .array _ address elements children (Nat.le_trans le above) cell contents

/-- A container that is read is a cell of the tree's kind and size. -/
theorem Reads.cell {low address : Nat} {heap : Heap Key Leaf} {tree : Tree Key Leaf}
    (reads : Reads heap low (.reference address) tree) :
    ∃ cell, heap[address]? = some cell ∧ low ≤ address ∧ tree.kind = some cell.kind ∧
      tree.count = cell.count ∧ Reads heap address (.reference address) tree := by
  cases reads with
  | dictionary _ _ entries children above cell contents =>
      exact ⟨_, cell, above, rfl, contents.length, .dictionary _ _ _ _ (Nat.le_refl _) cell contents⟩
  | array _ _ elements children above cell contents =>
      exact ⟨_, cell, above, rfl, contents.length, .array _ _ _ _ (Nat.le_refl _) cell contents⟩

theorem Reads.fresh (heap : Heap Key Leaf) (kind : Kind) (rest : Heap Key Leaf) :
    Reads (heap ++ Cell.fresh kind :: rest) heap.length (.reference heap.length)
      (Tree.fresh kind) := by
  cases kind with
  | keyed => exact .dictionary _ _ [] [] (Nat.le_refl _) (by simp [Cell.fresh]) (.nil _)
  | unkeyed => exact .array _ _ [] [] (Nat.le_refl _) (by simp [Cell.fresh]) (.nil _)

theorem ReadsElements.append {low : Nat} {heap : Heap Key Leaf} {elements : List (Object Leaf)}
    {children : List (Tree Key Leaf)} (reads : ReadsElements heap low elements children)
    {object : Object Leaf} {child : Tree Key Leaf} (added : Reads heap low object child) :
    ReadsElements heap low (elements ++ [object]) (children ++ [child]) := by
  induction elements generalizing children with
  | nil =>
      cases reads
      exact .cons _ _ _ _ _ added (.nil _)
  | cons element elements ih =>
      cases reads with
      | cons _ _ firstChild _ children head rest => exact .cons _ _ _ _ _ head (ih rest)

section Put

variable [DecidableEq Key]

theorem ReadsEntries.set {low : Nat} {heap : Heap Key Leaf} {entries : List (Key × Object Leaf)}
    {children : List (Key × Tree Key Leaf)} (reads : ReadsEntries heap low entries children)
    (key : Key) {object : Object Leaf} {child : Tree Key Leaf}
    (added : Reads heap low object child) :
    ReadsEntries heap low (setEntry key object entries) (setEntry key child children) := by
  induction entries generalizing children with
  | nil =>
      cases reads
      exact .cons _ _ _ _ _ _ added (.nil _)
  | cons entry entries ih =>
      cases reads with
      | cons _ other old oldChild _ children first rest =>
          simp only [setEntry]
          split
          · exact .cons _ _ _ _ _ _ added rest
          · exact .cons _ _ _ _ _ _ first (ih rest)

/-- Writing an object into a container puts the object's tree into the container's,
    whatever else happened to younger cells in between. -/
theorem Reads.put {address : Nat} {heap heap' : Heap Key Leaf} {tree : Tree Key Leaf} {kind : Kind}
    (slot : Slot Key kind) {object : Object Leaf} {child : Tree Key Leaf}
    (reads : Reads heap address (.reference address) tree) (keeps : Keeps (address + 1 ≤ ·) heap heap')
    (written : heap'[address]? = heap[address]?.map (·.put slot object))
    (added : Reads heap' (address + 1) object child) :
    Reads heap' address (.reference address) (tree.put slot child) := by
  cases reads with
  | dictionary _ _ entries children above cell contents =>
      rw [cell, Option.map_some] at written
      cases slot with
      | key key =>
          exact .dictionary _ _ _ _ above written ((contents.keeps keeps).set key added)
      | next => exact .dictionary _ _ _ _ above written (contents.keeps keeps)
  | array _ _ elements children above cell contents =>
      rw [cell, Option.map_some] at written
      cases slot with
      | key key => exact .array _ _ _ _ above written (contents.keeps keeps)
      | next => exact .array _ _ _ _ above written ((contents.keeps keeps).append added)

end Put

/-! ## Reading by evaluation -/

/-- The tree below an object, if the fuel reaches its leaves. -/
def read (heap : Heap Key Leaf) : Nat → Object Leaf → Option (Tree Key Leaf)
  | _, .leaf value => some (.leaf value)
  | _, .empty => some .empty
  | 0, .reference _ => none
  | fuel + 1, .reference address =>
      match heap[address]? with
      | none => none
      | some (.dictionary entries) =>
          (entries.mapM fun entry => (read heap fuel entry.2).map (entry.1, ·)).map .dictionary
      | some (.array elements) => (elements.mapM (read heap fuel)).map .array

mutual

/-- Addresses grow on the way down, so the heap's size is fuel enough. -/
theorem Reads.read {low fuel : Nat} {heap : Heap Key Leaf} {object : Object Leaf}
    {tree : Tree Key Leaf} (reads : Reads heap low object tree) (enough : heap.length ≤ low + fuel) :
    read heap fuel object = some tree := by
  cases reads with
  | leaf _ value => cases fuel <;> rfl
  | empty => cases fuel <;> rfl
  | dictionary _ address entries children above cell contents =>
      have inside := (List.getElem?_eq_some_iff.mp cell).1
      cases fuel with
      | zero => omega
      | succ fuel =>
          have below := contents.read (show heap.length ≤ address + 1 + fuel by omega)
          simp only [Containers.read, cell, below, Option.map_some]
  | array _ address elements children above cell contents =>
      have inside := (List.getElem?_eq_some_iff.mp cell).1
      cases fuel with
      | zero => omega
      | succ fuel =>
          have below := contents.read (show heap.length ≤ address + 1 + fuel by omega)
          simp only [Containers.read, cell, below, Option.map_some]

theorem ReadsEntries.read {low fuel : Nat} {heap : Heap Key Leaf}
    {entries : List (Key × Object Leaf)} {children : List (Key × Tree Key Leaf)}
    (reads : ReadsEntries heap low entries children) (enough : heap.length ≤ low + fuel) :
    (entries.mapM fun entry => (Containers.read heap fuel entry.2).map (entry.1, ·)) =
      some children := by
  cases reads with
  | nil => rfl
  | cons _ key object child entries children first rest =>
      simp only [List.mapM_cons, first.read enough, rest.read enough, Option.map_some, bind,
        Option.bind, pure]

theorem ReadsElements.read {low fuel : Nat} {heap : Heap Key Leaf}
    {elements : List (Object Leaf)} {children : List (Tree Key Leaf)}
    (reads : ReadsElements heap low elements children) (enough : heap.length ≤ low + fuel) :
    elements.mapM (Containers.read heap fuel) = some children := by
  cases reads with
  | nil => rfl
  | cons _ object child elements children first rest =>
      simp only [List.mapM_cons, first.read enough, rest.read enough, bind, Option.bind, pure]

end

end Containers
