import DogFoodTracker.Immutable.ArraySortedMap
import DogFoodTracker.Immutable.TreeSortedMap

/-! # Immutable sorted maps

A map starts as an array, becomes a tree when it may outgrow it and an array again when it
is empty. Whichever it is, after any changes it reads like the list of its entries.
-/

namespace DogFoodTracker.Immutable

variable {Key α : Type} [LinearOrder Key]

/-! ## What a map is for -/

inductive Change (Key α : Type) where
  | insert (key : Key) (value : α)
  | erase (key : Key)

/-- A change to the entries in order. -/
def Change.effect (entries : List (Key × α)) : Change Key α → List (Key × α)
  | .insert key value => SortedMap.insert key value entries
  | .erase key => SortedMap.erase key entries

/-- The entries after changes to the empty map. -/
def contents (changes : List (Change Key α)) : List (Key × α) :=
  changes.foldl Change.effect []

theorem Change.sorted_effect {entries : List (Key × α)} (sorted : SortedMap.Sorted entries)
    (change : Change Key α) : SortedMap.Sorted (change.effect entries) := by
  cases change with
  | insert key value => exact sorted.insert key value
  | erase key => exact sorted.erase key

/-! ## Trees -/

def TreeSortedMap.change (m : TreeSortedMap Key α) : Change Key α → TreeSortedMap Key α
  | .insert key value => m.insert key value
  | .erase key => m.erase key

theorem TreeSortedMap.toList_change (m : TreeSortedMap Key α) (change : Change Key α) :
    (m.change change).toList = change.effect m.toList := by
  cases change with
  | insert key value => exact LlrbNode.toList_insert m.sorted key value
  | erase key => exact m.wellFormed.toList_erase key

/-- After any insertions and erasures a tree holds what they leave, in order, and no way down
    is longer than twice the logarithm of its size. -/
theorem tree_contents (changes : List (Change Key α)) :
    (changes.foldl TreeSortedMap.change TreeSortedMap.empty).toList = contents changes ∧
      (changes.foldl TreeSortedMap.change TreeSortedMap.empty).root.height ≤
        2 * Nat.log 2 ((contents changes).length + 1) := by
  have holds : ∀ m : TreeSortedMap Key α, (changes.foldl TreeSortedMap.change m).toList =
      changes.foldl Change.effect m.toList := by
    induction changes with
    | nil => exact fun _ => rfl
    | cons change rest ih =>
        intro m
        rw [List.foldl_cons, List.foldl_cons, ih, TreeSortedMap.toList_change]
  have same := holds TreeSortedMap.empty
  refine ⟨same, ?_⟩
  rw [contents, ← show _ = changes.foldl Change.effect [] from same, ← TreeSortedMap.size_eq]
  exact (TreeSortedMap.wellFormed _).height_le

/-! ## Arrays and trees -/

inductive SortedMap (Key α : Type) [LinearOrder Key] where
  | array (array : ArraySortedMap Key α)
  | tree (tree : TreeSortedMap Key α)

namespace SortedMap

def empty : SortedMap Key α := .array FixedArray.empty

def insert [DecidableEq α] (m : SortedMap Key α) (key : Key) (value : α) :
    Except String (SortedMap Key α) :=
  match m with
  | .array small =>
      -- A full array becomes a tree even if the key is in it already.
      if kFixedSize ≤ small.size then .ok (.tree ((TreeSortedMap.create small.val).insert key value))
      else do return .array (← small.insert key value)
  | .tree large => .ok (.tree (large.insert key value))

def erase (m : SortedMap Key α) (key : Key) : Except String (SortedMap Key α) :=
  match m with
  | .array small => do return .array (← small.erase key)
  | .tree large => .ok (if (large.erase key).isEmpty then empty else .tree (large.erase key))

def change [DecidableEq α] (m : SortedMap Key α) : Change Key α → Except String (SortedMap Key α)
  | .insert key value => m.insert key value
  | .erase key => m.erase key

def isEmpty : SortedMap Key α → Bool
  | .array small => small.size = 0
  | .tree large => large.isEmpty

def size : SortedMap Key α → Nat
  | .array small => small.size
  | .tree large => large.size

def contains (m : SortedMap Key α) (key : Key) : Bool :=
  match m with
  | .array small => small.contains key
  | .tree large => large.contains key

/-- The value of the entry that `find` stands at. -/
def get (m : SortedMap Key α) (key : Key) : Option α :=
  match m with
  | .array small => (small.find key).map Prod.snd
  | .tree large => (large.find key).get.map Prod.snd

def findIndex (m : SortedMap Key α) (key : Key) : Option Nat :=
  match m with
  | .array small => small.findIndex key
  | .tree large => large.findIndex key

def keys : SortedMap Key α → Option (List Key)
  | .array small => some small.keys
  | .tree large => large.keys

def keysIn (m : SortedMap Key α) (startKey endKey : Key) : Option (List Key) :=
  match m with
  | .array small => some (small.keysIn startKey endKey)
  | .tree large => large.keysIn startKey endKey

def toList : SortedMap Key α → List (Key × α)
  | .array small => small.val
  | .tree large => large.toList

variable {m : SortedMap Key α}

theorem change_spec [DecidableEq α] (sorted : SortedMap.Sorted m.toList) (change : Change Key α) :
    ∃ m', m.change change = .ok m' ∧ m'.toList = change.effect m.toList := by
  cases m with
  | tree large =>
      cases change with
      | insert key value => exact ⟨_, rfl, large.toList_change (.insert key value)⟩
      | erase key =>
          have erased := large.toList_change (.erase key)
          refine ⟨_, rfl, ?_⟩
          split
          · rename_i none
            rw [TreeSortedMap.isEmpty_eq, List.isEmpty_iff] at none
            exact none.symm.trans erased
          · exact erased
  | array small =>
      cases change with
      | insert key value =>
          rw [change, insert]
          by_cases full : kFixedSize ≤ small.size
          · refine ⟨_, if_pos full, ?_⟩
            have created : (TreeSortedMap.create small.val).toList = small.val := by
              rw [TreeSortedMap.toList_create]
              exact sorted.foldl_insert
            exact (TreeSortedMap.toList_change _ (.insert key value)).trans (by rw [created]; rfl)
          · obtain ⟨small', inserted, content⟩ :=
              ArraySortedMap.insert_spec (not_le.mp full) sorted key value
            refine ⟨.array small', ?_, content⟩
            rw [if_neg full, inserted]
            rfl
      | erase key =>
          obtain ⟨small', erased, content⟩ := ArraySortedMap.erase_spec sorted key
          refine ⟨.array small', ?_, content⟩
          rw [change, erase, erased]
          rfl

/-- Every way to read the map reads these entries. -/
structure Reads (m : SortedMap Key α) (entries : List (Key × α)) : Prop where
  isEmpty : m.isEmpty = entries.isEmpty
  size : m.size = entries.length
  contains : ∀ key, m.contains key = (SortedMap.find key entries).isSome
  get : ∀ key, m.get key = SortedMap.find key entries
  findIndex : ∀ key, m.findIndex key = entries.findIdx? fun entry => entry.1 = key
  keys : m.keys = some (entries.map Prod.fst)
  keysIn : ∀ startKey endKey, m.keysIn startKey endKey =
    some ((entries.filter fun entry => startKey ≤ entry.1 ∧ entry.1 < endKey).map Prod.fst)

theorem reads (sorted : SortedMap.Sorted m.toList) : m.Reads m.toList := by
  cases m with
  | tree large => exact {
      isEmpty := large.isEmpty_eq
      size := large.size_eq
      contains := large.contains_eq
      get := large.find_get
      findIndex := large.findIndex_eq
      keys := large.keys_eq
      keysIn := large.keysIn_eq }
  | array small => exact {
      isEmpty := by
        change decide (small.val.length = 0) = small.val.isEmpty
        cases small.val <;> rfl
      size := rfl
      contains := by
        intro key
        rw [toList, ← ArraySortedMap.find_eq, Option.isSome_map]
        rfl
      get := small.find_eq
      findIndex := small.findIndex_eq
      keys := rfl
      keysIn := fun startKey endKey => congrArg some (ArraySortedMap.keysIn_eq sorted startKey endKey) }

end SortedMap

/-- Any insertions and erasures succeed on a map that starts empty, whatever it turns into on
    the way, and the map then reads like the entries they leave. -/
theorem sorted_map_reads [DecidableEq α] (changes : List (Change Key α)) :
    ∃ m, changes.foldlM SortedMap.change SortedMap.empty = .ok m ∧ m.Reads (contents changes) := by
  have runs : ∀ m : SortedMap Key α, SortedMap.Sorted m.toList →
      ∃ m', changes.foldlM SortedMap.change m = .ok m' ∧ SortedMap.Sorted m'.toList ∧
        m'.toList = changes.foldl Change.effect m.toList := by
    induction changes with
    | nil => exact fun m sorted => ⟨m, rfl, sorted, rfl⟩
    | cons change rest ih =>
        intro m sorted
        obtain ⟨next, stepped, content⟩ := SortedMap.change_spec sorted change
        have nextSorted : SortedMap.Sorted next.toList := by
          rw [content]
          exact Change.sorted_effect sorted change
        obtain ⟨m', ran, sorted', content'⟩ := ih next nextSorted
        refine ⟨m', ?_, sorted', ?_⟩
        · rw [List.foldlM_cons, stepped]
          exact ran
        · rw [content', content, List.foldl_cons]
  obtain ⟨m, ran, sorted, content⟩ := runs SortedMap.empty List.Pairwise.nil
  refine ⟨m, ran, ?_⟩
  rw [contents, ← show m.toList = changes.foldl Change.effect [] from content]
  exact SortedMap.reads sorted

end DogFoodTracker.Immutable
