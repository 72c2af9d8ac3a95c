import DogFoodTracker.Immutable.Erase
import DogFoodTracker.Immutable.LlrbNodeIterator
import Mathlib.Algebra.Ring.Nat
import Mathlib.Data.Nat.Log

/-! # Maps kept as trees

A tree map is a tree whose entries are in order, whose sizes are right and which is balanced.
Inserting and erasing keep it so, and every loop down the tree relies on it.
-/

namespace DogFoodTracker.Immutable

open SortedMap

variable {Key α : Type}

namespace LlrbNode

variable {n : LlrbNode Key α} {color : Color} {blacks : Nat}

/-! ## Depth -/

def height : LlrbNode Key α → Nat
  | leaf _ => 0
  | node _ _ left _ right => max left.height right.height + 1

theorem Balanced.height_le (balanced : Balanced n color blacks) :
    n.height ≤ 2 * blacks + (if color = .red then 1 else 0) := by
  induction balanced with
  | leaf => exact Nat.zero_le _
  | red _ _ ihl ihr =>
      simp only [reduceCtorEq, if_false] at ihl ihr
      simp only [height, if_true]
      omega
  | @black _ _ _ _ _ color _ _ ihl ihr =>
      simp only [reduceCtorEq, if_false] at ihr ⊢
      simp only [height]
      split at ihl <;> omega

theorem Balanced.two_pow_le (balanced : Balanced n color blacks) :
    2 ^ blacks ≤ n.toList.length + 1 := by
  induction balanced with
  | leaf => exact Nat.le_refl _
  | red _ _ ihl ihr =>
      simp only [toList_node, List.length_append, List.length_cons]
      omega
  | black _ _ ihl ihr =>
      simp only [toList_node, List.length_append, List.length_cons, pow_succ]
      omega

/-! ## Well-formed trees -/

section

variable [LinearOrder Key]

structure WellFormed (n : LlrbNode Key α) : Prop where
  sorted : Sorted n.toList
  sized : n.Sized
  balanced : ∃ blacks, Balanced n .black blacks

theorem wellFormed_empty : (empty : LlrbNode Key α).WellFormed :=
  ⟨List.Pairwise.nil, trivial, 0, .leaf⟩

theorem toList_insert (sorted : Sorted n.toList) (key : Key) (value : α) :
    (n.insert key value).toList = SortedMap.insert key value n.toList := by
  rw [LlrbNode.insert, toList_fixRootColor, toList_innerInsert sorted]

theorem WellFormed.insert (wellFormed : n.WellFormed) (key : Key) (value : α) :
    (n.insert key value).WellFormed where
  sorted := by
    rw [toList_insert wellFormed.sorted]
    exact wellFormed.sorted.insert key value
  sized := (wellFormed.sized.innerInsert key value).fixRootColor
  balanced := by
    obtain ⟨_, balanced⟩ := wellFormed.balanced
    exact (balanced.innerInsert key value).fixRootColor

theorem WellFormed.toList_erase (wellFormed : n.WellFormed) (key : Key) :
    (n.erase key).toList = SortedMap.erase key n.toList := by
  obtain ⟨_, balanced⟩ := wellFormed.balanced
  exact (balanced.erase wellFormed.sorted key).2

theorem WellFormed.erase (wellFormed : n.WellFormed) (key : Key) : (n.erase key).WellFormed where
  sorted := by
    rw [wellFormed.toList_erase]
    exact wellFormed.sorted.erase key
  sized := (wellFormed.sized.innerErase key).fixRootColor
  balanced := by
    obtain ⟨_, balanced⟩ := wellFormed.balanced
    exact (balanced.erase wellFormed.sorted key).1

theorem WellFormed.height_le (wellFormed : n.WellFormed) : n.height ≤ 2 * Nat.log 2 (n.size + 1) := by
  obtain ⟨blacks, balanced⟩ := wellFormed.balanced
  have deep := balanced.height_le
  have wide := balanced.two_pow_le
  rw [← wellFormed.sized.size] at wide
  have log := Nat.le_log_of_pow_le (by omega) wide
  simp only [reduceCtorEq, if_false] at deep
  omega

end

end LlrbNode

structure TreeSortedMap (Key α : Type) [LinearOrder Key] where
  root : LlrbNode Key α
  wellFormed : root.WellFormed

namespace TreeSortedMap

variable [LinearOrder Key]

def empty : TreeSortedMap Key α := ⟨.empty, LlrbNode.wellFormed_empty⟩

def insert (m : TreeSortedMap Key α) (key : Key) (value : α) : TreeSortedMap Key α :=
  ⟨m.root.insert key value, m.wellFormed.insert key value⟩

def erase (m : TreeSortedMap Key α) (key : Key) : TreeSortedMap Key α :=
  ⟨m.root.erase key, m.wellFormed.erase key⟩

def create (range : List (Key × α)) : TreeSortedMap Key α :=
  range.foldl (fun m element => m.insert element.1 element.2) empty

def size (m : TreeSortedMap Key α) : Nat := m.root.size

def toList (m : TreeSortedMap Key α) : List (Key × α) := m.root.toList

/-! ## Looking up -/

def isEmpty (m : TreeSortedMap Key α) : Bool := m.root.isEmpty

/-- The loop of `contains`. -/
def containsFrom (key : Key) : LlrbNode Key α → Bool
  | .leaf _ => false
  | .node _ _ left entry right =>
      match compare key entry.1 with
      | .eq => true
      | .lt => containsFrom key left
      | .gt => containsFrom key right

def contains (m : TreeSortedMap Key α) (key : Key) : Bool := containsFrom key m.root

def lowerBound (m : TreeSortedMap Key α) (key : Key) : LlrbNodeIterator Key α :=
  .lowerBound m.root key

def find (m : TreeSortedMap Key α) (key : Key) : LlrbNodeIterator Key α :=
  match (m.lowerBound key).get with
  | some entry => if compare key entry.1 = .eq then m.lowerBound key else .pastLast
  | none => .pastLast

/-- The loop of `find_index`, with the number of entries that are before the node. -/
def findIndexFrom (key : Key) : LlrbNode Key α → Nat → Option Nat
  | .leaf _, _ => none
  | .node _ _ left entry right, prunedNodes =>
      match compare key entry.1 with
      | .eq => some (prunedNodes + left.size)
      | .lt => findIndexFrom key left prunedNodes
      | .gt => findIndexFrom key right (prunedNodes + (left.size + 1))

/-- `none` is `npos`. -/
def findIndex (m : TreeSortedMap Key α) (key : Key) : Option Nat :=
  findIndexFrom key m.root 0

/-- What a loop over `keys_in` is given. -/
def keysIn (m : TreeSortedMap Key α) (startKey endKey : Key) : Option (List Key) :=
  if compare startKey endKey = .lt then
    LlrbNodeIterator.keysUntil (m.lowerBound endKey) m.size (m.lowerBound startKey)
  else LlrbNodeIterator.keysUntil (α := α) .pastLast m.size .pastLast

/-- What a loop over `keys` is given. -/
def keys (m : TreeSortedMap Key α) : Option (List Key) :=
  LlrbNodeIterator.keysUntil (α := α) .pastLast m.size (.begin m.root)

variable {n : LlrbNode Key α}

theorem containsFrom_eq (sorted : Sorted n.toList) (key : Key) :
    containsFrom key n = (SortedMap.find key n.toList).isSome := by
  induction n with
  | leaf => rfl
  | node color size left entry right ihl ihr =>
      obtain ⟨leftSorted, rightSorted, earlier, later⟩ := sorted_around.mp sorted
      rw [containsFrom, LlrbNode.toList_node]
      cases order : compare key entry.1 with
      | eq => rw [find_here earlier (compare_eq_iff_eq.mp order).symm, Option.isSome_some]
      | lt =>
          rw [find_before (compare_lt_iff_lt.mp order) later]
          exact ihl leftSorted
      | gt =>
          rw [find_after earlier (compare_gt_iff_gt.mp order)]
          exact ihr rightSorted

theorem findIndexFrom_eq (sorted : Sorted n.toList) (sized : n.Sized) (key : Key)
    (prunedNodes : Nat) :
    findIndexFrom key n prunedNodes =
      (n.toList.findIdx? fun entry => entry.1 = key).map (prunedNodes + ·) := by
  induction n generalizing prunedNodes with
  | leaf => rfl
  | node color size left entry right ihl ihr =>
      obtain ⟨leftSorted, rightSorted, earlier, later⟩ := sorted_around.mp sorted
      obtain ⟨leftSized, rightSized, -⟩ := sized
      rw [findIndexFrom, LlrbNode.toList_node, List.findIdx?_append, List.findIdx?_cons]
      have absent : ∀ {part : List (Key × α)}, (∀ other ∈ part, other.1 ≠ key) →
          (part.findIdx? fun other => other.1 = key) = none := by
        intro part apart
        rw [List.findIdx?_eq_none_iff]
        intro other member
        simpa using apart other member
      cases order : compare key entry.1 with
      | eq =>
          have same := (compare_eq_iff_eq.mp order).symm
          rw [absent fun other member => ne_of_lt (same ▸ earlier other member)]
          simp [same, leftSized.size]
      | lt =>
          have less := compare_lt_iff_lt.mp order
          rw [if_neg (by simpa using ne_of_gt less),
            absent fun other member => ne_of_gt (less.trans (later other member)),
            Option.map_none, Option.map_none, Option.or_none]
          exact ihl leftSorted leftSized prunedNodes
      | gt =>
          have greater := compare_gt_iff_gt.mp order
          rw [if_neg (by simpa using ne_of_lt greater),
            absent fun other member => ne_of_lt ((earlier other member).trans greater),
            Option.none_or]
          simp only
          rw [ihr rightSorted rightSized, leftSized.size, Option.map_map, Option.map_map]
          congr 1
          funext index
          simp only [Function.comp_apply]
          omega

theorem sorted (m : TreeSortedMap Key α) : Sorted m.toList := m.wellFormed.sorted

theorem contains_eq (m : TreeSortedMap Key α) (key : Key) :
    m.contains key = (SortedMap.find key m.toList).isSome :=
  containsFrom_eq m.wellFormed.sorted key

theorem findIndex_eq (m : TreeSortedMap Key α) (key : Key) :
    m.findIndex key = m.toList.findIdx? fun entry => entry.1 = key := by
  rw [findIndex, findIndexFrom_eq m.wellFormed.sorted m.wellFormed.sized]
  simp [toList]

theorem size_eq (m : TreeSortedMap Key α) : m.size = m.toList.length :=
  m.wellFormed.sized.size

theorem isEmpty_eq (m : TreeSortedMap Key α) : m.isEmpty = m.toList.isEmpty := by
  rw [isEmpty, toList]
  cases m.root with
  | leaf => rfl
  | node => simp [LlrbNode.isEmpty]

theorem lowerBound_spec (m : TreeSortedMap Key α) (key : Key) :
    (m.lowerBound key).Standing ∧
      (m.lowerBound key).pending = SortedMap.lowerBound key m.toList :=
  LlrbNodeIterator.lowerBound_spec key m.wellFormed.sorted

/-- What `find` stands at has the key, and there is such an entry unless it is the end. -/
theorem find_get (m : TreeSortedMap Key α) (key : Key) :
    ((m.find key).get).map Prod.snd = SortedMap.find key m.toList := by
  obtain ⟨standing, pending⟩ := m.lowerBound_spec key
  rw [find_lowerBound m.sorted, ← pending, ← LlrbNodeIterator.get_eq standing, find]
  cases found : (m.lowerBound key).get with
  | none => rfl
  | some entry =>
      simp only [compare_eq_iff_eq]
      by_cases same : key = entry.1
      · rw [if_pos same, found, Option.filter_some, if_pos (by simpa using same.symm)]
      · rw [if_neg same, Option.filter_some, if_neg (by simpa using Ne.symm same)]
        rfl

theorem keysIn_eq (m : TreeSortedMap Key α) (startKey endKey : Key) :
    m.keysIn startKey endKey =
      some ((m.toList.filter fun entry => startKey ≤ entry.1 ∧ entry.1 < endKey).map Prod.fst) := by
  obtain ⟨startStanding, fromStart⟩ := m.lowerBound_spec startKey
  obtain ⟨stopStanding, fromStop⟩ := m.lowerBound_spec endKey
  rw [keysIn]
  split
  · rename_i order
    have less := compare_lt_iff_lt.mp order
    apply LlrbNodeIterator.keysUntil_eq startStanding stopStanding
    · rw [fromStart, fromStop]
      exact lowerBound_split m.sorted less
    · rw [fromStart]
      exact m.sorted.lowerBound startKey
    · rw [size_eq]
      exact List.length_filter_le _ _
  · rename_i order
    have none : m.toList.filter (fun entry => startKey ≤ entry.1 ∧ entry.1 < endKey) = [] := by
      rw [List.filter_eq_nil_iff]
      intro entry _ inside
      obtain ⟨reached, before⟩ := of_decide_eq_true inside
      exact order (compare_lt_iff_lt.mpr (reached.trans_lt before))
    rw [none]
    cases m.size <;> rfl

theorem keys_eq (m : TreeSortedMap Key α) : m.keys = some (m.toList.map Prod.fst) := by
  obtain ⟨standing, pending⟩ := LlrbNodeIterator.begin_spec m.root
  apply LlrbNodeIterator.keysUntil_eq standing LlrbNodeIterator.standing_nil
  · rw [pending]
    exact (List.append_nil _).symm
  · rw [pending]
    exact m.sorted
  · exact le_of_eq m.size_eq.symm

theorem toList_create (range : List (Key × α)) :
    (create range).toList =
      range.foldl (fun entries element => SortedMap.insert element.1 element.2 entries) [] := by
  have from_ : ∀ m : TreeSortedMap Key α,
      (range.foldl (fun m element => m.insert element.1 element.2) m).toList =
        range.foldl (fun entries element => SortedMap.insert element.1 element.2 entries)
          m.toList := by
    induction range with
    | nil => exact fun _ => rfl
    | cons element rest ih =>
        intro m
        rw [List.foldl_cons, List.foldl_cons, ih]
        congr 1
        exact LlrbNode.toList_insert m.wellFormed.sorted _ _
  exact from_ empty

end TreeSortedMap

end DogFoodTracker.Immutable
