import DogFoodTracker.Storage.SortedMap

/-! # Maps kept as arrays

Small maps are arrays in the order of their keys. An array cannot grow past its fixed size:
a copy that would is an assertion that fails.
-/

namespace DogFoodTracker.Immutable

open SortedMap

variable {Key α : Type}

def kFixedSize : Nat := 25

/-- What fits into the array is part of its type. -/
def FixedArray (α : Type) : Type := { contents : List α // contents.length ≤ kFixedSize }

namespace FixedArray

def empty : FixedArray α := ⟨[], Nat.zero_le _⟩

def append (array : FixedArray α) (source : List α) : Except String (FixedArray α) :=
  if fits : (array.val ++ source).length ≤ kFixedSize then .ok ⟨array.val ++ source, fits⟩
  else .error "new_size <= SortedMapBase::kFixedSize"

theorem append_ok (array : FixedArray α) (source : List α)
    (fits : (array.val ++ source).length ≤ kFixedSize) :
    ∃ copy, array.append source = .ok copy ∧ copy.val = array.val ++ source :=
  ⟨_, dif_pos fits, rfl⟩

end FixedArray

abbrev ArraySortedMap (Key α : Type) := FixedArray (Key × α)

namespace ArraySortedMap

def size (m : ArraySortedMap Key α) : Nat := m.val.length

section

variable [LinearOrder Key]

/-- The entries before the position that `lower_bound` finds. -/
def before (m : ArraySortedMap Key α) (key : Key) : List (Key × α) :=
  m.val.takeWhile fun entry => compare entry.1 key = .lt

/-- The entries from there on. -/
def onward (m : ArraySortedMap Key α) (key : Key) : List (Key × α) :=
  m.val.dropWhile fun entry => compare entry.1 key = .lt

/-- A copy with an entry in its place. -/
def copyWith (m : ArraySortedMap Key α) (key : Key) (value : α) (later : List (Key × α)) :
    Except String (ArraySortedMap Key α) := do
  let copy ← FixedArray.empty.append (m.before key)
  let copy ← copy.append [(key, value)]
  copy.append later

def insert [DecidableEq α] (m : ArraySortedMap Key α) (key : Key) (value : α) :
    Except String (ArraySortedMap Key α) :=
  match m.onward key with
  | [] => m.copyWith key value []
  | pos :: later =>
      if compare key pos.1 = .eq then
        if value = pos.2 then .ok m else m.copyWith key value later
      else m.copyWith key value (pos :: later)

/-- The entry at the position that `find` finds, if it is not the end. -/
def find (m : ArraySortedMap Key α) (key : Key) : Option (Key × α) :=
  m.val.find? fun entry => compare key entry.1 = .eq

def erase (m : ArraySortedMap Key α) (key : Key) : Except String (ArraySortedMap Key α) :=
  match m.val.dropWhile fun entry => compare key entry.1 ≠ .eq with
  | [] => .ok m
  | _ :: later =>
      if m.size ≤ 1 then .ok FixedArray.empty
      else do
        let copy ← FixedArray.empty.append
          (m.val.takeWhile fun entry => compare key entry.1 ≠ .eq)
        copy.append later

def contains (m : ArraySortedMap Key α) (key : Key) : Bool := (m.find key).isSome

/-- `none` is `npos`. -/
def findIndex (m : ArraySortedMap Key α) (key : Key) : Option Nat :=
  m.val.findIdx? fun entry => compare key entry.1 = .eq

def keys (m : ArraySortedMap Key α) : List Key := m.val.map Prod.fst

/-- What a loop over `keys_in` is given: the array between two positions. -/
def keysIn (m : ArraySortedMap Key α) (startKey endKey : Key) : List Key :=
  if compare startKey endKey = .lt then
    ((m.onward startKey).take ((m.onward startKey).length - (m.onward endKey).length)).map Prod.fst
  else []

variable {m : ArraySortedMap Key α} {key : Key} {value : α}

theorem onward_eq (m : ArraySortedMap Key α) (key : Key) :
    m.onward key = SortedMap.lowerBound key m.val := by
  simp only [onward, compare_lt_iff_lt]
  rfl

theorem before_append (m : ArraySortedMap Key α) (key : Key) :
    m.before key ++ m.onward key = m.val :=
  List.takeWhile_append_dropWhile

theorem mem_before {entry : Key × α} (member : entry ∈ m.before key) : entry.1 < key := by
  have satisfied := List.mem_takeWhile_imp member
  simpa [compare_lt_iff_lt] using satisfied

theorem onward_reached {pos : Key × α} {later : List (Key × α)} (found : m.onward key = pos :: later) :
    ¬ pos.1 < key := by
  intro less
  have first := List.head?_dropWhile_not (fun entry : Key × α => compare entry.1 key = .lt) m.val
  rw [← onward, found] at first
  simp [compare_lt_iff_lt, less] at first

theorem copyWith_ok (m : ArraySortedMap Key α) (key : Key) (value : α) (later : List (Key × α))
    (fits : (m.before key ++ (key, value) :: later).length ≤ kFixedSize) :
    ∃ copy, m.copyWith key value later = .ok copy ∧
      copy.val = m.before key ++ (key, value) :: later := by
  simp only [List.length_append, List.length_cons] at fits
  obtain ⟨one, first, oneVal⟩ := FixedArray.append_ok .empty (m.before key)
    (show (m.before key).length ≤ _ by omega)
  obtain ⟨two, second, twoVal⟩ := FixedArray.append_ok one [(key, value)] (by rw [oneVal]; simp [FixedArray.empty]; omega)
  obtain ⟨three, third, threeVal⟩ := FixedArray.append_ok two later (by rw [twoVal, oneVal]; simp [FixedArray.empty]; omega)
  refine ⟨three, ?_, ?_⟩
  · simp only [copyWith, first, second, third, bind, Except.bind]
  · rw [threeVal, twoVal, oneVal]
    simp [FixedArray.empty]

/-- As long as there is room for one more entry, no copy is too large. -/
theorem insert_spec [DecidableEq α] (room : m.size < kFixedSize) (sorted : Sorted m.val)
    (key : Key) (value : α) :
    ∃ m', m.insert key value = .ok m' ∧ m'.val = SortedMap.insert key value m.val := by
  have whole := before_append m key
  have count : (m.before key).length + (m.onward key).length = m.size := by
    rw [← List.length_append, whole]
    rfl
  rw [insert]
  cases found : m.onward key with
  | nil =>
      rw [found] at whole count
      obtain ⟨copy, copied, content⟩ := copyWith_ok m key value []
        (by simp at count ⊢; omega)
      refine ⟨copy, copied, ?_⟩
      rw [content, ← whole, List.append_nil, insert_last fun _ => mem_before]
  | cons pos later =>
      have reached := onward_reached found
      rw [found] at whole count
      rw [← whole] at sorted
      obtain ⟨-, -, earlier, -⟩ := sorted_around.mp sorted
      simp only [compare_eq_iff_eq]
      by_cases same : key = pos.1
      · rw [if_pos same]
        by_cases unchanged : value = pos.2
        · rw [if_pos unchanged]
          refine ⟨m, rfl, ?_⟩
          rw [← whole, insert_here earlier same.symm, same, unchanged]
        · rw [if_neg unchanged]
          obtain ⟨copy, copied, content⟩ := copyWith_ok m key value
            later (by simp at count ⊢; omega)
          exact ⟨copy, copied, by rw [content, ← whole, insert_here earlier same.symm]⟩
      · rw [if_neg same]
        obtain ⟨copy, copied, content⟩ := copyWith_ok m key value
          (pos :: later) (by simp at count ⊢; omega)
        have less : key < pos.1 := lt_of_le_of_ne (not_lt.mp reached) same
        refine ⟨copy, copied, ?_⟩
        rw [content, ← whole, insert_before less, insert_last fun _ => mem_before,
          List.append_assoc, List.singleton_append]

theorem erase_spec (sorted : Sorted m.val) (key : Key) :
    ∃ m', m.erase key = .ok m' ∧ m'.val = SortedMap.erase key m.val := by
  have whole : (m.val.takeWhile fun entry => compare key entry.1 ≠ .eq) ++
      (m.val.dropWhile fun entry => compare key entry.1 ≠ .eq) = m.val :=
    List.takeWhile_append_dropWhile
  rw [erase]
  cases found : m.val.dropWhile fun entry => compare key entry.1 ≠ .eq with
  | nil =>
      refine ⟨m, rfl, ?_⟩
      rw [erase_none]
      intro entry member
      have different := List.dropWhile_eq_nil_iff.mp found entry member
      have apart : key ≠ entry.1 := by simpa [compare_eq_iff_eq] using different
      exact apart.symm
  | cons pos later =>
      have first := List.head?_dropWhile_not
        (fun entry : Key × α => compare key entry.1 ≠ .eq) m.val
      rw [found] at first whole
      have same : key = pos.1 := by simpa [compare_eq_iff_eq] using first
      have fits := m.property
      have count : (m.val.takeWhile fun entry => compare key entry.1 ≠ .eq).length +
          (later.length + 1) = m.val.length := by
        conv_rhs => rw [← whole]
        rw [List.length_append, List.length_cons]
      rw [← whole] at sorted
      have erased := erase_here sorted same.symm
      rw [whole] at erased
      simp only
      by_cases last : m.size ≤ 1
      · rw [if_pos last]
        refine ⟨.empty, rfl, ?_⟩
        rw [size] at last
        rw [erased, List.eq_nil_of_length_eq_zero (by omega : later.length = 0),
          List.eq_nil_of_length_eq_zero (l := List.takeWhile _ _) (by omega)]
        rfl
      · rw [if_neg last]
        obtain ⟨one, copied, oneVal⟩ := FixedArray.append_ok (α := Key × α) .empty
          (m.val.takeWhile fun entry => compare key entry.1 ≠ .eq)
          (show (List.takeWhile _ _).length ≤ _ by omega)
        obtain ⟨two, appended, twoVal⟩ := FixedArray.append_ok one later
          (by rw [oneVal]; simp only [FixedArray.empty, List.nil_append, List.length_append]; omega)
        refine ⟨two, ?_, ?_⟩
        · simp only [copied, appended, bind, Except.bind]
        · rw [twoVal, oneVal, erased]
          rfl

theorem find_eq (m : ArraySortedMap Key α) (key : Key) :
    (m.find key).map Prod.snd = SortedMap.find key m.val := by
  rw [find]
  induction m.val with
  | nil => rfl
  | cons entry rest ih =>
      rw [List.find?_cons, find_cons]
      by_cases same : entry.1 = key
      · simp [same]
      · simpa [same, Ne.symm same] using ih

theorem findIndex_eq (m : ArraySortedMap Key α) (key : Key) :
    m.findIndex key = m.val.findIdx? fun entry => entry.1 = key := by
  rw [findIndex]
  congr 1
  funext entry
  rw [decide_eq_decide, compare_eq_iff_eq]
  exact eq_comm

theorem keysIn_eq (sorted : Sorted m.val) (startKey endKey : Key) :
    m.keysIn startKey endKey =
      (m.val.filter fun entry => startKey ≤ entry.1 ∧ entry.1 < endKey).map Prod.fst := by
  rw [keysIn, onward_eq, onward_eq]
  split
  · rename_i order
    rw [lowerBound_split sorted (compare_lt_iff_lt.mp order)]
    simp
  · rename_i order
    symm
    rw [List.map_eq_nil_iff, List.filter_eq_nil_iff]
    intro entry _ inside
    obtain ⟨reached, before⟩ := of_decide_eq_true inside
    exact order (compare_lt_iff_lt.mpr (reached.trans_lt before))

end

end ArraySortedMap

end DogFoodTracker.Immutable
