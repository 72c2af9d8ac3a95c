import Mathlib.Order.Lattice
import Mathlib.Data.List.Lex
import Mathlib.Data.List.Pairwise
import Mathlib.Data.List.TakeWhile

/-! # Maps as sorted lists of entries

A map is a list of entries in the strict order of their keys. Looking up, inserting and
erasing work on any list; that the list is sorted makes it the only one with its entries.
-/

namespace SortedMap

variable {Key α : Type*} [LinearOrder Key]

/-- The keys are in strict order. -/
def Sorted (entries : List (Key × α)) : Prop :=
  entries.Pairwise fun entry later => entry.1 < later.1

def find (key : Key) : List (Key × α) → Option α
  | [] => none
  | entry :: rest => if entry.1 = key then some entry.2 else find key rest

/-- Set the value of a key, before the first larger one. -/
def insert (key : Key) (value : α) : List (Key × α) → List (Key × α)
  | [] => [(key, value)]
  | entry :: rest =>
      if key < entry.1 then (key, value) :: entry :: rest
      else if entry.1 = key then (key, value) :: rest
      else entry :: insert key value rest

def erase (key : Key) (entries : List (Key × α)) : List (Key × α) :=
  entries.filter fun entry => entry.1 ≠ key

/-- The entries from a key on. -/
def lowerBound (key : Key) (entries : List (Key × α)) : List (Key × α) :=
  entries.dropWhile fun entry => entry.1 < key

variable {key other : Key} {value : α} {entries : List (Key × α)}

@[simp] theorem find_nil : find key ([] : List (Key × α)) = none := rfl

theorem find_cons (entry : Key × α) :
    find key (entry :: entries) = if entry.1 = key then some entry.2 else find key entries := rfl

theorem find_insert (key other : Key) (value : α) (entries : List (Key × α)) :
    find other (insert key value entries) =
      if key = other then some value else find other entries := by
  induction entries with
  | nil => rfl
  | cons entry rest ih =>
      simp only [insert]
      split
      · rfl
      · split
        · rename_i same
          simp only [find_cons, same]
          split <;> rfl
        · rename_i different
          simp only [find_cons, ih]
          split
          · rename_i here
            rw [if_neg (fun same => different (here.trans same.symm))]
          · rfl

@[simp] theorem find_insert_self : find key (insert key value entries) = some value := by
  rw [find_insert, if_pos rfl]

theorem find_insert_other (different : key ≠ other) :
    find other (insert key value entries) = find other entries := by
  rw [find_insert, if_neg different]

theorem find_erase (key other : Key) (entries : List (Key × α)) :
    find other (erase key entries) = if key = other then none else find other entries := by
  induction entries with
  | nil => simp [erase]
  | cons entry rest ih =>
      simp only [erase] at ih
      simp only [erase, List.filter_cons, decide_not, Bool.not_eq_true', decide_eq_false_iff_not]
      by_cases same : entry.1 = key
      · simp only [same, not_true_eq_false, if_false]
        simp only [decide_not] at ih
        rw [ih, find_cons, same]
        split <;> rfl
      · simp only [same, not_false_eq_true, if_true, find_cons]
        simp only [decide_not] at ih
        rw [ih]
        by_cases here : entry.1 = other
        · rw [if_pos here, if_pos here, if_neg (fun h => same (here.trans h.symm))]
        · rw [if_neg here, if_neg here]

@[simp] theorem find_erase_self : find key (erase key entries) = none := by
  rw [find_erase, if_pos rfl]

theorem find_erase_other (different : key ≠ other) :
    find other (erase key entries) = find other entries := by
  rw [find_erase, if_neg different]

/-! ## Sorted lists -/

theorem Sorted.tail {entry : Key × α} (sorted : Sorted (entry :: entries)) : Sorted entries :=
  (List.pairwise_cons.mp sorted).2

theorem mem_insert {entry : Key × α} (member : entry ∈ insert key value entries) :
    entry = (key, value) ∨ entry ∈ entries := by
  induction entries with
  | nil => exact .inl (List.mem_singleton.mp member)
  | cons first rest ih =>
      simp only [insert] at member
      split at member
      · exact List.mem_cons.mp member
      · split at member
        · exact (List.mem_cons.mp member).imp_right (List.mem_cons_of_mem _)
        · rcases List.mem_cons.mp member with rfl | later
          · exact .inr List.mem_cons_self
          · exact (ih later).imp_right (List.mem_cons_of_mem _)

theorem Sorted.insert (sorted : Sorted entries) (key : Key) (value : α) :
    Sorted (insert key value entries) := by
  induction entries with
  | nil => exact List.pairwise_singleton _ _
  | cons first rest ih =>
      have later := (List.pairwise_cons.mp sorted).1
      simp only [SortedMap.insert]
      split
      · rename_i before
        apply List.pairwise_cons.mpr ⟨?_, sorted⟩
        intro entry member
        rcases List.mem_cons.mp member with rfl | member
        · exact before
        · exact before.trans (later entry member)
      · rename_i behind
        split
        · rename_i same
          exact List.pairwise_cons.mpr ⟨fun entry member => same ▸ later entry member, sorted.tail⟩
        · rename_i different
          apply List.pairwise_cons.mpr ⟨?_, ih sorted.tail⟩
          intro entry member
          rcases mem_insert member with rfl | member
          · exact lt_of_le_of_ne (not_lt.mp behind) different
          · exact later entry member

theorem Sorted.erase (sorted : Sorted entries) (key : Key) : Sorted (erase key entries) :=
  sorted.filter _

theorem find_eq_none (apart : ∀ entry ∈ entries, entry.1 ≠ key) : find key entries = none := by
  induction entries with
  | nil => rfl
  | cons entry rest ih =>
      rw [find_cons, if_neg (apart entry List.mem_cons_self)]
      exact ih fun later member => apart later (List.mem_cons_of_mem _ member)

/-! ## Around an entry -/

section around

variable {before after : List (Key × α)} {entry : Key × α}

theorem sorted_around : Sorted (before ++ entry :: after) ↔
    Sorted before ∧ Sorted after ∧ (∀ earlier ∈ before, earlier.1 < entry.1) ∧
      ∀ later ∈ after, entry.1 < later.1 := by
  constructor
  · intro sorted
    obtain ⟨first, rest, across⟩ := List.pairwise_append.mp sorted
    obtain ⟨later, second⟩ := List.pairwise_cons.mp rest
    exact ⟨first, second, fun earlier member => across earlier member entry List.mem_cons_self, later⟩
  · rintro ⟨first, second, earlier, later⟩
    refine List.pairwise_append.mpr ⟨first, List.pairwise_cons.mpr ⟨later, second⟩, ?_⟩
    intro left inBefore right inAfter
    rcases List.mem_cons.mp inAfter with rfl | inAfter
    · exact earlier left inBefore
    · exact (earlier left inBefore).trans (later right inAfter)

theorem insert_before (less : key < entry.1) :
    insert key value (before ++ entry :: after) = insert key value before ++ entry :: after := by
  induction before with
  | nil => simp [insert, less]
  | cons first rest ih =>
      simp only [List.cons_append, insert, ih]
      split
      · rfl
      · split <;> rfl

theorem insert_after (earlier : ∀ left ∈ before, left.1 < entry.1) (greater : entry.1 < key) :
    insert key value (before ++ entry :: after) = before ++ entry :: insert key value after := by
  induction before with
  | nil => simp [insert, not_lt_of_gt greater, ne_of_lt greater]
  | cons first rest ih =>
      have less : first.1 < key := (earlier first List.mem_cons_self).trans greater
      simp only [List.cons_append, insert, if_neg (not_lt_of_gt less), if_neg (ne_of_lt less)]
      rw [ih fun left member => earlier left (List.mem_cons_of_mem _ member)]

theorem insert_here (earlier : ∀ left ∈ before, left.1 < entry.1) (same : entry.1 = key) :
    insert key value (before ++ entry :: after) = before ++ (key, value) :: after := by
  induction before with
  | nil => simp [insert, same]
  | cons first rest ih =>
      have less : first.1 < key := same ▸ earlier first List.mem_cons_self
      simp only [List.cons_append, insert, if_neg (not_lt_of_gt less), if_neg (ne_of_lt less)]
      rw [ih fun left member => earlier left (List.mem_cons_of_mem _ member)]

/-- A key beyond all others is inserted at the end. -/
theorem insert_last (earlier : ∀ left ∈ entries, left.1 < key) :
    insert key value entries = entries ++ [(key, value)] := by
  induction entries with
  | nil => rfl
  | cons first rest ih =>
      have less := earlier first List.mem_cons_self
      simp only [List.cons_append, insert, if_neg (not_lt_of_gt less), if_neg (ne_of_lt less)]
      rw [ih fun left member => earlier left (List.mem_cons_of_mem _ member)]

/-- Inserting in order builds the list up again. -/
theorem Sorted.foldl_insert (sorted : Sorted (before ++ after)) :
    after.foldl (fun entries entry => SortedMap.insert entry.1 entry.2 entries) before =
      before ++ after := by
  induction after generalizing before with
  | nil => exact (List.append_nil before).symm
  | cons entry rest ih =>
      obtain ⟨-, -, earlier, -⟩ := sorted_around.mp sorted
      rw [List.foldl_cons, insert_last earlier, ih, List.append_assoc, List.singleton_append]
      rwa [List.append_assoc, List.singleton_append]

theorem erase_none (apart : ∀ entry ∈ entries, entry.1 ≠ key) : erase key entries = entries :=
  List.filter_eq_self.mpr fun entry member => by simpa using apart entry member

theorem erase_before (less : key < entry.1) (later : ∀ right ∈ after, entry.1 < right.1) :
    erase key (before ++ entry :: after) = erase key before ++ entry :: after := by
  have kept : erase key (entry :: after) = entry :: after := by
    apply erase_none
    intro right member
    rcases List.mem_cons.mp member with rfl | member
    · exact ne_of_gt less
    · exact ne_of_gt (less.trans (later right member))
  rw [erase, List.filter_append, ← erase, ← erase, kept]

theorem erase_after (earlier : ∀ left ∈ before, left.1 < entry.1) (greater : entry.1 < key) :
    erase key (before ++ entry :: after) = before ++ entry :: erase key after := by
  have kept : erase key before = before :=
    erase_none fun left member => ne_of_lt ((earlier left member).trans greater)
  rw [erase, List.filter_append, ← erase, kept, List.filter_cons_of_pos, ← erase]
  simpa using ne_of_lt greater

theorem erase_here (sorted : Sorted (before ++ entry :: after)) (same : entry.1 = key) :
    erase key (before ++ entry :: after) = before ++ after := by
  obtain ⟨-, -, earlier, later⟩ := sorted_around.mp sorted
  have keptBefore : erase key before = before :=
    erase_none fun left member => ne_of_lt (same ▸ earlier left member)
  have keptAfter : erase key after = after :=
    erase_none fun right member => ne_of_gt (same ▸ later right member)
  rw [erase, List.filter_append, ← erase, keptBefore, List.filter_cons_of_neg, ← erase, keptAfter]
  simpa using same

theorem find_before (less : key < entry.1) (later : ∀ right ∈ after, entry.1 < right.1) :
    find key (before ++ entry :: after) = find key before := by
  induction before with
  | nil =>
      apply find_eq_none
      intro right member
      rcases List.mem_cons.mp member with rfl | member
      · exact ne_of_gt less
      · exact ne_of_gt (less.trans (later right member))
  | cons first rest ih => rw [List.cons_append, find_cons, find_cons, ih]

theorem find_after (earlier : ∀ left ∈ before, left.1 < entry.1) (greater : entry.1 < key) :
    find key (before ++ entry :: after) = find key after := by
  induction before with
  | nil => rw [List.nil_append, find_cons, if_neg (ne_of_lt greater)]
  | cons first rest ih =>
      rw [List.cons_append, find_cons,
        if_neg (ne_of_lt ((earlier first List.mem_cons_self).trans greater)),
        ih fun left member => earlier left (List.mem_cons_of_mem _ member)]

theorem find_here (earlier : ∀ left ∈ before, left.1 < entry.1) (same : entry.1 = key) :
    find key (before ++ entry :: after) = some entry.2 := by
  induction before with
  | nil => rw [List.nil_append, find_cons, if_pos same]
  | cons first rest ih =>
      rw [List.cons_append, find_cons,
        if_neg (ne_of_lt (same ▸ earlier first List.mem_cons_self)),
        ih fun left member => earlier left (List.mem_cons_of_mem _ member)]

theorem lowerBound_before (reached : ¬ entry.1 < key) :
    lowerBound key (before ++ entry :: after) = lowerBound key before ++ entry :: after := by
  induction before with
  | nil => simp [lowerBound, reached]
  | cons first rest ih =>
      simp only [lowerBound, List.cons_append, List.dropWhile_cons] at ih ⊢
      split
      · exact ih
      · rfl

theorem lowerBound_none (earlier : ∀ left ∈ entries, left.1 < key) : lowerBound key entries = [] :=
  List.dropWhile_eq_nil_iff.mpr fun left member => by simpa using earlier left member

theorem lowerBound_after (earlier : ∀ left ∈ before, left.1 < entry.1) (greater : entry.1 < key) :
    lowerBound key (before ++ entry :: after) = lowerBound key after := by
  have passed : (before.dropWhile fun left => left.1 < key) = [] :=
    lowerBound_none fun left member => (earlier left member).trans greater
  rw [lowerBound, List.dropWhile_append, passed]
  simp [lowerBound, greater]

end around

theorem Sorted.lowerBound (sorted : Sorted entries) (key : Key) :
    Sorted (lowerBound key entries) :=
  List.Pairwise.sublist (List.dropWhile_sublist _) sorted

/-- The entries from one key on, up to another. -/
theorem lowerBound_split {start stop : Key} (sorted : Sorted entries) (less : start < stop) :
    SortedMap.lowerBound start entries =
      (entries.filter fun entry => start ≤ entry.1 ∧ entry.1 < stop) ++
        SortedMap.lowerBound stop entries := by
  induction entries with
  | nil => rfl
  | cons entry rest ih =>
      have later := (List.pairwise_cons.mp sorted).1
      have onward : start ≤ entry.1 → SortedMap.lowerBound start rest = rest := by
        intro reached
        cases rest with
        | nil => rfl
        | cons next more =>
            have beyond := reached.trans_lt (later next List.mem_cons_self)
            simp [SortedMap.lowerBound, not_lt_of_gt beyond]
      have below := ih sorted.tail
      by_cases reached : start ≤ entry.1
      · rw [onward reached] at below
        by_cases before : entry.1 < stop
        · have first : SortedMap.lowerBound stop (entry :: rest) = SortedMap.lowerBound stop rest := by
            simp [SortedMap.lowerBound, before]
          have kept : SortedMap.lowerBound start (entry :: rest) = entry :: rest := by
            simp [SortedMap.lowerBound, reached]
          rw [first, kept, List.filter_cons_of_pos (by simp [reached, before]), List.cons_append,
            ← below]
        · have none : (entry :: rest).filter (fun entry => start ≤ entry.1 ∧ entry.1 < stop) = [] := by
            rw [List.filter_eq_nil_iff]
            intro other member
            have beyond : ¬ other.1 < stop := by
              rcases List.mem_cons.mp member with rfl | member
              · exact before
              · exact fun less => before ((later other member).trans less)
            simp [beyond]
          rw [none, List.nil_append, SortedMap.lowerBound, SortedMap.lowerBound]
          simp [reached, before]
      · have passed := not_le.mp reached
        have first : SortedMap.lowerBound start (entry :: rest) = SortedMap.lowerBound start rest := by
          simp [SortedMap.lowerBound, passed]
        have second : SortedMap.lowerBound stop (entry :: rest) = SortedMap.lowerBound stop rest := by
          simp [SortedMap.lowerBound, passed.trans less]
        rw [first, second, List.filter_cons_of_neg (by simp [reached]), below]

/-- What is looked up is the first entry from its key on, if it is anywhere. -/
theorem find_lowerBound (sorted : Sorted entries) :
    find key entries =
      ((lowerBound key entries).head?.filter fun entry => entry.1 = key).map Prod.snd := by
  induction entries with
  | nil => rfl
  | cons entry rest ih =>
      have later := (List.pairwise_cons.mp sorted).1
      rw [find_cons, SortedMap.lowerBound, List.dropWhile_cons]
      by_cases less : entry.1 < key
      · rw [if_neg (ne_of_lt less), ih sorted.tail, if_pos (by simpa using less)]
        rfl
      · rw [if_neg (c := decide (entry.1 < key) = true) (by simpa using less)]
        by_cases same : entry.1 = key
        · rw [if_pos same, List.head?_cons, Option.filter_some, if_pos (by simpa using same)]
          rfl
        · rw [if_neg same, List.head?_cons, Option.filter_some, if_neg (by simpa using same),
            find_eq_none]
          · rfl
          · intro right member
            exact ne_of_gt ((lt_of_le_of_ne (not_lt.mp less) (Ne.symm same)).trans (later right member))

/-- From a key on there is no smaller one. -/
theorem Sorted.lowerBound_reached {start : Key} (sorted : Sorted entries) :
    ∀ entry ∈ SortedMap.lowerBound start entries, start ≤ entry.1 := by
  induction entries with
  | nil => exact fun _ member => nomatch member
  | cons first rest ih =>
      have later := (List.pairwise_cons.mp sorted).1
      intro entry member
      rw [SortedMap.lowerBound, List.dropWhile_cons] at member
      split at member
      · exact ih sorted.tail entry member
      · rename_i reached
        have from_first : start ≤ first.1 := by simpa using reached
        rcases List.mem_cons.mp member with rfl | member
        · exact from_first
        · exact from_first.trans (later entry member).le

/-- What is dropped is below what is looked up. -/
theorem find_lowerBound_of_le {start : Key} (reached : start ≤ key) :
    find key (lowerBound start entries) = find key entries := by
  induction entries with
  | nil => rfl
  | cons entry rest ih =>
      rw [lowerBound, List.dropWhile_cons]
      split
      · rename_i before
        have less : entry.1 < start := by simpa using before
        rw [find_cons, if_neg (less.trans_le reached).ne]
        exact ih
      · rfl

/-! ## By what is found -/

/-- What is found is the first entry or larger. -/
theorem Sorted.first_le {entry : Key × α} (sorted : Sorted (entry :: entries))
    (found : find key (entry :: entries) ≠ none) : entry.1 ≤ key := by
  by_contra less
  apply found
  apply find_eq_none
  intro other member same
  rcases List.mem_cons.mp member with rfl | member
  · exact less same.le
  · exact less (same ▸ ((List.pairwise_cons.mp sorted).1 other member).le)

theorem find_filter (p : Key → Bool) (entries : List (Key × α)) (key : Key) :
    find key (entries.filter fun entry => p entry.1) =
      if p key then find key entries else none := by
  induction entries with
  | nil => simp
  | cons entry rest ih =>
      rw [List.filter_cons, find_cons]
      by_cases same : entry.1 = key
      · subst same
        cases kept : p entry.1 with
        | true => simp [find_cons]
        | false => simpa [kept] using ih
      · rw [if_neg same, ← ih]
        split
        · rw [find_cons, if_neg same]
        · rfl

theorem Sorted.head?_eq_some {entry : Key × α} (sorted : Sorted entries)
    (found : find entry.1 entries = some entry.2)
    (least : ∀ key, find key entries ≠ none → entry.1 ≤ key) : entries.head? = some entry := by
  cases entries with
  | nil => cases found
  | cons first rest =>
      have reached : first.1 ≤ entry.1 := sorted.first_le (by simp [found])
      have same : first.1 = entry.1 :=
        le_antisymm reached (least first.1 (by simp [find_cons]))
      rw [find_cons, if_pos same, Option.some.injEq] at found
      rw [List.head?_cons, Prod.ext same found]

theorem head?_eq_none (nothing : ∀ key, find key entries = none) : entries.head? = none := by
  cases entries with
  | nil => rfl
  | cons first rest =>
      have found := nothing first.1
      rw [find_cons, if_pos rfl] at found
      cases found

/-- A sorted list is known by what is found in it. -/
theorem Sorted.ext {others : List (Key × α)} (sorted : Sorted entries) (sorted' : Sorted others)
    (same : ∀ key, find key entries = find key others) : entries = others := by
  induction entries generalizing others with
  | nil =>
      have none := head?_eq_none fun key => (same key).symm
      exact (List.head?_eq_none_iff.mp none).symm
  | cons entry rest ih =>
      have first : others.head? = some entry := by
        apply sorted'.head?_eq_some
        · rw [← same, find_cons, if_pos rfl]
        · intro key found
          exact sorted.first_le (by rwa [same])
      cases others with
      | nil => cases first
      | cons other more =>
          cases first
          rw [ih sorted.tail sorted'.tail]
          intro key
          have shared := same key
          rw [find_cons, find_cons] at shared
          by_cases here : entry.1 = key
          · rw [find_eq_none, find_eq_none]
            · exact fun later member => here ▸ ((List.pairwise_cons.mp sorted').1 later member).ne'
            · exact fun later member => here ▸ ((List.pairwise_cons.mp sorted).1 later member).ne'
          · rwa [if_neg here, if_neg here] at shared

theorem Sorted.lowerBound_eq_filter {start : Key} (sorted : Sorted entries) :
    SortedMap.lowerBound start entries = entries.filter fun entry => !decide (entry.1 < start) := by
  apply (sorted.lowerBound start).ext (sorted.filter _)
  intro key
  rw [find_filter fun key => !decide (key < start)]
  by_cases before : key < start
  · rw [find_eq_none]
    · simp [before]
    · exact fun entry member => (before.trans_le (sorted.lowerBound_reached entry member)).ne'
  · rw [find_lowerBound_of_le (not_lt.mp before)]
    simp [before]

theorem filter_above {least : Key} (above : ∀ entry ∈ entries, least < entry.1) :
    (entries.filter fun entry => !decide (entry.1 ≤ least)) = entries :=
  List.filter_eq_self.mpr fun entry member => by simpa using above entry member

theorem Sorted.filter_above_first {entry : Key × α} (sorted : Sorted (entry :: entries)) :
    ((entry :: entries).filter fun other => !decide (other.1 ≤ entry.1)) = entries := by
  rw [List.filter_cons_of_neg (by simp)]
  exact filter_above (List.pairwise_cons.mp sorted).1

theorem foldl_erase (keys : List Key) (rows : List (Key × α)) :
    keys.foldl (fun rows key => erase key rows) rows = rows.filter fun row => row.1 ∉ keys := by
  induction keys generalizing rows with
  | nil => simp
  | cons key keys ih =>
      rw [List.foldl_cons, ih, erase, List.filter_filter]
      congr 1
      funext row
      simp [Bool.and_comm]

theorem find_foldl_insert {entries : List (Key × α)} (sorted : Sorted entries)
    (rows : List (Key × α)) (key : Key) :
    find key (entries.foldl (fun rows entry => insert entry.1 entry.2 rows) rows) =
      (find key entries).or (find key rows) := by
  induction entries generalizing rows with
  | nil => rfl
  | cons entry rest ih =>
      rw [List.foldl_cons, ih sorted.tail, find_cons, find_insert]
      by_cases here : entry.1 = key
      · have once : find key rest = none :=
          find_eq_none fun later member =>
            here ▸ ((List.pairwise_cons.mp sorted).1 later member).ne'
        rw [once, if_pos here, if_pos here]
        rfl
      · rw [if_neg here, if_neg here]

theorem Sorted.inserted {rows : List (Key × α)} (sorted : Sorted rows) (entries : List (Key × α)) :
    Sorted (entries.foldl (fun rows entry => SortedMap.insert entry.1 entry.2 rows) rows) := by
  induction entries generalizing rows with
  | nil => exact sorted
  | cons entry rest ih => exact ih (sorted.insert entry.1 entry.2)

/-! ## Keys that are lists -/

section lists

variable {first path last : List Key}

/-- Between a list and one that continues it, all continue it. -/
theorem prefix_of_between (reached : ¬ path < first) (before : path < last)
    (continued : first <+: last) : first <+: path := by
  induction first generalizing path last with
  | nil => exact List.nil_prefix
  | cons a first ih =>
      obtain ⟨more, rfl⟩ := continued
      cases path with
      | nil => exact absurd (List.nil_lt_cons a first) reached
      | cons b path =>
          rw [List.cons_lt_cons_iff, not_or, not_and] at reached
          rw [List.cons_append, List.cons_lt_cons_iff] at before
          rcases before with below | ⟨same, before⟩
          · exact absurd below reached.1
          · subst same
            exact (List.prefix_cons_inj b).mpr
              (ih (reached.2 rfl) before (List.prefix_append first more))

theorem not_lt_of_prefix (continued : first <+: path) : ¬ path < first := by
  obtain ⟨more, rfl⟩ := continued
  induction first with
  | nil => exact List.not_lt_nil _
  | cons a first ih =>
      rw [List.cons_append, List.cons_lt_cons_iff]
      simpa using ih

end lists

end SortedMap
